import Ade.Library.Run
import Ade.Codec.Cbor

/-! Certificates and the delegation and pool state they change. -/

namespace Ade.Ledger
open Std Library

abbrev Coin := UInt64
abbrev PoolId := Hash28

inductive StakeCredential where
  | keyHash (hash : Hash28)
  | scriptHash (hash : Hash28)
deriving DecidableEq, Repr

namespace StakeCredential

def variant : StakeCredential → UInt8
  | keyHash _ => 0
  | scriptHash _ => 1

def hash : StakeCredential → Hash28
  | keyHash hash => hash
  | scriptHash hash => hash

instance : Ord StakeCredential := ⟨compareLex (compareOn variant) (compareOn hash)⟩

instance : TransOrd StakeCredential :=
  inferInstanceAs (TransCmp (compareLex (compareOn variant) (compareOn hash)))

instance : LawfulEqOrd StakeCredential where
  compare_self := ReflOrd.compare_self
  eq_of_compare := by
    intro a b same
    have fields : compare a.variant b.variant = .eq ∧ compare a.hash b.hash = .eq :=
      compareLex_eq_eq.mp same
    simp only [LawfulEqOrd.compare_eq_iff_eq] at fields
    cases a <;> cases b <;> simp_all [variant, hash]

end StakeCredential

/-- A delegated representative. -/
inductive DRep where
  | keyHash (hash : Hash28)
  | scriptHash (hash : Hash28)
  | alwaysAbstain
  | alwaysNoConfidence
deriving DecidableEq, Repr

structure PoolRegistrationCert where
  poolId : PoolId
  vrfHash : Hash32
  pledge : Coin
  cost : Coin
  margin : UInt64 × UInt64
  rewardAccount : Bytes
  owners : List Hash28
deriving DecidableEq, Repr

inductive ConwayCert where
  | accountRegistration (credential : StakeCredential)
  | accountUnregistration (credential : StakeCredential)
  | stakeDelegation (credential : StakeCredential) (poolId : PoolId)
  | poolRegistration (cert : PoolRegistrationCert)
  | poolRetirement (poolId : PoolId) (epoch : EpochNo)
  | removedInConway (tag : UInt64)
  | accountRegistrationDeposit (credential : StakeCredential) (deposit : Coin)
  | accountUnregistrationDeposit (credential : StakeCredential) (refund : Coin)
  | voteDelegation (credential : StakeCredential) (drep : DRep)
  | stakeVoteDelegation (credential : StakeCredential) (poolId : PoolId) (drep : DRep)
  | stakeRegistrationDelegation (credential : StakeCredential) (poolId : PoolId) (deposit : Coin)
  | voteRegistrationDelegation (credential : StakeCredential) (drep : DRep) (deposit : Coin)
  | stakeVoteRegistrationDelegation (credential : StakeCredential) (poolId : PoolId) (drep : DRep)
      (deposit : Coin)
  | authCommitteeHot (coldCredential hotCredential : StakeCredential)
  | resignCommitteeCold (coldCredential : StakeCredential)
  | drepRegistration (drepCredential : StakeCredential) (deposit : Coin)
  | drepUnregistration (drepCredential : StakeCredential) (refund : Coin)
  | drepUpdate (drepCredential : StakeCredential)
deriving DecidableEq, Repr

inductive Certificate where
  | stakeRegistration (credential : StakeCredential)
  | stakeDeregistration (credential : StakeCredential)
  | stakeDelegation (credential : StakeCredential) (poolId : PoolId)
  | poolRegistration (cert : PoolRegistrationCert)
  | poolRetirement (poolId : PoolId) (epoch : EpochNo)
  | genesisKeyDelegation (genesisHash delegateHash : Hash28) (vrfHash : Hash32)
  | mirTransfer
deriving DecidableEq, Repr

structure PoolParams where
  poolId : PoolId
  vrfHash : Hash32
  pledge : Coin
  cost : Coin
  margin : UInt64 × UInt64
  rewardAccount : Bytes
  owners : List Hash28
deriving DecidableEq, Repr

structure DelegationState where
  registrations : BTreeMap StakeCredential Coin
  delegations : BTreeMap StakeCredential PoolId
  rewards : BTreeMap StakeCredential Coin
deriving DecidableEq

structure PoolState where
  pools : BTreeMap PoolId PoolParams
  futurePools : BTreeMap PoolId PoolParams
  retiring : BTreeMap PoolId EpochNo
deriving DecidableEq

structure CertState where
  delegation : DelegationState
  pool : PoolState
deriving DecidableEq

def CertState.new : CertState := ⟨⟨∅, ∅, ∅⟩, ⟨∅, ∅, ∅⟩⟩

inductive CertFailureReason where
  | stakeAlreadyRegistered
  | stakeNotRegistered
  | poolNotRegistered
  | drepNotRegistered
deriving DecidableEq, Repr

inductive ValidationEnvironmentError where
  | missingDRepActivityParam
  | drepActivityOverflow
deriving DecidableEq, Repr

inductive UnsupportedStateDependentDepositAccounting where
  | legacyUnregistrationRefundUnresolved
deriving DecidableEq, Repr

inductive LedgerError where
  | invalidCertificate (certIndex : UInt16) (reason : CertFailureReason)
  | eraInvalidCertificate (certIndex : UInt16) (removedTag : UInt64)
  | unsupportedStateDependentDeposit (unsupported : UnsupportedStateDependentDepositAccounting)
  | decoding (failure : Codec.CodecError)
  | validationEnvironment (failure : ValidationEnvironmentError)
  | conservation (consumedCoin producedCoin : Coin)
deriving DecidableEq, Repr

/-! ## The effects -/

def applyStakeRegistration (state : CertState) (cred : StakeCredential) (keyDeposit : Coin)
    (certIndex : UInt16) : Except LedgerError CertState :=
  if state.delegation.registrations.contains cred then
    .error (.invalidCertificate certIndex .stakeAlreadyRegistered)
  else
    .ok { state with delegation := { state.delegation with
      registrations := state.delegation.registrations.insert cred keyDeposit
      rewards := state.delegation.rewards.insert cred 0 } }

def applyStakeDeregistration (state : CertState) (cred : StakeCredential) (certIndex : UInt16) :
    Except LedgerError CertState :=
  if ¬ state.delegation.registrations.contains cred then
    .error (.invalidCertificate certIndex .stakeNotRegistered)
  else
    .ok { state with delegation :=
      { registrations := state.delegation.registrations.erase cred
        delegations := state.delegation.delegations.erase cred
        rewards := state.delegation.rewards.erase cred } }

def applyStakeDelegation (state : CertState) (cred : StakeCredential) (poolId : PoolId)
    (certIndex : UInt16) : Except LedgerError CertState :=
  if ¬ state.delegation.registrations.contains cred then
    .error (.invalidCertificate certIndex .stakeNotRegistered)
  else if ¬ state.pool.pools.contains poolId then
    .error (.invalidCertificate certIndex .poolNotRegistered)
  else
    .ok { state with delegation := { state.delegation with
      delegations := state.delegation.delegations.insert cred poolId } }

def PoolRegistrationCert.params (cert : PoolRegistrationCert) : PoolParams where
  poolId := cert.poolId
  vrfHash := cert.vrfHash
  pledge := cert.pledge
  cost := cert.cost
  margin := cert.margin
  rewardAccount := cert.rewardAccount
  owners := cert.owners

/-- A second registration is staged until the next epoch; either cancels a retirement. -/
def applyPoolRegistration (state : CertState) (cert : PoolRegistrationCert) :
    Except LedgerError CertState :=
  let retiring := state.pool.retiring.erase cert.poolId
  if state.pool.pools.contains cert.poolId then
    .ok { state with pool := { state.pool with
      futurePools := state.pool.futurePools.insert cert.poolId cert.params
      retiring := retiring } }
  else
    .ok { state with pool := { state.pool with
      pools := state.pool.pools.insert cert.poolId cert.params
      retiring := retiring } }

def applyPoolRetirement (state : CertState) (poolId : PoolId) (epoch : EpochNo)
    (certIndex : UInt16) : Except LedgerError CertState :=
  if ¬ state.pool.pools.contains poolId then
    .error (.invalidCertificate certIndex .poolNotRegistered)
  else
    .ok { state with pool := { state.pool with
      retiring := state.pool.retiring.insert poolId epoch } }

def applyCert (certState : CertState) (cert : Certificate) (keyDeposit : Coin)
    (certIndex : UInt16) : Except LedgerError CertState :=
  match cert with
  | .stakeRegistration cred => applyStakeRegistration certState cred keyDeposit certIndex
  | .stakeDeregistration cred => applyStakeDeregistration certState cred certIndex
  | .stakeDelegation credential poolId =>
      applyStakeDelegation certState credential poolId certIndex
  | .poolRegistration poolCert => applyPoolRegistration certState poolCert
  | .poolRetirement poolId epoch => applyPoolRetirement certState poolId epoch certIndex
  | .genesisKeyDelegation _ _ _ | .mirTransfer => .ok certState

/-! ## Conway certificates -/

inductive GovernanceOwner where
  | conwayGovState
deriving DecidableEq, Repr

inductive GovernanceCertEffect where
  | voteDelegation
  | stakeVoteDelegation
  | committeeHotKeyAuthorization
  | committeeColdKeyResignation
  | drepRegistration
  | drepUnregistration
  | drepUpdate
  | accountVoteDelegationRemoval
deriving DecidableEq, Repr

structure OwnerTaggedEffect where
  owner : GovernanceOwner
  effect : GovernanceCertEffect
deriving DecidableEq, Repr

structure ConwayCertEnv where
  keyDeposit : Coin
  certIndex : UInt16

structure ConwayCertOutcome where
  state : CertState
  ownerTagged : List OwnerTaggedEffect
deriving DecidableEq

def tagged (effect : GovernanceCertEffect) (state : CertState) : ConwayCertOutcome :=
  ⟨state, [⟨.conwayGovState, effect⟩]⟩

def plain (state : CertState) : ConwayCertOutcome := ⟨state, []⟩

def applyConwayCert (state : CertState) (cert : ConwayCert) (env : ConwayCertEnv) :
    Except LedgerError ConwayCertOutcome :=
  let idx := env.certIndex
  match cert with
  | .accountRegistration credential => do
      return plain (← applyStakeRegistration state credential env.keyDeposit idx)
  | .accountRegistrationDeposit credential deposit => do
      return plain (← applyStakeRegistration state credential deposit idx)
  | .accountUnregistration credential | .accountUnregistrationDeposit credential _ => do
      return tagged .accountVoteDelegationRemoval (← applyStakeDeregistration state credential idx)
  | .stakeDelegation credential poolId => do
      return plain (← applyStakeDelegation state credential poolId idx)
  | .poolRegistration cert => do return plain (← applyPoolRegistration state cert)
  | .poolRetirement poolId epoch => do
      return plain (← applyPoolRetirement state poolId epoch idx)
  | .stakeRegistrationDelegation credential poolId deposit => do
      let registered ← applyStakeRegistration state credential deposit idx
      return plain (← applyStakeDelegation registered credential poolId idx)
  | .stakeVoteDelegation credential poolId _ => do
      return tagged .stakeVoteDelegation (← applyStakeDelegation state credential poolId idx)
  | .voteRegistrationDelegation credential _ deposit => do
      return tagged .voteDelegation (← applyStakeRegistration state credential deposit idx)
  | .stakeVoteRegistrationDelegation credential poolId _ deposit => do
      let registered ← applyStakeRegistration state credential deposit idx
      return tagged .stakeVoteDelegation (← applyStakeDelegation registered credential poolId idx)
  | .voteDelegation _ _ => return tagged .voteDelegation state
  | .authCommitteeHot _ _ => return tagged .committeeHotKeyAuthorization state
  | .resignCommitteeCold _ => return tagged .committeeColdKeyResignation state
  | .drepRegistration _ _ => return tagged .drepRegistration state
  | .drepUnregistration _ _ => return tagged .drepUnregistration state
  | .drepUpdate _ => return tagged .drepUpdate state
  | .removedInConway tag => .error (.eraInvalidCertificate idx tag)

/-! ## The epoch boundary -/

def adoptPool (pools : BTreeMap PoolId PoolParams) (staged : PoolId × PoolParams) :
    BTreeMap PoolId PoolParams :=
  if pools.contains staged.1 then pools.insert staged.1 staged.2 else pools

def applyPoolReap (cert : CertState) (enteredEpoch : EpochNo) : CertState :=
  let adopted := cert.pool.futurePools.toList.foldl adoptPool cert.pool.pools
  let retired :=
    (cert.pool.retiring.toList.filter fun entry => entry.2 = enteredEpoch).map Prod.fst
  let delegations :=
    if retired.isEmpty then cert.delegation.delegations
    else cert.delegation.delegations.filter fun _ poolId => ¬ retired.contains poolId
  { delegation := { cert.delegation with delegations := delegations }
    pool :=
      { pools := retired.foldl (fun table key => table.erase key) adopted
        futurePools := ∅
        retiring := retired.foldl (fun table key => table.erase key) cert.pool.retiring } }

/-! ## Runs -/

inductive CertAction where
  | certificate (cert : ConwayCert) (env : ConwayCertEnv)
  | reap (enteredEpoch : EpochNo)

/-- A rejected certificate takes no step. -/
inductive CertStep : CertState → CertAction → CertState → Prop
  | certificate {state : CertState} {cert : ConwayCert} {env : ConwayCertEnv}
      {outcome : ConwayCertOutcome} (accepted : applyConwayCert state cert env = .ok outcome) :
      CertStep state (.certificate cert env) outcome.state
  | reap (state : CertState) (enteredEpoch : EpochNo) :
      CertStep state (.reap enteredEpoch) (applyPoolReap state enteredEpoch)

/-- What rewards, stake marks and leadership read from a certificate state. -/
structure CertState.WellFormed (state : CertState) : Prop where
  rewarded : ∀ cred, cred ∈ state.delegation.rewards ↔ cred ∈ state.delegation.registrations
  delegating : ∀ (cred : StakeCredential) (poolId : PoolId),
    state.delegation.delegations[cred]? = some poolId →
      cred ∈ state.delegation.registrations ∧ poolId ∈ state.pool.pools
  staged : ∀ poolId ∈ state.pool.futurePools, poolId ∈ state.pool.pools
  retiring : ∀ poolId ∈ state.pool.retiring, poolId ∈ state.pool.pools

end Ade.Ledger
