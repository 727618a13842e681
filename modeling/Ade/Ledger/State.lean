import Ade.Ledger.Rational
import Ade.Ledger.Snapshot

/-! The ledger state: protocol parameters, governance and the epoch's pots. -/

namespace Ade.Ledger
open Std Library

/-- An absolute floor in Shelley and Mary, a coefficient per byte in Conway. -/
inductive MinUtxoRule where
  | legacyAbsoluteMin (coin : Coin)
  | perByte (coin : Coin)
deriving DecidableEq, Repr

def MinUtxoRule.coin : MinUtxoRule → Coin
  | legacyAbsoluteMin coin | perByte coin => coin

inductive MaxBlockExUnits where
  | unversioned
  | bound (mem steps : UInt64)
deriving DecidableEq, Repr

structure ProtocolParameters where
  minFeeA : Coin
  minFeeB : Coin
  maxBlockBodySize : UInt32
  maxTxSize : UInt32
  maxBlockHeaderSize : UInt32
  keyDeposit : Coin
  poolDeposit : Coin
  eMax : UInt32
  nOpt : UInt32
  poolInfluence : Rational
  monetaryExpansion : Rational
  treasuryGrowth : Rational
  protocolMajor : UInt32
  protocolMinor : UInt32
  minUtxoRule : MinUtxoRule
  minPoolCost : Coin
  decentralization : Rational
  collateralPercent : UInt16
  maxTxExUnitsMem : UInt64
  maxTxExUnitsCpu : UInt64
  networkId : UInt8
  costModelsCbor : Option Bytes
  maxBlockExUnits : MaxBlockExUnits
deriving DecidableEq

/-- The genesis parameters of Shelley mainnet. -/
def ProtocolParameters.default : ProtocolParameters where
  minFeeA := 44
  minFeeB := 155381
  maxBlockBodySize := 65536
  maxTxSize := 16384
  maxBlockHeaderSize := 1100
  keyDeposit := 2000000
  poolDeposit := 500000000
  eMax := 18
  nOpt := 150
  poolInfluence := (Rational.new 3 10).getD .zero
  monetaryExpansion := (Rational.new 3 1000).getD .zero
  treasuryGrowth := (Rational.new 2 10).getD .zero
  protocolMajor := 2
  protocolMinor := 0
  minUtxoRule := .legacyAbsoluteMin 1000000
  minPoolCost := 340000000
  decentralization := (Rational.new 1 1).getD .zero
  collateralPercent := 150
  maxTxExUnitsMem := 14000000
  maxTxExUnitsCpu := 10000000000
  networkId := 1
  costModelsCbor := none
  maxBlockExUnits := .unversioned

/-! ## Governance -/

namespace DRep

def variant : DRep → UInt8
  | keyHash _ => 0
  | scriptHash _ => 1
  | alwaysAbstain => 2
  | alwaysNoConfidence => 3

def hash : DRep → Hash28
  | keyHash hash => hash
  | scriptHash hash => hash
  | alwaysAbstain => Vector.replicate 28 0
  | alwaysNoConfidence => Vector.replicate 28 0

instance : Ord DRep := ⟨compareLex (compareOn variant) (compareOn hash)⟩

instance : TransOrd DRep := inferInstanceAs (TransCmp (compareLex (compareOn variant) (compareOn hash)))

instance : LawfulEqOrd DRep where
  compare_self := ReflOrd.compare_self
  eq_of_compare := by
    intro a b same
    have fields : compare a.variant b.variant = .eq ∧ compare a.hash b.hash = .eq :=
      compareLex_eq_eq.mp same
    simp only [LawfulEqOrd.compare_eq_iff_eq] at fields
    cases a <;> cases b <;> simp_all [variant, hash]

end DRep

structure GovActionId where
  txHash : Hash32
  index : UInt32
deriving DecidableEq, Repr

namespace GovActionId

instance : Ord GovActionId := ⟨compareLex (compareOn txHash) (compareOn index)⟩

instance : TransOrd GovActionId :=
  inferInstanceAs (TransCmp (compareLex (compareOn txHash) (compareOn index)))

instance : LawfulEqOrd GovActionId where
  compare_self := ReflOrd.compare_self
  eq_of_compare := by
    rintro ⟨txHash, index⟩ ⟨txHash', index'⟩ same
    have fields : compare txHash txHash' = .eq ∧ compare index index' = .eq :=
      compareLex_eq_eq.mp same
    simpa [LawfulEqOrd.compare_eq_iff_eq] using fields

end GovActionId

inductive Vote where
  | no | yes | abstain
deriving DecidableEq, Repr

inductive GovAction where
  | parameterChange (prevAction : Option GovActionId) (update : Bytes) (policyHash : Option Hash28)
  | hardForkInitiation (prevAction : Option GovActionId) (protocolVersion : UInt64 × UInt64)
  | treasuryWithdrawals (withdrawals : List (Bytes × Coin)) (policyHash : Option Hash28)
  | noConfidence (prevAction : Option GovActionId)
  | updateCommittee (prevAction : Option GovActionId) (removed : BTreeSet StakeCredential)
      (added : BTreeMap StakeCredential UInt64) (threshold : UInt64 × UInt64)
  | newConstitution (prevAction : Option GovActionId) (raw : Bytes)
  | infoAction
deriving DecidableEq

structure GovActionState where
  actionId : GovActionId
  committeeVotes : List (StakeCredential × Vote)
  drepVotes : List (StakeCredential × Vote)
  spoVotes : List (Hash28 × Vote)
  deposit : Coin
  returnAddr : Bytes
  govAction : GovAction
  proposedIn : EpochNo
  expiresAfter : EpochNo
deriving DecidableEq

inductive UnsupportedActionKind where
  | notParameterChange | unsupportedPParamField | noEnactableField | changedSteps
  | oversizedUpdate | malformedUpdate | chainedEnactment | competingRatifiableActions
deriving DecidableEq, Repr

inductive MalformedGovDetail where
  | returnAddrNotRewardAccount
deriving DecidableEq, Repr

inductive DanglingVoteDelegationKind where
  | unregisteredAccount | unregisteredDRep
deriving DecidableEq, Repr

abbrev CanonicalFieldSet := BTreeSet UInt64

inductive GovernanceTerminal where
  | unsupportedRatifiedAction (actionId : GovActionId) (kind : UnsupportedActionKind)
      (unsupportedKeys : CanonicalFieldSet)
  | unversionedStateOnEnactPath (actionId : GovActionId)
  | dormantRequired
  | malformed (actionId : GovActionId) (detail : MalformedGovDetail)
  | fullBoundaryStateRequired (boundaryPoint : SlotNo)
  | boundaryBaseStakeRequired (boundaryPoint : SlotNo)
  | rewardPoolParamsMissing (pool : PoolId) (boundaryPoint : SlotNo)
  | treasuryOverflow (boundary : EpochNo)
  | ratificationRecordEpochMismatch (frozenAt boundary : EpochNo)
  | ratificationRecordAbsent (boundary : EpochNo)
  | ratificationRecordProposalMissing (actionId : GovActionId)
  | danglingVoteDelegation (credential : StakeCredential) (kind : DanglingVoteDelegationKind)
deriving DecidableEq

structure EnactedParameterChange where
  actionId : GovActionId
  supersededRoot : Option GovActionId
  pparams : ProtocolParameters
deriving DecidableEq

structure RatificationDecision where
  enacted : Option EnactedParameterChange
  expired : BTreeSet GovActionId
deriving DecidableEq

inductive UnenactableReason where
  | unsupportedRatifiedAction (actionId : GovActionId) (kind : UnsupportedActionKind)
      (unsupportedKeys : CanonicalFieldSet)
  | unversionedStateOnEnactPath (actionId : GovActionId)
  | dormantRequired
deriving DecidableEq

inductive RatificationOutcome where
  | decided (decision : RatificationDecision)
  | unenactable (reason : UnenactableReason)
deriving DecidableEq

inductive RatificationSource where
  | frozen | importedFromSnapshot
deriving DecidableEq, Repr

structure RatificationRecord where
  frozenAt : EpochNo
  source : RatificationSource
  frozenProposals : BTreeSet GovActionId
  drepDistribution : BTreeMap DRep Coin
  poolDistribution : BTreeMap PoolId Coin
  outcome : RatificationOutcome
deriving DecidableEq

inductive RatificationState where
  | unversioned
  | recorded (record : RatificationRecord)
deriving DecidableEq

inductive DormantEpochs where
  | unversioned
  | bound (epochs : UInt64)
deriving DecidableEq, Repr

inductive PreviousPParamAction where
  | unversioned
  | noPreviousAction
  | enacted (actionId : GovActionId)
deriving DecidableEq, Repr

structure ConwayGovState where
  proposals : List GovActionState
  committee : BTreeMap StakeCredential UInt64
  committeeQuorum : UInt64 × UInt64
  drepExpiry : BTreeMap StakeCredential UInt64
  govActionLifetime : UInt64
  voteDelegations : BTreeMap StakeCredential DRep
  poolVotingThresholds : List (UInt64 × UInt64)
  drepVotingThresholds : List (UInt64 × UInt64)
  committeeHotKeys : BTreeMap StakeCredential StakeCredential
  numDormant : DormantEpochs
  prevPparamAction : PreviousPParamAction
  ratification : RatificationState
deriving DecidableEq

/-! ## The ledger -/

/-- A follower that crossed a boundary without the full state has no projection of it. -/
inductive Projection (α : Type) where
  | authoritative (value : α)
  | reducedUnavailable
deriving DecidableEq

def Projection.requireFull {α : Type} (projection : Projection α) (boundaryPoint : SlotNo) :
    Except GovernanceTerminal α :=
  match projection with
  | .authoritative value => .ok value
  | .reducedUnavailable => .error (.fullBoundaryStateRequired boundaryPoint)

structure EpochState where
  epoch : EpochNo
  slot : SlotNo
  snapshots : Projection SnapshotState
  reserves : Coin
  treasury : Coin
  blockProduction : BTreeMap PoolId UInt64
  epochFees : Coin
  donationPot : Coin
deriving DecidableEq

structure ConwayOnlyDepositParams where
  drepDeposit : Coin
  govActionDeposit : Coin
  drepActivity : UInt64
deriving DecidableEq, Repr

structure LedgerState (Utxo : Type) where
  utxoState : Utxo
  epochState : EpochState
  protocolParams : ProtocolParameters
  era : CardanoEra
  trackUtxo : Bool
  certState : Projection CertState
  maxLovelaceSupply : UInt64
  govState : Projection (Option ConwayGovState)
  conwayDepositParams : Option ConwayOnlyDepositParams
deriving DecidableEq

end Ade.Ledger
