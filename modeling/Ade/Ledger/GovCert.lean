import Ade.Ledger.Governance

/-! The governance half of Conway certificates, and the certificates of a transaction. -/

namespace Ade.Ledger
open Std Library

/-- The two predefined DReps are never registered. -/
def drepCredential : DRep → Option StakeCredential
  | .keyHash hash => some (.keyHash hash)
  | .scriptHash hash => some (.scriptHash hash)
  | .alwaysAbstain | .alwaysNoConfidence => none

structure GovCertEnv where
  currentEpoch : UInt64
  drepActivity : UInt64

def delegateVote (gov : ConwayGovState) (credential : StakeCredential) (drep : DRep)
    (certIndex : UInt16) : Except LedgerError ConwayGovState :=
  if (drepCredential drep).any fun target => ¬ gov.drepExpiry.contains target then
    .error (.invalidCertificate certIndex .drepNotRegistered)
  else .ok { gov with voteDelegations := gov.voteDelegations.insert credential drep }

def renewDRep (gov : ConwayGovState) (credential : StakeCredential) (env : Option GovCertEnv) :
    Except LedgerError ConwayGovState :=
  match env with
  | none => .error (.validationEnvironment .missingDRepActivityParam)
  | some env =>
      match checkedAdd env.currentEpoch env.drepActivity with
      | none => .error (.validationEnvironment .drepActivityOverflow)
      | some expiry => .ok { gov with drepExpiry := gov.drepExpiry.insert credential expiry }

def applyConwayGovCert (gov : ConwayGovState) (cert : ConwayCert) (env : Option GovCertEnv)
    (certIndex : UInt16) : Except LedgerError ConwayGovState :=
  match cert with
  | .voteDelegation credential drep | .stakeVoteDelegation credential _ drep
  | .voteRegistrationDelegation credential drep _
  | .stakeVoteRegistrationDelegation credential _ drep _ =>
      delegateVote gov credential drep certIndex
  | .authCommitteeHot coldCredential hotCredential => .ok { gov with
      committeeHotKeys := gov.committeeHotKeys.insert hotCredential coldCredential }
  | .resignCommitteeCold coldCredential => .ok { gov with
      committeeHotKeys := gov.committeeHotKeys.filter fun _ cold => cold ≠ coldCredential }
  | .drepRegistration credential _ | .drepUpdate credential => renewDRep gov credential env
  | .drepUnregistration credential _ => .ok { gov with
      drepExpiry := gov.drepExpiry.erase credential
      voteDelegations := gov.voteDelegations.filter fun _ drep =>
        drepCredential drep ≠ some credential }
  | .accountUnregistration credential | .accountUnregistrationDeposit credential _ => .ok { gov with
      voteDelegations := gov.voteDelegations.erase credential }
  | .accountRegistration _ | .stakeDelegation _ _ | .poolRegistration _ | .poolRetirement _ _
  | .accountRegistrationDeposit _ _ | .stakeRegistrationDelegation _ _ _ | .removedInConway _ =>
      .ok gov

/-! ## The certificates of a transaction -/

/-- Delegation and governance, as certificates change them. -/
structure CertLedger where
  cert : CertState
  gov : Option ConwayGovState

structure CertDecoders where
  decodeConwayCerts : Bytes → Except Codec.CodecError (List ConwayCert)
  decodeCertificates : Bytes → Except Codec.CodecError (List Certificate)

def accumulateConwayCert (keyDeposit : Coin) (govEnv : Option GovCertEnv) (ledger : CertLedger)
    (indexed : ConwayCert × Nat) : Except LedgerError CertLedger := do
  let index := UInt16.ofNat indexed.2
  let outcome ← applyConwayCert ledger.cert indexed.1 ⟨keyDeposit, index⟩
  match ledger.gov with
  | some gov => return ⟨outcome.state, some (← applyConwayGovCert gov indexed.1 govEnv index)⟩
  | none => return ⟨outcome.state, none⟩

def accumulateConwayCerts (keyDeposit : Coin) (govEnv : Option GovCertEnv) (ledger : CertLedger)
    (indexed : List (ConwayCert × Nat)) : Except LedgerError CertLedger :=
  indexed.foldlM (accumulateConwayCert keyDeposit govEnv) ledger

def accumulateTxCerts (decoders : CertDecoders) (era : CardanoEra) (certBytes : Bytes)
    (ledger : CertLedger) (keyDeposit : Coin) (govEnv : Option GovCertEnv) :
    Except LedgerError CertLedger :=
  if era = .conway then do
    let certs ← (decoders.decodeConwayCerts certBytes).mapError .decoding
    accumulateConwayCerts keyDeposit govEnv ledger certs.zipIdx
  else do
    let certs ← (decoders.decodeCertificates certBytes).mapError .decoding
    let cert ← certs.zipIdx.foldlM (fun state indexed =>
      applyCert state indexed.1 keyDeposit (UInt16.ofNat indexed.2)) ledger.cert
    return ⟨cert, ledger.gov⟩

/-! ## Runs -/

inductive VoteAction where
  | transaction (certBytes : Bytes) (keyDeposit : Coin) (env : GovCertEnv)
  | reap (enteredEpoch : EpochNo)

/-- A rejected transaction takes no step. -/
inductive VoteStep (decoders : CertDecoders) : CertLedger → VoteAction → CertLedger → Prop
  | transaction {before after : CertLedger} {certBytes : Bytes} {keyDeposit : Coin}
      {env : GovCertEnv}
      (accepted : accumulateTxCerts decoders .conway certBytes before keyDeposit (some env) =
        .ok after) :
      VoteStep decoders before (.transaction certBytes keyDeposit env) after
  | reap (before : CertLedger) (enteredEpoch : EpochNo) :
      VoteStep decoders before (.reap enteredEpoch)
        { before with cert := applyPoolReap before.cert enteredEpoch }

/-- Every account that delegates its vote by a plain vote delegation is registered by then. -/
def VotersRegistered (decoders : CertDecoders) (before : CertLedger) : VoteAction → Prop
  | .transaction certBytes keyDeposit env =>
      ∀ certs, decoders.decodeConwayCerts certBytes = .ok certs →
        ∀ (earlier later : List (ConwayCert × Nat)) (credential : StakeCredential) (drep : DRep)
          (index : Nat) (reached : CertLedger),
          certs.zipIdx = earlier ++ (.voteDelegation credential drep, index) :: later →
          accumulateConwayCerts keyDeposit (some env) before earlier = .ok reached →
            credential ∈ reached.cert.delegation.registrations
  | .reap _ => True

/-- A vote delegation belongs to a registered account and names a registered DRep, or a predefined
one. -/
def VotesAnchored (delegation : DelegationState) (gov : ConwayGovState) : Prop :=
  ∀ (credential : StakeCredential) (drep : DRep), gov.voteDelegations[credential]? = some drep →
    credential ∈ delegation.registrations ∧
      ∀ target, drepCredential drep = some target → target ∈ gov.drepExpiry

def CertLedger.VotesAnchored (ledger : CertLedger) : Prop :=
  ∀ gov, ledger.gov = some gov → Ledger.VotesAnchored ledger.cert.delegation gov

end Ade.Ledger
