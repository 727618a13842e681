import Ade.Ledger.EpochBoundary
import Ade.Ledger.GovCert

/-! Freezing the ratification of the epoch just entered. -/

namespace Ade.Ledger
open Std Library

/-! ## The distributions -/

def depositsByReturnCredential (proposals : List GovActionState) :
    Except GovernanceTerminal (BTreeMap StakeCredential Coin) :=
  proposals.foldlM (fun deposits p =>
    match rewardAccountCredential p.returnAddr with
    | none => .error (.malformed p.actionId .returnAddrNotRewardAccount)
    | some cred => .ok (credit deposits cred p.deposit)) ∅

def addVoter (input : FrozenRatificationInput) (deposits : BTreeMap StakeCredential Coin)
    (distribution : BTreeMap DRep Coin) (voter : StakeCredential × DRep) :
    Except GovernanceTerminal (BTreeMap DRep Coin) :=
  if ¬ input.delegation.registrations.contains voter.1 then
    .error (.danglingVoteDelegation voter.1 .unregisteredAccount)
  else if (drepCredential voter.2).any fun target => ¬ input.gov.drepExpiry.contains target then
    .error (.danglingVoteDelegation voter.1 .unregisteredDRep)
  else
    let stake := saturatingAdd (saturatingAdd (amountOf input.utxoStake voter.1)
      (amountOf input.delegation.rewards voter.1)) (amountOf deposits voter.1)
    .ok (credit distribution voter.2 stake)

def deriveFrozenDRepDistribution (input : FrozenRatificationInput) :
    Except GovernanceTerminal (BTreeMap DRep Coin) := do
  let deposits ← depositsByReturnCredential input.gov.proposals
  input.gov.voteDelegations.toList.foldlM (addVoter input deposits) ∅

/-- A pool that is not in the distribution gets nothing. -/
def addReturningDeposit (delegations : BTreeMap StakeCredential PoolId)
    (distribution : BTreeMap PoolId Coin) (returning : StakeCredential × Coin) :
    BTreeMap PoolId Coin :=
  match delegations[returning.1]? with
  | some poolId =>
      if distribution.contains poolId then credit distribution poolId returning.2 else distribution
  | none => distribution

def deriveFrozenPoolDistribution (input : FrozenRatificationInput) :
    Except GovernanceTerminal (BTreeMap PoolId Coin) := do
  let staked := input.delegatedAtSnap.toList.foldl
    (fun distribution poolId => distribution.insertIfNew poolId 0) input.mark.poolStakes
  let deposits ← depositsByReturnCredential input.gov.proposals
  return deposits.toList.foldl (addReturningDeposit input.delegation.delegations) staked

/-! ## The decision -/

structure ExUnits where
  mem : UInt64
  steps : UInt64
deriving DecidableEq, Repr

structure EnactableParamUpdate where
  maxTxExUnits : Option ExUnits
  maxBlockExUnits : Option ExUnits
  minPoolCost : Option UInt64
  unsupportedFields : CanonicalFieldSet

/-- What the decision asks of the votes and of the bytes of an update. -/
structure RatificationRules where
  /-- `check_ratification` over the stake that `active_drep_stake_filtered` leaves. -/
  checkRatification : FrozenRatificationInput → BTreeMap DRep Coin → BTreeMap PoolId Coin →
    GovActionState → Bool
  enactableUpdateWithinBounds : Bytes → Bool
  decodeEnactableParamUpdate : Bytes → Option EnactableParamUpdate

def buildEnactedPparams (current : ProtocolParameters) (decoded : EnactableParamUpdate) :
    ProtocolParameters :=
  { current with
    maxTxExUnitsMem := (decoded.maxTxExUnits.map ExUnits.mem).getD current.maxTxExUnitsMem
    maxBlockExUnits := decoded.maxBlockExUnits.elim current.maxBlockExUnits fun units =>
      .bound units.mem units.steps
    minPoolCost := decoded.minPoolCost.getD current.minPoolCost }

/-- The steps of a block update against the current ones. -/
def checkBlockSteps (winner : GovActionId) (current : MaxBlockExUnits) (units : ExUnits) :
    Except GovernanceTerminal Unit :=
  match current with
  | .unversioned => .error (.unversionedStateOnEnactPath winner)
  | .bound _ steps =>
      if units.steps ≠ steps then .error (.unsupportedRatifiedAction winner .changedSteps ∅)
      else .ok ()

section
variable (rules : RatificationRules)

def buildParameterChangeEnactment (winner : GovActionState) (current : ProtocolParameters) :
    Except GovernanceTerminal EnactedParameterChange :=
  let unsupported {α : Type} (kind : UnsupportedActionKind) : Except GovernanceTerminal α :=
    .error (.unsupportedRatifiedAction winner.actionId kind ∅)
  match winner.govAction with
  | .parameterChange prevAction update _ =>
      if ¬ rules.enactableUpdateWithinBounds update then unsupported .oversizedUpdate
      else match rules.decodeEnactableParamUpdate update with
        | none => unsupported .malformedUpdate
        | some decoded =>
            if ¬ decoded.unsupportedFields.isEmpty then
              .error (.unsupportedRatifiedAction winner.actionId .unsupportedPParamField
                decoded.unsupportedFields)
            else if decoded.maxTxExUnits.isNone ∧ decoded.maxBlockExUnits.isNone then
              unsupported .noEnactableField
            else if decoded.maxTxExUnits.any fun units => units.steps ≠ current.maxTxExUnitsCpu then
              unsupported .changedSteps
            else do
              decoded.maxBlockExUnits.toList.forM
                (checkBlockSteps winner.actionId current.maxBlockExUnits)
              return { actionId := winner.actionId
                       supersededRoot := prevAction
                       pparams := buildEnactedPparams current decoded }
  | _ => unsupported .notParameterChange

/-- What the scan over the proposals has found so far. -/
structure RatificationScan where
  thresholdPassing : BTreeSet GovActionId
  candidates : List GovActionState

def lineageOk (root : PreviousPParamAction) (prevAction : Option GovActionId) : Bool :=
  match root with
  | .noPreviousAction => prevAction.isNone
  | .enacted root => prevAction = some root
  | .unversioned => false

def scanProposal (input : FrozenRatificationInput) (accepted : GovActionState → Bool)
    (scan : RatificationScan) (p : GovActionState) : Except GovernanceTerminal RatificationScan :=
  if p.govAction = .infoAction ∨ ¬ accepted p then .ok scan
  else match p.govAction with
    | .parameterChange prevAction _ _ =>
        if input.gov.prevPparamAction = .unversioned ∨
            input.pparams.maxBlockExUnits = .unversioned then
          .error (.unversionedStateOnEnactPath p.actionId)
        else .ok {
          thresholdPassing := scan.thresholdPassing.insert p.actionId
          candidates := if lineageOk input.gov.prevPparamAction prevAction then
              scan.candidates ++ [p]
            else scan.candidates }
    | _ => .error (.unsupportedRatifiedAction p.actionId .notParameterChange ∅)

/-- At most one action is enacted. -/
def selectEnacted (current : ProtocolParameters) :
    List GovActionState → Except GovernanceTerminal (Option EnactedParameterChange)
  | [] => .ok none
  | [winner] => return some (← buildParameterChangeEnactment rules winner current)
  | first :: _ => .error (.unsupportedRatifiedAction first.actionId .competingRatifiableActions ∅)

def checkUnchained (enacted : EnactedParameterChange) (thresholdPassing : BTreeSet GovActionId)
    (p : GovActionState) : Except GovernanceTerminal Unit :=
  match p.govAction with
  | .parameterChange prevAction _ _ =>
      if prevAction = some enacted.actionId ∧ thresholdPassing.contains p.actionId then
        .error (.unsupportedRatifiedAction p.actionId .chainedEnactment ∅)
      else .ok ()
  | _ => .ok ()

def decideRatification (input : FrozenRatificationInput) (drepDistribution : BTreeMap DRep Coin)
    (poolDistribution : BTreeMap PoolId Coin) :
    Except GovernanceTerminal RatificationDecision := do
  if input.gov.numDormant = .unversioned ∧ ¬ input.gov.drepExpiry.isEmpty then
    throw .dormantRequired
  let sorted := input.gov.proposals.mergeSort fun a b => (compare a.actionId b.actionId).isLE
  let accepted := rules.checkRatification input drepDistribution poolDistribution
  let scan ← sorted.foldlM (scanProposal input accepted) ⟨∅, []⟩
  let enacted ← selectEnacted rules input.pparams scan.candidates
  enacted.toList.forM fun enacted =>
    input.gov.proposals.forM (checkUnchained enacted scan.thresholdPassing)
  let winner := enacted.map EnactedParameterChange.actionId
  let expired := sorted.filter fun p => some p.actionId ≠ winner ∧ p.expiresAfter < input.epoch
  return { enacted, expired := ExtTreeSet.ofList (expired.map GovActionState.actionId) }

def UnenactableReason.fromTerminal : GovernanceTerminal → Except GovernanceTerminal UnenactableReason
  | .unsupportedRatifiedAction actionId kind keys => .ok (.unsupportedRatifiedAction actionId kind keys)
  | .unversionedStateOnEnactPath actionId => .ok (.unversionedStateOnEnactPath actionId)
  | .dormantRequired => .ok .dormantRequired
  | other => .error other

/-- A terminal of the decision itself is recorded; any other is raised. -/
def recordedOutcome :
    Except GovernanceTerminal RatificationDecision → Except GovernanceTerminal RatificationOutcome
  | .ok decision => .ok (.decided decision)
  | .error terminal => do return .unenactable (← UnenactableReason.fromTerminal terminal)

def ratifyFrozen (input : FrozenRatificationInput) :
    Except GovernanceTerminal RatificationRecord := do
  let drepDistribution ← deriveFrozenDRepDistribution input
  let poolDistribution ← deriveFrozenPoolDistribution input
  let outcome ← recordedOutcome (decideRatification rules input drepDistribution poolDistribution)
  return {
    frozenAt := input.epoch
    source := .frozen
    frozenProposals := ExtTreeSet.ofList (input.gov.proposals.map GovActionState.actionId)
    drepDistribution
    poolDistribution
    outcome }

end

end Ade.Ledger
