import Ade.Ledger.Ratification

/-! Proposals over whole runs: submitted in an epoch, removed at a boundary. -/

namespace Ade.Ledger
open Std Library

variable {Utxo : Type}

def GovActionState.withoutVotes (p : GovActionState) : GovActionState :=
  { p with committeeVotes := [], drepVotes := [], spoVotes := [] }

def proposalIds (proposals : List GovActionState) : List GovActionId :=
  proposals.map GovActionState.actionId

def DepositReturn.actionId : DepositReturn → GovActionId
  | toRewardAccount actionId _ _ | toTreasury actionId _ | noDeposit actionId => actionId

/-! ## Descent -/

/-- `child` is among the proposals and chains onto `parent`. -/
def ChainsOnto (proposals : List GovActionState) (child parent : GovActionId) : Prop :=
  ∃ p ∈ proposals, p.actionId = child ∧ govActionParent p.govAction = some parent

/-- An id is its own descendant. -/
def Descends (proposals : List GovActionState) : GovActionId → GovActionId → Prop :=
  Relation.ReflTransGen (ChainsOnto proposals)

/-- Another parameter change on the root that the winner supersedes. -/
def Competes (enacted : EnactedParameterChange) (p : GovActionState) : Prop :=
  p.actionId ≠ enacted.actionId ∧
    ∃ update policyHash, p.govAction = .parameterChange enacted.supersededRoot update policyHash

/-- What a decision removes: the expired and the competitors of the winner, all with their
descendants, and the winner. -/
inductive Leaves (decision : RatificationDecision) (proposals : List GovActionState)
    (id : GovActionId) : Prop
  | expired {root : GovActionId} (listed : root ∈ decision.expired)
      (descends : Descends proposals id root)
  | enacted {enacted : EnactedParameterChange} (won : decision.enacted = some enacted)
      (same : id = enacted.actionId)
  | pruned {enacted : EnactedParameterChange} (won : decision.enacted = some enacted)
      {sibling : GovActionState} (member : sibling ∈ proposals)
      (competes : Competes enacted sibling) (descends : Descends proposals id sibling.actionId)

/-! ## Runs -/

/-- The ledger, and what a run remembers of its proposals. -/
structure GovernanceHistory (Utxo : Type) where
  ledger : LedgerState Utxo
  submitted : List GovActionState
  /-- Every id ever used, also before the run. -/
  used : List GovActionId
  departed : List (RemovedProposal × DepositReturn)

/-- Within an epoch proposals are appended, and everything changes but the proposals, the record
and the enacted root. -/
structure InEpoch (before : LedgerState Utxo) (new : List GovActionState)
    (after : LedgerState Utxo) (gov gov' : ConwayGovState) : Prop where
  govBefore : before.govState = .authoritative (some gov)
  govAfter : after.govState = .authoritative (some gov')
  proposals : gov'.proposals.map GovActionState.withoutVotes =
    (gov.proposals ++ new).map GovActionState.withoutVotes
  ratification : gov'.ratification = gov.ratification
  prevPparamAction : gov'.prevPparamAction = gov.prevPparamAction
  era : after.era = before.era
  epoch : after.epochState.epoch = before.epochState.epoch

/-- The plan that the boundary into `newEpoch` applies. -/
def boundaryPlan (ledger : LedgerState Utxo) (newEpoch : EpochNo) :
    Except GovernanceTerminal (Option ConwayGovernanceEpochPlan) := do
  let cert ← ledger.certState.requireFull ledger.epochState.slot
  let gov ← ledger.govState.requireFull ledger.epochState.slot
  governancePlan ledger.era gov cert newEpoch

/-- The record was taken in another epoch, or over other proposals. -/
def GovernanceTerminal.DeniesRecord : GovernanceTerminal → Prop
  | ratificationRecordEpochMismatch _ _ | ratificationRecordProposalMissing _ => True
  | _ => False

inductive GovernanceAction where
  | inEpoch
  | boundary

inductive GovernanceStep (rules : RatificationRules) :
    GovernanceHistory Utxo → GovernanceAction → GovernanceHistory Utxo → Prop
  | inEpoch {before : GovernanceHistory Utxo} {after : LedgerState Utxo}
      {new : List GovActionState} {gov gov' : ConwayGovState}
      (changed : InEpoch before.ledger new after gov gov')
      (distinct : (proposalIds new).Nodup) (fresh : ∀ id ∈ proposalIds new, id ∉ before.used) :
      GovernanceStep rules before .inEpoch
        { before with
          ledger := after
          submitted := before.submitted ++ new
          used := before.used ++ proposalIds new }
  | boundary {before : GovernanceHistory Utxo} {after : LedgerState Utxo} {newEpoch : EpochNo}
      {registrationOverride : Option (BTreeMap StakeCredential Unit)}
      {boundaryBaseStake : Option BoundaryBaseStake} {activeSlotsPerEpoch : UInt64}
      {accounting : EpochBoundaryAccounting} {plan : ConwayGovernanceEpochPlan}
      (follows : newEpoch.toNat = before.ledger.epochState.epoch.toNat + 1)
      (planned : boundaryPlan before.ledger newEpoch = .ok (some plan))
      (crossed : applyEpochBoundaryWithRegistrations (ratifyFrozen rules) before.ledger newEpoch
        registrationOverride boundaryBaseStake activeSlotsPerEpoch = .ok (after, accounting)) :
      GovernanceStep rules before .boundary
        { before with
          ledger := after
          departed := before.departed ++ plan.removals.zip plan.depositReturns }

/-- A run starts where a boundary has just frozen its record. -/
structure GovernanceHistory.Starts (rules : RatificationRules) (history : GovernanceHistory Utxo)
    (gov : ConwayGovState) (input : FrozenRatificationInput) (record : RatificationRecord) :
    Prop where
  era : history.ledger.era = .conway
  tracked : history.ledger.govState = .authoritative (some gov)
  recorded : gov.ratification = .recorded record
  frozen : ratifyFrozen rules input = .ok record
  epoch : input.epoch = history.ledger.epochState.epoch
  proposals : input.gov.proposals = gov.proposals
  root : input.gov.prevPparamAction = gov.prevPparamAction
  distinct : (proposalIds gov.proposals).Nodup
  submitted : history.submitted = gov.proposals
  departed : history.departed = []
  usedIds : ∀ id ∈ proposalIds gov.proposals, id ∈ history.used
  usedRoot : ∀ id, gov.prevPparamAction = .enacted id →
    id ∈ history.used ∧ id ∉ proposalIds gov.proposals

/-- The boundary that ends the epoch removes what its decision says, each with its full deposit,
and keeps the rest in order. -/
structure RemovesExactly (gov : ConwayGovState) (plan : ConwayGovernanceEpochPlan)
    (decision : RatificationDecision) : Prop where
  carried : plan.proposals.Sublist gov.proposals
  kept : ∀ p ∈ gov.proposals, p ∈ plan.proposals ↔ ¬ Leaves decision gov.proposals p.actionId
  removed : ∀ id, id ∈ plan.removals.map RemovedProposal.actionId ↔
    id ∈ proposalIds gov.proposals ∧ Leaves decision gov.proposals id
  returned : List.Forall₂ (fun removal returned => ∃ p ∈ gov.proposals,
    p.actionId = removal.actionId ∧ returned.actionId = p.actionId ∧
      returned.amount = p.deposit.toNat) plan.removals plan.depositReturns
  /-- The winner's own children stay, unless they descend from an expired proposal. -/
  children : ∀ enacted, decision.enacted = some enacted → ∀ child ∈ gov.proposals,
    govActionParent child.govAction = some enacted.actionId →
      (child ∈ plan.proposals ↔ ¬ ∃ root ∈ decision.expired,
        Descends gov.proposals child.actionId root)

/-- Every proposal ever submitted is in the set, or has left it once, with its full deposit. -/
structure GovernanceHistory.Accounted (history : GovernanceHistory Utxo) (gov : ConwayGovState) :
    Prop where
  once : (proposalIds gov.proposals ++ history.departed.map fun entry => entry.1.actionId).Perm
    (proposalIds history.submitted)
  distinct : (proposalIds history.submitted).Nodup
  deposits : ∀ entry ∈ history.departed, ∃ p ∈ history.submitted,
    p.actionId = entry.1.actionId ∧ entry.2.actionId = p.actionId ∧
      entry.2.amount = p.deposit.toNat

end Ade.Ledger
