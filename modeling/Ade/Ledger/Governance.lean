import Ade.Ledger.State

/-! Applying a frozen ratification to the proposals current at the boundary. -/

namespace Ade.Ledger
open Std Library

inductive RemovalCause where
  | enacted | prunedByEnactment | expired
deriving DecidableEq, Repr

structure RemovedProposal where
  actionId : GovActionId
  cause : RemovalCause
deriving DecidableEq, Repr

inductive DepositReturn where
  | toRewardAccount (actionId : GovActionId) (credential : StakeCredential) (amount : Coin)
  | toTreasury (actionId : GovActionId) (amount : Coin)
  | noDeposit (actionId : GovActionId)
deriving DecidableEq, Repr

inductive PParamsDelta where
  | unchanged
  | set (pparams : ProtocolParameters)
deriving DecidableEq

inductive PrevPParamActionDelta where
  | unchanged
  | set (actionId : GovActionId)
deriving DecidableEq, Repr

structure ConwayGovernanceEpochPlan where
  proposals : List GovActionState
  removals : List RemovedProposal
  depositReturns : List DepositReturn
  pparams : PParamsDelta
  prevPparamAction : PrevPParamActionDelta
deriving DecidableEq

def govActionParent : GovAction → Option GovActionId
  | .parameterChange prevAction _ _ | .hardForkInitiation prevAction _ | .noConfidence prevAction
  | .updateCommittee prevAction _ _ _ | .newConstitution prevAction _ => prevAction
  | .treasuryWithdrawals _ _ | .infoAction => none

/-! ## Descendants -/

def closeProposal (pass : BTreeSet GovActionId × Bool) (p : GovActionState) :
    BTreeSet GovActionId × Bool :=
  if pass.1.contains p.actionId then pass
  else if (govActionParent p.govAction).any pass.1.contains then (pass.1.insert p.actionId, true)
  else pass

def closePass (proposals : List GovActionState) (removed : BTreeSet GovActionId) :
    BTreeSet GovActionId × Bool :=
  proposals.foldl closeProposal (removed, false)

def remaining (proposals : List GovActionState) (removed : BTreeSet GovActionId) : Nat :=
  (proposals.filter fun p => ¬ removed.contains p.actionId).length

theorem closeProposal_subset (pass : BTreeSet GovActionId × Bool) (p : GovActionState) :
    ∀ id ∈ pass.1, id ∈ (closeProposal pass p).1 := by
  intro id member
  unfold closeProposal
  split_ifs
  · exact member
  · exact ExtTreeSet.mem_insert.mpr (.inr member)
  · exact member

theorem foldl_closeProposal_subset (proposals : List GovActionState)
    (pass : BTreeSet GovActionId × Bool) :
    ∀ id ∈ pass.1, id ∈ (proposals.foldl closeProposal pass).1 := by
  induction proposals generalizing pass with
  | nil => exact fun id member => member
  | cons p proposals ih =>
      exact fun id member => ih (closeProposal pass p) id (closeProposal_subset pass p id member)

/-- A pass that reports an addition has taken in a proposal. -/
theorem foldl_closeProposal_added {proposals : List GovActionState}
    {pass : BTreeSet GovActionId × Bool} (quiet : pass.2 = false)
    (added : (proposals.foldl closeProposal pass).2 = true) :
    ∃ p ∈ proposals, p.actionId ∉ pass.1 ∧
      p.actionId ∈ (proposals.foldl closeProposal pass).1 := by
  induction proposals generalizing pass with
  | nil =>
      rw [List.foldl_nil, quiet] at added
      cases added
  | cons p proposals ih =>
      rw [List.foldl_cons] at added ⊢
      by_cases taken : p.actionId ∈ (closeProposal pass p).1 ∧ p.actionId ∉ pass.1
      · exact ⟨p, List.mem_cons_self .., taken.2, foldl_closeProposal_subset _ _ _ taken.1⟩
      · have same : closeProposal pass p = pass := by
          unfold closeProposal at taken ⊢
          split_ifs at taken ⊢ with listed descends
          · rfl
          · exact absurd ⟨ExtTreeSet.mem_insert.mpr (.inl ReflOrd.compare_self),
              fun member => listed (ExtTreeSet.contains_iff_mem.mpr member)⟩ taken
          · rfl
        rw [same] at added ⊢
        obtain ⟨other, member, fresh, closed⟩ := ih quiet added
        exact ⟨other, List.mem_cons_of_mem _ member, fresh, closed⟩

theorem remaining_closePass {proposals : List GovActionState} {removed : BTreeSet GovActionId}
    (added : (closePass proposals removed).2 = true) :
    remaining proposals (closePass proposals removed).1 < remaining proposals removed := by
  obtain ⟨p, member, fresh, closed⟩ := foldl_closeProposal_added rfl added
  have narrowed : (proposals.filter fun p => ¬ (closePass proposals removed).1.contains p.actionId) =
      (proposals.filter fun p => ¬ removed.contains p.actionId).filter
        fun p => ¬ (closePass proposals removed).1.contains p.actionId := by
    rw [List.filter_filter]
    apply List.filter_congr
    intro other _
    have kept := foldl_closeProposal_subset proposals (removed, false) other.actionId
    by_cases before : other.actionId ∈ removed
    · simp [closePass, kept before, before]
    · simp [before]
  unfold remaining
  rw [narrowed, List.length_filter_lt_length_iff_exists]
  exact ⟨p, List.mem_filter.mpr ⟨member, by simpa using fresh⟩, by simpa [closePass] using closed⟩

/-- Repeats the pass over the proposals until it adds nothing. -/
def closeOverDescendants (proposals : List GovActionState) (removed : BTreeSet GovActionId) :
    BTreeSet GovActionId :=
  if _added : (closePass proposals removed).2 = true then
    closeOverDescendants proposals (closePass proposals removed).1
  else (closePass proposals removed).1
termination_by remaining proposals removed
decreasing_by exact remaining_closePass _added

/-! ## The decision -/

def isSibling (enacted : EnactedParameterChange) (expired : BTreeSet GovActionId)
    (p : GovActionState) : Bool :=
  if p.actionId = enacted.actionId ∨ expired.contains p.actionId then false
  else match p.govAction with
    | .parameterChange prevAction _ _ => prevAction = enacted.supersededRoot
    | _ => false

def prunedBy (enacted : EnactedParameterChange) (proposals : List GovActionState)
    (expired : BTreeSet GovActionId) : BTreeSet GovActionId :=
  let siblings := (proposals.filter (isSibling enacted expired)).map GovActionState.actionId
  let closed := closeOverDescendants proposals (expired.insertMany siblings)
  closed.filter fun id => ¬ expired.contains id

def routeDeposit (isRegistered : StakeCredential → Bool) (p : GovActionState) :
    Except GovernanceTerminal DepositReturn :=
  if p.deposit = 0 then .ok (.noDeposit p.actionId)
  else match rewardAccountCredential p.returnAddr with
    | some cred =>
        if isRegistered cred then .ok (.toRewardAccount p.actionId cred p.deposit)
        else .ok (.toTreasury p.actionId p.deposit)
    | none => .error (.malformed p.actionId .returnAddrNotRewardAccount)

def removalCause (winner : Option GovActionId) (expired pruned : BTreeSet GovActionId)
    (p : GovActionState) : Option RemovalCause :=
  if expired.contains p.actionId then some .expired
  else if winner = some p.actionId then some .enacted
  else if pruned.contains p.actionId then some .prunedByEnactment
  else none

def requirePresent (proposals : List GovActionState) (id : GovActionId) :
    Except GovernanceTerminal Unit :=
  if proposals.any fun p => p.actionId = id then .ok ()
  else .error (.ratificationRecordProposalMissing id)

def applyDecision (decision : RatificationDecision) (currentProposals : List GovActionState)
    (isRegistered : StakeCredential → Bool) :
    Except GovernanceTerminal ConwayGovernanceEpochPlan := do
  let winner := decision.enacted.map EnactedParameterChange.actionId
  (decision.expired.toList ++ winner.toList).forM (requirePresent currentProposals)
  let expired := closeOverDescendants currentProposals decision.expired
  let pruned := decision.enacted.elim ∅ fun enacted => prunedBy enacted currentProposals expired
  let sorted := currentProposals.mergeSort fun a b => (compare a.actionId b.actionId).isLE
  let removed := sorted.filterMap fun p =>
    (removalCause winner expired pruned p).map fun cause => (p, cause)
  let depositReturns ← removed.mapM fun entry => routeDeposit isRegistered entry.1
  return {
    proposals := currentProposals.filter fun p =>
      ¬ removed.any fun entry => entry.1.actionId = p.actionId
    removals := removed.map fun entry => ⟨entry.1.actionId, entry.2⟩
    depositReturns
    pparams := decision.enacted.elim .unchanged fun enacted => .set enacted.pparams
    prevPparamAction := decision.enacted.elim .unchanged fun enacted => .set enacted.actionId }

/-! ## The record -/

def UnenactableReason.terminal : UnenactableReason → GovernanceTerminal
  | unsupportedRatifiedAction actionId kind keys => .unsupportedRatifiedAction actionId kind keys
  | unversionedStateOnEnactPath actionId => .unversionedStateOnEnactPath actionId
  | dormantRequired => .dormantRequired

def applyRatificationRecord (record : RatificationRecord) (newEpoch : EpochNo)
    (currentProposals : List GovActionState) (isRegisteredNow : StakeCredential → Bool) :
    Except GovernanceTerminal ConwayGovernanceEpochPlan :=
  if checkedAdd record.frozenAt 1 ≠ some newEpoch then
    .error (.ratificationRecordEpochMismatch record.frozenAt newEpoch)
  else match record.outcome with
    | .decided decision => applyDecision decision currentProposals isRegisteredNow
    | .unenactable reason => .error reason.terminal

end Ade.Ledger
