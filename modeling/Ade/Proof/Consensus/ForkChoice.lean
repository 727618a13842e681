import Ade.Library.Preference
import Ade.Consensus.ForkChoice

namespace Ade.Proof.Consensus
open Std (TransCmp LawfulEqCmp LawfulEqOrd ReflCmp)
open Library Ade.Consensus

/-! ## The preference order -/

def selectViewOrder (a b : BlockNo × TiebreakerView) : Ordering :=
  compareSelectView a.1 a.2 b.1 b.2

/-- Five keys in turn, of which the block number and the counter descend. -/
theorem selectViewOrder_eq_lex : selectViewOrder =
    compareLex (fun a b => compareOn Prod.fst b a)
      (compareLex (compareOn fun view => view.2.slot)
        (compareLex (compareOn fun view => view.2.issuerHash)
          (compareLex (fun a b => compareOn (fun view => view.2.opCertCounter) b a)
            (compareOn fun view => view.2.leaderVrfOutputFirst8)))) := by
  funext a b
  unfold selectViewOrder compareSelectView tiebreakerPrefer compareLex compareOn Ordering.then
  rfl

instance : TransCmp selectViewOrder := by
  rw [selectViewOrder_eq_lex]
  infer_instance

theorem selectViewOrder_eq_eq {a b : BlockNo × TiebreakerView} (same : selectViewOrder a b = .eq) :
    a = b := by
  rw [selectViewOrder_eq_lex] at same
  simp only [compareLex_eq_eq, compareOn, LawfulEqOrd.compare_eq_iff_eq] at same
  obtain ⟨blockNo, slot, issuer, counter, vrf⟩ := same
  rcases a with ⟨aBlockNo, aSlot, aIssuer, aCounter, aVrf⟩
  rcases b with ⟨bBlockNo, bSlot, bIssuer, bCounter, bVrf⟩
  simp only at blockNo slot issuer counter vrf
  rw [blockNo, slot, issuer, counter, vrf]

instance : LawfulEqCmp selectViewOrder where
  compare_self := ReflCmp.compare_self
  eq_of_compare := selectViewOrder_eq_eq

/-! ## One call -/

def viewOf (candidate : EligibleCandidate) : BlockNo × TiebreakerView :=
  (candidate.tipBlockNo, candidate.tipTiebreaker)

theorem betterCandidate_eq_prefer : betterCandidate = prefer selectViewOrder viewOf := rfl

def current (state : ChainSelectorState) : EligibleCandidate :=
  ⟨state.currentTipBlockNo, state.currentTiebreaker, state.currentTip⟩

def moveTo (state : ChainSelectorState) (candidate : EligibleCandidate) : ChainSelectorState :=
  { state with
    currentTip := candidate.tipPoint
    currentTipBlockNo := candidate.tipBlockNo
    currentTiebreaker := candidate.tipTiebreaker }

@[simp] theorem moveTo_current (state : ChainSelectorState) : moveTo state (current state) = state :=
  rfl

@[simp] theorem current_moveTo (state : ChainSelectorState) (candidate : EligibleCandidate) :
    current (moveTo state candidate) = candidate := rfl

@[simp] theorem moveTo_moveTo (state : ChainSelectorState) (first second : EligibleCandidate) :
    moveTo (moveTo state first) second = moveTo state second := rfl

/-- Eligibility does not look at the current tip. -/
@[simp] theorem eligibleCandidates_moveTo (state : ChainSelectorState) (candidate : EligibleCandidate)
    (candidates : List CandidateFragment) :
    eligibleCandidates (moveTo state candidate) candidates = eligibleCandidates state candidates :=
  rfl

theorem adopt_eq_prefer (state : ChainSelectorState) (best : EligibleCandidate) :
    (adopt state best).1 = moveTo state (prefer selectViewOrder viewOf (current state) best) := by
  unfold adopt prefer
  split_ifs with adopted better better
  · rfl
  · exact absurd adopted better
  · exact absurd better adopted
  · rfl

theorem ineligible_of_not_eligible {state : ChainSelectorState} {candidates : List CandidateFragment}
    (noneEligible : eligibleCandidates state candidates = [])
    (noneIneligible : ineligibleCandidates state candidates = []) : candidates = [] := by
  cases candidates with
  | nil => rfl
  | cons c candidates =>
      cases part : partitionCandidate state c with
      | ok eligible => simp [eligibleCandidates, part, Except.toOption] at noneEligible
      | error reject => simp [ineligibleCandidates, part] at noneIneligible

theorem selectBestChain_ok {state : ChainSelectorState} {candidates : List CandidateFragment}
    (nonempty : candidates ≠ []) :
    ∃ event, selectBestChain state candidates = .ok
      (moveTo state ((eligibleCandidates state candidates).foldl betterCandidate (current state)),
        event) := by
  have notEmpty : candidates.isEmpty = false := by simpa using nonempty
  unfold selectBestChain
  rw [notEmpty]
  simp only [Bool.false_eq_true, if_false]
  cases eligible : eligibleCandidates state candidates with
  | cons first rest =>
      refine ⟨(adopt state (rest.foldl betterCandidate first)).2, ?_⟩
      rw [List.foldl_cons, betterCandidate_eq_prefer, foldl_prefer_assoc, ← adopt_eq_prefer]
  | nil =>
      cases ineligible : ineligibleCandidates state candidates with
      | nil => exact absurd (ineligible_of_not_eligible eligible ineligible) nonempty
      | cons first rest => exact ⟨_, rfl⟩

/-- The first best of the current tip and the eligible candidates. -/
theorem stateAfter_eq (state : ChainSelectorState) (candidates : List CandidateFragment) :
    stateAfter state candidates =
      moveTo state ((eligibleCandidates state candidates).foldl betterCandidate (current state)) := by
  by_cases empty : candidates = []
  · subst empty
    rfl
  · obtain ⟨event, returned⟩ := selectBestChain_ok empty
    unfold stateAfter
    rw [returned]

/-! ## Arrival order -/

theorem eligibleCandidates_cons (state : ChainSelectorState) (c : CandidateFragment)
    (candidates : List CandidateFragment) :
    eligibleCandidates state (c :: candidates) =
      eligibleCandidates state [c] ++ eligibleCandidates state candidates := by
  unfold eligibleCandidates
  rw [← List.filterMap_append]
  rfl

theorem stateAfter_cons (state : ChainSelectorState) (c : CandidateFragment)
    (candidates : List CandidateFragment) :
    stateAfter (stateAfter state [c]) candidates = stateAfter state (c :: candidates) := by
  rw [stateAfter_eq state, stateAfter_eq, stateAfter_eq]
  simp only [eligibleCandidates_moveTo, current_moveTo, moveTo_moveTo]
  rw [eligibleCandidates_cons state c candidates, List.foldl_append]

theorem fold_eq_stateAfter (state : ChainSelectorState) (candidates : List CandidateFragment) :
    candidates.foldlM (fun selector c => (selectBestChain selector [c]).map Prod.fst) state =
      .ok (stateAfter state candidates) := by
  induction candidates generalizing state with
  | nil => rfl
  | cons c candidates ih =>
      obtain ⟨event, returned⟩ := @selectBestChain_ok state [c] (List.cons_ne_nil c [])
      rw [← stateAfter_eq] at returned
      rw [List.foldlM_cons, returned, ← stateAfter_cons state c candidates]
      exact ih (stateAfter state [c])

/-- No two eligible candidates have the same block number and tiebreaker with different tips. -/
def DistinctTips (state : ChainSelectorState) (candidates : List CandidateFragment) : Prop :=
  ∀ first ∈ eligibleCandidates state candidates, ∀ second ∈ eligibleCandidates state candidates,
    first.tipBlockNo = second.tipBlockNo → first.tipTiebreaker = second.tipTiebreaker →
      first.tipPoint = second.tipPoint

theorem eq_of_distinctTips {state : ChainSelectorState} {candidates : List CandidateFragment}
    (distinct : DistinctTips state candidates) :
    ∀ first ∈ eligibleCandidates state candidates, ∀ second ∈ eligibleCandidates state candidates,
      viewOf first = viewOf second → first = second := by
  intro first firstMember second secondMember same
  obtain ⟨blockNo, tiebreaker⟩ := Prod.mk.inj same
  have point := distinct first firstMember second secondMember blockNo tiebreaker
  cases first
  cases second
  simp_all

/-- Candidates one at a time or all at once, in any order: the selector ends with the same view, and
in the same state when equal views mean equal tips. It moves only to a strictly preferred tip. -/
theorem selectBestChain_arrival_order (state : ChainSelectorState)
    (candidates : List CandidateFragment) :
    (candidates.foldlM (fun selector c => (selectBestChain selector [c]).map Prod.fst) state =
        .ok (stateAfter state candidates) ∧
      (candidates ≠ [] → ∃ event,
        selectBestChain state candidates = .ok (stateAfter state candidates, event))) ∧
    (∀ permuted, candidates.Perm permuted →
      (stateAfter state permuted).currentTipBlockNo =
          (stateAfter state candidates).currentTipBlockNo ∧
        (stateAfter state permuted).currentTiebreaker =
          (stateAfter state candidates).currentTiebreaker ∧
        (DistinctTips state candidates →
          stateAfter state permuted = stateAfter state candidates)) ∧
    (stateAfter state candidates).immutableTip = state.immutableTip ∧
    (stateAfter state candidates).immutableTipBlockNo = state.immutableTipBlockNo ∧
    (stateAfter state candidates).securityParam = state.securityParam ∧
    (stateAfter state candidates = state ∨
      compareSelectView (stateAfter state candidates).currentTipBlockNo
        (stateAfter state candidates).currentTiebreaker state.currentTipBlockNo
        state.currentTiebreaker = .lt) := by
  refine ⟨⟨fold_eq_stateAfter state candidates, ?_⟩, ?_, ?_⟩
  · intro nonempty
    rw [stateAfter_eq]
    exact selectBestChain_ok nonempty
  · intro permuted reordered
    have eligible : (eligibleCandidates state candidates).Perm (eligibleCandidates state permuted) :=
      reordered.filterMap _
    have sameView := key_foldl_prefer_perm selectViewOrder viewOf (current state) eligible
    obtain ⟨blockNo, tiebreaker⟩ := Prod.mk.inj sameView
    rw [stateAfter_eq, stateAfter_eq, betterCandidate_eq_prefer]
    refine ⟨blockNo, tiebreaker, fun distinct => ?_⟩
    rw [foldl_prefer_perm selectViewOrder viewOf (current state) eligible
      (eq_of_distinctTips distinct)]
  · rw [stateAfter_eq, betterCandidate_eq_prefer]
    refine ⟨rfl, rfl, rfl, ?_⟩
    rcases foldl_prefer_cases selectViewOrder viewOf (current state)
        (eligibleCandidates state candidates) with kept | ⟨-, better⟩
    · rw [kept]
      exact .inl rfl
    · exact .inr better

end Ade.Proof.Consensus
