import Ade.Rollback.Materialize

namespace Ade.Proof.Rollback
open Std (ExtTreeMap)
open Library Ade.ChainDb Ade.Consensus Ade.Rollback

variable {Ledger Failure : Type} {rules : Rules Ledger Failure} {origin : Origin Ledger}

/-! ## Chains of admissions -/

/-- The state after the newest block of a chain. -/
def stateOf (origin : Origin Ledger) : List (Admission Ledger) → Ledger × PraosChainDepState
  | [] => (origin.ledger, overlay origin.recoveredEta0 origin.chainDep)
  | newest :: _ => (newest.ledger, newest.chainDep)

def slotOf (origin : Origin Ledger) : List (Admission Ledger) → SlotNo
  | [] => origin.slot
  | newest :: _ => newest.block.slot

inductive Linked (rules : Rules Ledger Failure) (origin : Origin Ledger) :
    List (Admission Ledger) → Prop
  | nil : Linked rules origin []
  | cons {newest : Admission Ledger} {chain : List (Admission Ledger)}
      (accepted : rules.validate (stateOf origin chain).1 (stateOf origin chain).2
        newest.block.bytes = .ok (newest.ledger, newest.chainDep))
      (later : slotOf origin chain < newest.block.slot)
      (settled : Settled origin newest.chainDep) (below : Linked rules origin chain) :
      Linked rules origin (newest :: chain)

/-- The blocks of a chain determine the states recorded with them. -/
theorem linked_unique {chain other : List (Admission Ledger)} (linked : Linked rules origin chain)
    (otherLinked : Linked rules origin other)
    (same : chain.map Admission.block = other.map Admission.block) : chain = other := by
  induction linked generalizing other with
  | nil =>
      cases otherLinked with
      | nil => rfl
      | cons => cases same
  | @cons newest chain accepted later settled below ih =>
      cases otherLinked with
      | nil => cases same
      | @cons otherNewest other otherAccepted otherLater otherSettled otherBelow =>
          simp only [List.map_cons, List.cons.injEq] at same
          obtain rfl := ih otherBelow same.2
          rw [← same.1, accepted] at otherAccepted
          cases newest
          cases otherNewest
          simp_all

theorem slot_le_slotOf {chain : List (Admission Ledger)} (linked : Linked rules origin chain)
    {admission : Admission Ledger} (member : admission ∈ chain) :
    admission.block.slot ≤ slotOf origin chain := by
  induction linked with
  | nil => cases member
  | cons accepted later settled below ih =>
      rcases List.mem_cons.mp member with rfl | member
      · exact UInt64.le_refl _
      · exact UInt64.le_trans (ih member) (UInt64.le_of_lt later)

theorem linked_descending {chain : List (Admission Ledger)} (linked : Linked rules origin chain) :
    chain.Pairwise fun newer older => older.block.slot < newer.block.slot := by
  induction linked with
  | nil => exact .nil
  | cons accepted later settled below ih =>
      apply List.Pairwise.cons _ ih
      intro older member
      exact UInt64.lt_of_le_of_lt (slot_le_slotOf below member) later

theorem linked_of_append {above chain : List (Admission Ledger)}
    (linked : Linked rules origin (above ++ chain)) : Linked rules origin chain := by
  induction above with
  | nil => exact linked
  | cons newest above ih =>
      cases linked with
      | cons accepted later settled below => exact ih below

/-! ## The part of a chain up to a slot -/

def upTo (slot : SlotNo) (chain : List (Admission Ledger)) : List (Admission Ledger) :=
  chain.filter fun admission => admission.block.slot ≤ slot

theorem mem_upTo {slot : SlotNo} {chain : List (Admission Ledger)} {admission : Admission Ledger} :
    admission ∈ upTo slot chain ↔ admission ∈ chain ∧ admission.block.slot ≤ slot := by
  simp [upTo]

theorem upTo_self {chain : List (Admission Ledger)} (linked : Linked rules origin chain)
    {slot : SlotNo} (reached : slotOf origin chain ≤ slot) : upTo slot chain = chain := by
  apply List.filter_eq_self.mpr
  intro admission member
  exact decide_eq_true (UInt64.le_trans (slot_le_slotOf linked member) reached)

theorem upTo_cons_above {newest : Admission Ledger} {slot : SlotNo}
    (above : slot < newest.block.slot) (chain : List (Admission Ledger)) :
    upTo slot (newest :: chain) = upTo slot chain := by
  apply List.filter_cons_of_neg
  simpa using above

theorem linked_upTo {chain : List (Admission Ledger)} (linked : Linked rules origin chain)
    (slot : SlotNo) : Linked rules origin (upTo slot chain) := by
  induction linked with
  | nil => exact .nil
  | @cons newest chain accepted later settled below ih =>
      by_cases reached : newest.block.slot ≤ slot
      · have whole := Linked.cons accepted later settled below
        rw [upTo_self whole reached]
        exact whole
      · rw [upTo_cons_above (UInt64.not_le.mp reached)]
        exact ih

theorem upTo_append {above below : List (Admission Ledger)} {target : Admission Ledger}
    (linked : Linked rules origin (above ++ target :: below)) :
    upTo target.block.slot (above ++ target :: below) = target :: below := by
  induction above with
  | nil => exact upTo_self linked (UInt64.le_refl _)
  | cons newest above ih =>
      have higher : target.block.slot < newest.block.slot := by
        apply List.rel_of_pairwise_cons (linked_descending linked)
        exact List.mem_append_right _ (List.mem_cons_self ..)
      cases linked with
      | cons accepted later settled rest =>
          rw [List.cons_append, upTo_cons_above higher]
          exact ih rest

theorem stateOf_upTo {chain : List (Admission Ledger)} (linked : Linked rules origin chain)
    {target : Admission Ledger} (member : target ∈ chain) :
    stateOf origin (upTo target.block.slot chain) = (target.ledger, target.chainDep) := by
  obtain ⟨above, below, rfl⟩ := List.append_of_mem member
  rw [upTo_append linked]
  rfl

/-- The admissions after one slot and up to another. -/
def segment (after upper : SlotNo) (chain : List (Admission Ledger)) : List (Admission Ledger) :=
  chain.filter fun admission => after < admission.block.slot ∧ admission.block.slot ≤ upper

theorem mem_segment {after upper : SlotNo} {chain : List (Admission Ledger)}
    {admission : Admission Ledger} :
    admission ∈ segment after upper chain ↔
      admission ∈ chain ∧ after < admission.block.slot ∧ admission.block.slot ≤ upper := by
  simp [segment]

theorem upTo_split {chain : List (Admission Ledger)} (linked : Linked rules origin chain)
    {after upper : SlotNo} (ordered : after ≤ upper) :
    upTo upper chain = segment after upper chain ++ upTo after chain := by
  induction linked with
  | nil => rfl
  | @cons newest chain accepted later settled below ih =>
      by_cases low : newest.block.slot ≤ after
      · have whole := Linked.cons accepted later settled below
        have empty : segment after upper (newest :: chain) = [] := by
          apply List.eq_nil_iff_forall_not_mem.mpr
          intro admission member
          obtain ⟨listed, higher, -⟩ := Iff.mp mem_segment member
          have lower := UInt64.le_trans (slot_le_slotOf whole listed) low
          exact UInt64.not_le.mpr higher lower
        rw [empty, upTo_self whole (UInt64.le_trans low ordered), upTo_self whole low]
        rfl
      · have higher := UInt64.not_le.mp low
        rw [upTo_cons_above higher]
        by_cases reached : newest.block.slot ≤ upper
        · simp only [upTo, segment, higher, reached, List.filter_cons_of_pos, and_self,
            decide_true, List.cons_append] at ih ⊢
          rw [ih]
        · rw [upTo_cons_above (UInt64.not_le.mp reached), ih]
          simp [segment, reached]

end Ade.Proof.Rollback
