import Ade.Library.OrderedMap

/-!
# Changes to an ordered map

A map with a list of changes applied to it, and the three ways to read the result without building
it: look a key up, count, and merge the two lists of bindings.
-/

namespace Ade.Library.Overlay
open Std Library

variable {K V : Type}

/-- A new value for a key, or its removal. -/
abbrev Change (K V : Type) := K × Option V

def live (change : Change K V) : List (K × V) := (change.2.map (change.1, ·)).toList

theorem mem_live {change : Change K V} {entry : K × V} :
    entry ∈ live change ↔ (entry.1, some entry.2) = change := by
  obtain ⟨key, slot⟩ := change
  obtain ⟨k, v⟩ := entry
  cases slot <;> simp [live]

variable [Ord K]

def Ordered {W : Type} (entries : List (K × W)) : Prop :=
  entries.Pairwise fun a b => compare a.1 b.1 = .lt

theorem ordered_live_append {change : Change K V} {entries : List (K × V)}
    (ordered : Ordered entries) (above : ∀ entry ∈ entries, compare change.1 entry.1 = .lt) :
    Ordered (live change ++ entries) := by
  obtain ⟨key, slot⟩ := change
  cases slot with
  | none => exact ordered
  | some value => exact List.pairwise_cons.mpr ⟨above, ordered⟩

variable [TransOrd K]

def applyChange (m : BTreeMap K V) (change : Change K V) : BTreeMap K V :=
  match change.2 with
  | some value => m.insert change.1 value
  | none => m.erase change.1

/-- The size after a change to a key not changed before; `none` where it would underflow. -/
def countChange (anchor : BTreeMap K V) (n : Nat) (change : Change K V) : Option Nat :=
  match change.2, anchor.contains change.1 with
  | some _, false => some (n + 1)
  | none, true => if n = 0 then none else some (n - 1)
  | _, _ => some n

def merge : List (K × V) → List (Change K V) → List (K × V)
  | [], [] => []
  | binding :: bindings, [] => binding :: merge bindings []
  | [], change :: changes => live change ++ merge [] changes
  | binding :: bindings, change :: changes =>
      match compare binding.1 change.1 with
      | .lt => binding :: merge bindings (change :: changes)
      | .gt => live change ++ merge (binding :: bindings) changes
      | .eq => live change ++ merge bindings changes
termination_by bindings changes => bindings.length + changes.length

theorem ordered_toList {W : Type} (m : BTreeMap K W) : Ordered m.toList := m.ordered_keys_toList

theorem ne_of_compare_lt {a b : K} (less : compare a b = .lt) : a ≠ b := by
  rintro rfl
  rw [ReflOrd.compare_self] at less
  cases less

theorem Ordered.key_ne {W : Type} {entry : K × W} {entries : List (K × W)}
    (ordered : Ordered (entry :: entries)) {other : K × W} (member : other ∈ entries) :
    entry.1 ≠ other.1 :=
  ne_of_compare_lt ((List.pairwise_cons.mp ordered).1 other member)

theorem Ordered.below {W : Type} {k : K} {entry : K × W} {entries : List (K × W)}
    (ordered : Ordered (entry :: entries)) (first : compare k entry.1 = .lt) :
    ∀ other ∈ entry :: entries, compare k other.1 = .lt := by
  intro other member
  rcases List.mem_cons.mp member with rfl | later
  · exact first
  · exact TransCmp.lt_trans first ((List.pairwise_cons.mp ordered).1 other later)

theorem countChange_eq_size {anchor m : BTreeMap K V} {change : Change K V}
    (untouched : m[change.1]? = anchor[change.1]?) :
    countChange anchor m.size change = some (applyChange m change).size := by
  obtain ⟨key, slot⟩ := change
  have sameKeys : anchor.contains key = m.contains key := by
    rw [Bool.eq_iff_iff, ExtTreeMap.contains_iff_mem, ExtTreeMap.contains_iff_mem,
      ExtTreeMap.mem_iff_isSome_getElem?, ExtTreeMap.mem_iff_isSome_getElem?, untouched]
  unfold countChange applyChange
  rw [sameKeys]
  cases slot with
  | some value =>
      cases present : m.contains key with
      | false => simp [ExtTreeMap.size_insert, present]
      | true => simp [ExtTreeMap.size_insert, present]
  | none =>
      cases present : m.contains key with
      | false => simp [ExtTreeMap.size_erase, present]
      | true =>
          have inhabited : m.size ≠ 0 := by
            intro empty
            rw [ExtTreeMap.eq_empty_iff_size_eq_zero.mpr empty] at present
            simp at present
          simp [ExtTreeMap.size_erase, present, inhabited]

variable [LawfulEqOrd K] [DecidableEq K]

theorem getElem?_applyChange (m : BTreeMap K V) (change : Change K V) (k : K) :
    (applyChange m change)[k]? = if change.1 = k then change.2 else m[k]? := by
  obtain ⟨key, slot⟩ := change
  cases slot with
  | none => exact BTreeMap.getElem?_erase m key k
  | some value => exact BTreeMap.getElem?_insert m key k value

/-- Changes that miss a key leave it alone. -/
theorem getElem?_foldl_of_unchanged {changes : List (Change K V)} {k : K}
    (unchanged : ∀ change ∈ changes, change.1 ≠ k) (m : BTreeMap K V) :
    (changes.foldl applyChange m)[k]? = m[k]? := by
  induction changes generalizing m with
  | nil => rfl
  | cons change changes ih =>
      rw [List.foldl_cons, ih fun other member => unchanged other (List.mem_cons_of_mem _ member),
        getElem?_applyChange, if_neg (unchanged change (List.mem_cons_self ..))]

theorem getElem?_foldl_of_changed {changes : List (Change K V)} (ordered : Ordered changes)
    {change : Change K V} (member : change ∈ changes) (m : BTreeMap K V) :
    (changes.foldl applyChange m)[change.1]? = change.2 := by
  induction changes generalizing m with
  | nil => cases member
  | cons head changes ih =>
      rw [List.foldl_cons]
      rcases List.mem_cons.mp member with rfl | later
      · rw [getElem?_foldl_of_unchanged fun other listed => (ordered.key_ne listed).symm,
          getElem?_applyChange, if_pos rfl]
      · exact ih (List.pairwise_cons.mp ordered).2 later _

/-- Looking a key up in the changed map: the change if there is one, else what was there. -/
theorem getElem?_foldl (anchor : BTreeMap K V) (overlay : BTreeMap K (Option V)) (k : K) :
    (overlay.toList.foldl applyChange anchor)[k]? = (overlay[k]?).getD anchor[k]? := by
  cases changed : overlay[k]? with
  | none =>
      apply getElem?_foldl_of_unchanged
      intro change member same
      rw [BTreeMap.mem_toList, same, changed] at member
      cases member
  | some slot =>
      have member : (k, slot) ∈ overlay.toList := BTreeMap.mem_toList.mpr changed
      exact getElem?_foldl_of_changed (ordered_toList overlay) member anchor

/-! ## Counting -/

theorem foldlM_countChange {anchor m : BTreeMap K V} {changes : List (Change K V)}
    (ordered : Ordered changes)
    (untouched : ∀ change ∈ changes, m[change.1]? = anchor[change.1]?) :
    changes.foldlM (countChange anchor) m.size = some (changes.foldl applyChange m).size := by
  induction changes generalizing m with
  | nil => rfl
  | cons change changes ih =>
      rw [List.foldlM_cons, countChange_eq_size (untouched change (List.mem_cons_self ..)),
        List.foldl_cons]
      apply ih (List.pairwise_cons.mp ordered).2
      intro other member
      rw [getElem?_applyChange, if_neg (ordered.key_ne member)]
      exact untouched other (List.mem_cons_of_mem _ member)

/-! ## Merging -/

omit [DecidableEq K] in
theorem mem_merge {bindings : List (K × V)} {changes : List (Change K V)}
    (orderedBindings : Ordered bindings) (orderedChanges : Ordered changes) {entry : K × V} :
    entry ∈ merge bindings changes ↔ (entry.1, some entry.2) ∈ changes ∨
      (entry ∈ bindings ∧ ∀ change ∈ changes, change.1 ≠ entry.1) := by
  fun_induction merge bindings changes with
  | case1 => simp
  | case2 binding bindings ih =>
      rw [List.mem_cons, ih (List.pairwise_cons.mp orderedBindings).2 orderedChanges]
      simp
  | case3 change changes ih =>
      rw [List.mem_append, mem_live, ih orderedBindings (List.pairwise_cons.mp orderedChanges).2]
      simp
  | case4 binding bindings change changes below ih =>
      have fresh : ∀ other ∈ change :: changes, other.1 ≠ binding.1 := fun other member =>
        (ne_of_compare_lt (orderedChanges.below below other member)).symm
      rw [List.mem_cons, ih (List.pairwise_cons.mp orderedBindings).2 orderedChanges,
        List.mem_cons (b := binding)]
      constructor
      · rintro (rfl | changed | ⟨bound, unchanged⟩)
        · exact .inr ⟨.inl rfl, fresh⟩
        · exact .inl changed
        · exact .inr ⟨.inr bound, unchanged⟩
      · rintro (changed | ⟨rfl | bound, unchanged⟩)
        · exact .inr (.inl changed)
        · exact .inl rfl
        · exact .inr (.inr ⟨bound, unchanged⟩)
  | case5 binding bindings change changes above ih =>
      have less : compare change.1 binding.1 = .lt := OrientedCmp.gt_iff_lt.mp above
      have fresh : ∀ other ∈ binding :: bindings, change.1 ≠ other.1 := fun other member =>
        ne_of_compare_lt (orderedBindings.below less other member)
      rw [List.mem_append, mem_live, ih orderedBindings (List.pairwise_cons.mp orderedChanges).2,
        List.mem_cons (b := change), List.forall_mem_cons]
      constructor
      · rintro (changed | changed | ⟨bound, unchanged⟩)
        · exact .inl (.inl changed)
        · exact .inl (.inr changed)
        · exact .inr ⟨bound, fresh entry bound, unchanged⟩
      · rintro ((changed | changed) | ⟨bound, -, unchanged⟩)
        · exact .inl changed
        · exact .inr (.inl changed)
        · exact .inr (.inr ⟨bound, unchanged⟩)
  | case6 binding bindings change changes equal ih =>
      have same : binding.1 = change.1 := LawfulEqOrd.compare_eq_iff_eq.mp equal
      have fresh : ∀ other ∈ bindings, change.1 ≠ other.1 := fun other member =>
        same ▸ orderedBindings.key_ne member
      rw [List.mem_append, mem_live, ih (List.pairwise_cons.mp orderedBindings).2
        (List.pairwise_cons.mp orderedChanges).2, List.mem_cons (b := change),
        List.mem_cons (b := binding), List.forall_mem_cons]
      constructor
      · rintro (changed | changed | ⟨bound, unchanged⟩)
        · exact .inl (.inl changed)
        · exact .inl (.inr changed)
        · exact .inr ⟨.inr bound, fresh entry bound, unchanged⟩
      · rintro ((changed | changed) | ⟨rfl | bound, other, unchanged⟩)
        · exact .inl changed
        · exact .inr (.inl changed)
        · exact absurd same.symm other
        · exact .inr (.inr ⟨bound, unchanged⟩)

theorem merge_above {k : K} {bindings : List (K × V)} {changes : List (Change K V)}
    (orderedBindings : Ordered bindings) (orderedChanges : Ordered changes)
    (bindingsAbove : ∀ binding ∈ bindings, compare k binding.1 = .lt)
    (changesAbove : ∀ change ∈ changes, compare k change.1 = .lt) :
    ∀ entry ∈ merge bindings changes, compare k entry.1 = .lt := by
  intro entry member
  rcases (mem_merge orderedBindings orderedChanges).mp member with changed | ⟨bound, -⟩
  · exact changesAbove _ changed
  · exact bindingsAbove entry bound

theorem ordered_merge {bindings : List (K × V)} {changes : List (Change K V)}
    (orderedBindings : Ordered bindings) (orderedChanges : Ordered changes) :
    Ordered (merge bindings changes) := by
  fun_induction merge bindings changes with
  | case1 => exact .nil
  | case2 binding bindings ih =>
      obtain ⟨above, rest⟩ := List.pairwise_cons.mp orderedBindings
      exact List.pairwise_cons.mpr
        ⟨merge_above rest orderedChanges above (by simp), ih rest orderedChanges⟩
  | case3 change changes ih =>
      obtain ⟨above, rest⟩ := List.pairwise_cons.mp orderedChanges
      exact ordered_live_append (ih orderedBindings rest)
        (merge_above orderedBindings rest (by simp) above)
  | case4 binding bindings change changes below ih =>
      obtain ⟨above, rest⟩ := List.pairwise_cons.mp orderedBindings
      exact List.pairwise_cons.mpr ⟨merge_above rest orderedChanges above
        (orderedChanges.below below), ih rest orderedChanges⟩
  | case5 binding bindings change changes greater ih =>
      obtain ⟨above, rest⟩ := List.pairwise_cons.mp orderedChanges
      exact ordered_live_append (ih orderedBindings rest) (merge_above orderedBindings rest
        (orderedBindings.below (OrientedCmp.gt_iff_lt.mp greater)) above)
  | case6 binding bindings change changes equal ih =>
      have same : binding.1 = change.1 := LawfulEqOrd.compare_eq_iff_eq.mp equal
      obtain ⟨aboveBinding, restBindings⟩ := List.pairwise_cons.mp orderedBindings
      obtain ⟨aboveChange, restChanges⟩ := List.pairwise_cons.mp orderedChanges
      exact ordered_live_append (ih restBindings restChanges)
        (merge_above restBindings restChanges (same ▸ aboveBinding) aboveChange)

/-- The merge lists the changed map. -/
theorem merge_eq_toList (anchor : BTreeMap K V) (overlay : BTreeMap K (Option V)) :
    merge anchor.toList overlay.toList = (overlay.toList.foldl applyChange anchor).toList := by
  symm
  apply BTreeMap.toList_eq_of_ordered
    (ordered_merge (ordered_toList anchor) (ordered_toList overlay))
  rintro ⟨k, v⟩
  rw [mem_merge (ordered_toList anchor) (ordered_toList overlay), getElem?_foldl,
    BTreeMap.mem_toList, BTreeMap.mem_toList]
  cases changed : overlay[k]? with
  | none =>
      have unchanged : ∀ change ∈ overlay.toList, change.1 ≠ k := by
        intro change member same
        rw [BTreeMap.mem_toList, same, changed] at member
        cases member
      rw [Option.getD_none]
      constructor
      · intro found
        exact .inr ⟨found, unchanged⟩
      · rintro (found | ⟨found, -⟩)
        · cases found
        · exact found
  | some slot =>
      have listed : (k, slot) ∈ overlay.toList := BTreeMap.mem_toList.mpr changed
      constructor
      · intro found
        exact .inl (by simpa [changed] using found)
      · rintro (found | ⟨-, unchanged⟩)
        · simpa [changed] using found
        · exact absurd rfl (unchanged _ listed)

end Ade.Library.Overlay
