import Mathlib

/-!
# The most preferred item of a list

A comparison orders keys and `.lt` means preferred. Of equally preferred items the first one stays.
-/

namespace Ade.Library
open Std

variable {α κ : Type} (cmp : κ → κ → Ordering) (key : α → κ)

def prefer (best candidate : α) : α :=
  if cmp (key candidate) (key best) = .lt then candidate else best

variable {cmp} in
theorem isLE_of_not_lt [OrientedCmp cmp] {a b : κ} (notLess : cmp a b ≠ .lt) : (cmp b a).isLE := by
  by_contra worse
  exact notLess (OrientedCmp.lt_of_not_isLE worse)

theorem prefer_assoc [TransCmp cmp] (first second third : α) :
    prefer cmp key (prefer cmp key first second) third =
      prefer cmp key first (prefer cmp key second third) := by
  unfold prefer
  by_cases second_first : cmp (key second) (key first) = .lt
  · by_cases third_second : cmp (key third) (key second) = .lt
    · have third_first := TransCmp.lt_trans third_second second_first
      simp [second_first, third_second, third_first]
    · simp [second_first, third_second]
  · by_cases third_first : cmp (key third) (key first) = .lt
    · -- The second item is no better than the first, so the third beats it as well.
      have first_second := isLE_of_not_lt second_first
      have third_second := TransCmp.lt_of_lt_of_isLE third_first first_second
      simp [second_first, third_first, third_second]
    · by_cases third_second : cmp (key third) (key second) = .lt
      · simp [second_first, third_first, third_second]
      · simp [second_first, third_first, third_second]

theorem foldl_prefer_assoc [TransCmp cmp] (first second : α) (rest : List α) :
    rest.foldl (prefer cmp key) (prefer cmp key first second) =
      prefer cmp key first (rest.foldl (prefer cmp key) second) := by
  have assoc : Std.Associative (prefer cmp key) := ⟨prefer_assoc cmp key⟩
  exact List.foldl_assoc

theorem prefer_isLE [TransCmp cmp] (best candidate : α) :
    (cmp (key (prefer cmp key best candidate)) (key best)).isLE ∧
      (cmp (key (prefer cmp key best candidate)) (key candidate)).isLE := by
  unfold prefer
  split_ifs with better
  · exact ⟨Ordering.isLE_of_eq_lt better, ReflCmp.isLE_rfl⟩
  · exact ⟨ReflCmp.isLE_rfl, isLE_of_not_lt better⟩

/-- Either the first item stays or a strictly better one of the others replaces it. -/
theorem foldl_prefer_cases [TransCmp cmp] (first : α) (rest : List α) :
    rest.foldl (prefer cmp key) first = first ∨
      rest.foldl (prefer cmp key) first ∈ rest ∧
        cmp (key (rest.foldl (prefer cmp key) first)) (key first) = .lt := by
  induction rest generalizing first with
  | nil => exact .inl rfl
  | cons next rest ih =>
      rw [List.foldl_cons]
      by_cases better : cmp (key next) (key first) = .lt
      · have replaced : prefer cmp key first next = next := if_pos better
        rw [replaced]
        rcases ih next with same | ⟨member, less⟩
        · rw [same]
          exact .inr ⟨List.mem_cons_self .., better⟩
        · exact .inr ⟨List.mem_cons_of_mem _ member, TransCmp.lt_trans less better⟩
      · have kept : prefer cmp key first next = first := if_neg better
        rw [kept]
        rcases ih first with same | ⟨member, less⟩
        · exact .inl same
        · exact .inr ⟨List.mem_cons_of_mem _ member, less⟩

theorem foldl_prefer_isLE [TransCmp cmp] (first : α) (rest : List α) :
    ∀ item ∈ first :: rest, (cmp (key (rest.foldl (prefer cmp key) first)) (key item)).isLE := by
  induction rest generalizing first with
  | nil =>
      intro item member
      rw [List.mem_singleton.mp member]
      exact ReflCmp.isLE_rfl
  | cons next rest ih =>
      intro item member
      obtain ⟨overFirst, overNext⟩ := prefer_isLE cmp key first next
      have best := ih (prefer cmp key first next)
      rw [List.foldl_cons]
      rcases List.mem_cons.mp member with rfl | member
      · exact TransCmp.isLE_trans (best _ (List.mem_cons_self ..)) overFirst
      · rcases List.mem_cons.mp member with rfl | member
        · exact TransCmp.isLE_trans (best _ (List.mem_cons_self ..)) overNext
        · exact best item (List.mem_cons_of_mem _ member)

section Reordering

variable [TransCmp cmp] [LawfulEqCmp cmp] (first : α) {rest permuted : List α}

/-- The key of the winner does not depend on the order of the others. -/
theorem key_foldl_prefer_perm (reordered : rest.Perm permuted) :
    key (permuted.foldl (prefer cmp key) first) = key (rest.foldl (prefer cmp key) first) := by
  have among : ∀ items : List α, items.foldl (prefer cmp key) first ∈ first :: items := by
    intro items
    rcases foldl_prefer_cases cmp key first items with same | ⟨member, -⟩
    · rw [same]
      exact List.mem_cons_self ..
    · exact List.mem_cons_of_mem _ member
  have whole := reordered.cons first
  have below := foldl_prefer_isLE cmp key first permuted _ (whole.mem_iff.mp (among rest))
  have above := foldl_prefer_isLE cmp key first rest _ (whole.mem_iff.mpr (among permuted))
  exact LawfulEqCmp.eq_of_compare (OrientedCmp.isLE_antisymm below above)

theorem foldl_prefer_perm (reordered : rest.Perm permuted)
    (distinct : ∀ a ∈ rest, ∀ b ∈ rest, key a = key b → a = b) :
    permuted.foldl (prefer cmp key) first = rest.foldl (prefer cmp key) first := by
  have sameKey := key_foldl_prefer_perm cmp key first reordered
  have self : cmp (key first) (key first) = .eq := ReflCmp.compare_self
  rcases foldl_prefer_cases cmp key first permuted with kept | ⟨member, less⟩
  · rcases foldl_prefer_cases cmp key first rest with kept' | ⟨-, less'⟩
    · rw [kept, kept']
    · rw [← sameKey, kept, self] at less'
      cases less'
  · rcases foldl_prefer_cases cmp key first rest with kept' | ⟨member', -⟩
    · rw [sameKey, kept', self] at less
      cases less
    · exact distinct _ (reordered.mem_iff.mpr member) _ member' sameKey

end Reordering

end Ade.Library
