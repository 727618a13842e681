import Mathlib

/-!
# Ordered finite maps

An ordered map with extensional equality. Iteration order is key order, so a loop over a map is
a fold over its list of bindings.
-/

namespace Ade.Library
open Std

abbrev BTreeMap (K V : Type) [Ord K] := ExtTreeMap K V compare

abbrev BTreeSet (K : Type) [Ord K] := ExtTreeSet K compare

namespace BTreeMap

variable {K V : Type} [Ord K] [TransOrd K] [LawfulEqOrd K]

theorem getElem?_insert (m : BTreeMap K V) (k a : K) (v : V) [DecidableEq K] :
    (m.insert k v)[a]? = if k = a then some v else m[a]? := by
  simp only [ExtTreeMap.getElem?_insert, LawfulEqOrd.compare_eq_iff_eq]

theorem getElem?_erase (m : BTreeMap K V) (k a : K) [DecidableEq K] :
    (m.erase k)[a]? = if k = a then none else m[a]? := by
  simp only [ExtTreeMap.getElem?_erase, LawfulEqOrd.compare_eq_iff_eq]

theorem mem_insert {m : BTreeMap K V} {k a : K} {v : V} : a ∈ m.insert k v ↔ k = a ∨ a ∈ m := by
  rw [ExtTreeMap.mem_insert, LawfulEqOrd.compare_eq_iff_eq]

theorem mem_erase {m : BTreeMap K V} {k a : K} : a ∈ m.erase k ↔ k ≠ a ∧ a ∈ m := by
  rw [ExtTreeMap.mem_erase, Ne, Ne, LawfulEqOrd.compare_eq_iff_eq]

theorem getElem?_foldl_erase [DecidableEq K] (keys : List K) (m : BTreeMap K V) (a : K) :
    (keys.foldl (fun table key => table.erase key) m)[a]? = if a ∈ keys then none else m[a]? := by
  induction keys generalizing m with
  | nil => simp
  | cons key keys ih =>
      rw [List.foldl_cons, ih, getElem?_erase]
      by_cases same : key = a
      · subst same
        simp
      · have other : ¬ a = key := fun equal => same equal.symm
        simp [same, other]

theorem mem_foldl_erase [DecidableEq K] {keys : List K} {m : BTreeMap K V} {a : K} :
    a ∈ keys.foldl (fun table key => table.erase key) m ↔ a ∉ keys ∧ a ∈ m := by
  rw [ExtTreeMap.mem_iff_isSome_getElem?, ExtTreeMap.mem_iff_isSome_getElem?, getElem?_foldl_erase]
  split_ifs with listed <;> simp [listed]

theorem map_insert [DecidableEq K] {W : Type} (f : K → V → W) (m : BTreeMap K V) (k : K) (v : V) :
    (m.insert k v).map f = (m.map f).insert k (f k v) := by
  apply ExtTreeMap.ext_getElem?
  intro a
  rw [ExtTreeMap.getElem?_map, getElem?_insert, getElem?_insert, ExtTreeMap.getElem?_map]
  by_cases same : k = a
  · simp [same]
  · simp [same]

theorem mem_toList {m : BTreeMap K V} {entry : K × V} :
    entry ∈ m.toList ↔ m[entry.1]? = some entry.2 :=
  ExtTreeMap.mem_toList_iff_getElem?_eq_some

theorem nodup_toList (m : BTreeMap K V) : m.toList.Nodup := by
  apply m.ordered_keys_toList.imp
  intro first second less same
  rw [same, ReflOrd.compare_self] at less
  cases less

theorem toList_insert_perm [DecidableEq K] {m : BTreeMap K V} {k : K} (fresh : k ∉ m) (v : V) :
    (m.insert k v).toList.Perm ((k, v) :: m.toList) := by
  have absent : m[k]? = none := ExtTreeMap.getElem?_eq_none fresh
  have unlisted : (k, v) ∉ m.toList := by
    intro member
    rw [mem_toList, absent] at member
    cases member
  rw [List.perm_ext_iff_of_nodup (nodup_toList _) (List.nodup_cons.mpr ⟨unlisted, nodup_toList m⟩)]
  rintro ⟨a, w⟩
  rw [mem_toList, List.mem_cons, mem_toList, getElem?_insert]
  by_cases same : k = a
  · subst same
    simp [absent, eq_comm]
  · have other : a ≠ k := fun equal => same equal.symm
    simp [same, other]

theorem toList_perm_erase [DecidableEq K] {m : BTreeMap K V} {k : K} {v : V}
    (found : m[k]? = some v) : m.toList.Perm ((k, v) :: (m.erase k).toList) := by
  have restored : (m.erase k).insert k v = m := by
    apply ExtTreeMap.ext_getElem?
    intro a
    rw [getElem?_insert, getElem?_erase]
    by_cases same : k = a
    · rw [if_pos same, ← same, found]
    · rw [if_neg same, if_neg same]
  have fresh : k ∉ m.erase k := fun member => (Iff.mp mem_erase member).1 rfl
  have listed := toList_insert_perm fresh v
  rw [restored] at listed
  exact listed

theorem mem_keys {m : BTreeMap K V} {k : K} : k ∈ m.keys ↔ (m[k]?).isSome := by
  rw [ExtTreeMap.mem_keys, ExtTreeMap.mem_iff_isSome_getElem?]

/-- The key list is the ordered list of what the map contains. -/
theorem keys_eq_of_ordered {m : BTreeMap K V} {keys : List K}
    (ordered : keys.Pairwise (fun a b => compare a b = .lt)) (same : ∀ k, k ∈ m ↔ k ∈ keys) :
    m.keys = keys := by
  have antisymm : Std.Antisymm (fun a b : K => compare a b = .lt) :=
    ⟨fun a b below above => absurd above (by simp [OrientedCmp.gt_of_lt below])⟩
  have irrefl : Std.Irrefl (fun a b : K => compare a b = .lt) :=
    ⟨fun a below => by simp [ReflCmp.compare_self] at below⟩
  refine List.Pairwise.eq_of_mem_iff m.ordered_keys ordered fun k => ?_
  rw [ExtTreeMap.mem_keys, same]

theorem toList_eq_of_ordered {m : BTreeMap K V} {entries : List (K × V)}
    (ordered : entries.Pairwise fun a b => compare a.1 b.1 = .lt)
    (same : ∀ entry : K × V, m[entry.1]? = some entry.2 ↔ entry ∈ entries) : m.toList = entries := by
  have antisymm : Std.Antisymm (fun a b : K × V => compare a.1 b.1 = .lt) :=
    ⟨fun a b below above => absurd above (by simp [OrientedCmp.gt_of_lt below])⟩
  have irrefl : Std.Irrefl (fun a b : K × V => compare a.1 b.1 = .lt) :=
    ⟨fun a below => by simp [ReflCmp.compare_self] at below⟩
  refine List.Pairwise.eq_of_mem_iff m.ordered_keys_toList ordered fun entry => ?_
  rw [mem_toList, same]

theorem ofList_toList [DecidableEq K] (m : BTreeMap K V) : ExtTreeMap.ofList m.toList compare = m := by
  apply ExtTreeMap.ext_getElem?
  intro k
  cases found : m[k]? with
  | some v =>
      exact ExtTreeMap.getElem?_ofList_of_mem ReflCmp.compare_self ExtTreeMap.distinct_keys_toList
        (mem_toList.mpr found)
  | none =>
      apply ExtTreeMap.getElem?_ofList_of_contains_eq_false
      rw [ExtTreeMap.map_fst_toList_eq_keys]
      have absent : k ∉ m := by
        rw [ExtTreeMap.mem_iff_isSome_getElem?, found]
        exact Bool.false_ne_true
      simpa using absent

end BTreeMap

theorem BTreeSet.ofList_toList {K : Type} [Ord K] [TransOrd K] [LawfulEqOrd K] [DecidableEq K]
    (s : BTreeSet K) : ExtTreeSet.ofList s.toList compare = s := by
  apply ExtTreeSet.ext_mem
  intro k
  rw [ExtTreeSet.mem_ofList, List.contains_iff_mem, ExtTreeSet.mem_toList]

end Ade.Library
