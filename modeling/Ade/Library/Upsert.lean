import Mathlib

/-!
# Entries that a later write replaces

A list of keys with values, where writing to a key that is there replaces its value and writing to
any other key appends; and the last item of a log that has a property.
-/

namespace Ade.Library

section
variable {K V : Type} [DecidableEq K]

def upsert (key : K) (value : V) : List (K × V) → List (K × V)
  | [] => [(key, value)]
  | entry :: entries =>
      if entry.1 = key then (entry.1, value) :: entries else entry :: upsert key value entries

theorem lookup_upsert [BEq K] [LawfulBEq K] (key other : K) (value : V) (entries : List (K × V)) :
    (upsert key value entries).lookup other =
      if other = key then some value else entries.lookup other := by
  induction entries with
  | nil =>
      rw [upsert, List.lookup_cons, List.lookup_nil]
      split_ifs with same
      · rw [same, beq_self_eq_true]
      · rw [beq_false_of_ne same]
  | cons entry entries ih =>
      unfold upsert
      split_ifs with here same same
      · rw [List.lookup_cons, same, here, beq_self_eq_true]
      · have elsewhere : (other == entry.1) = false := beq_false_of_ne (here ▸ same)
        rw [List.lookup_cons, List.lookup_cons, elsewhere]
      · have elsewhere : (other == entry.1) = false := beq_false_of_ne (same ▸ Ne.symm here)
        rw [List.lookup_cons, elsewhere, ih, if_pos same]
      · rw [List.lookup_cons, List.lookup_cons, ih, if_neg same]

theorem keys_upsert (key : K) (value : V) (entries : List (K × V)) :
    (upsert key value entries).map Prod.fst =
      if key ∈ entries.map Prod.fst then entries.map Prod.fst
      else entries.map Prod.fst ++ [key] := by
  induction entries with
  | nil => simp [upsert]
  | cons entry entries ih =>
      unfold upsert
      by_cases here : entry.1 = key
      · rw [if_pos here, List.map_cons, List.map_cons, if_pos (here ▸ List.mem_cons_self ..)]
      · rw [if_neg here, List.map_cons, List.map_cons, ih]
        by_cases later : key ∈ entries.map Prod.fst
        · rw [if_pos later, if_pos (List.mem_cons_of_mem _ later)]
        · have absent : key ∉ entry.1 :: entries.map Prod.fst :=
            List.not_mem_cons_of_ne_of_not_mem (Ne.symm here) later
          rw [if_neg later, if_neg absent, List.cons_append]

theorem nodup_keys_upsert (key : K) (value : V) {entries : List (K × V)}
    (distinct : (entries.map Prod.fst).Nodup) : ((upsert key value entries).map Prod.fst).Nodup := by
  rw [keys_upsert]
  split_ifs with present
  · exact distinct
  · exact List.nodup_append.mpr ⟨distinct, List.nodup_singleton key,
      fun other member last single => (List.mem_singleton.mp single) ▸
        fun same => present (same ▸ member)⟩

end

/-! ## Logs -/

section
variable {α : Type}

def latest (p : α → Bool) (log : List α) : Option α := log.reverse.find? p

theorem latest_append (p : α → Bool) (earlier later : List α) :
    latest p (earlier ++ later) = (latest p later).or (latest p earlier) := by
  rw [latest, List.reverse_append, List.find?_append]
  rfl

@[simp] theorem latest_nil (p : α → Bool) : latest p [] = none := rfl

theorem latest_singleton (p : α → Bool) (item : α) :
    latest p [item] = if p item then some item else none := by
  rw [latest, List.reverse_singleton, List.find?_singleton]

end

end Ade.Library
