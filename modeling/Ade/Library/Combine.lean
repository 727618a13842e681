import Ade.Library.Except
import Ade.Library.OrderedMap

/-! # Tables combined entry by entry

The entries of one table are worked into another. An absent key starts at a default value. -/

namespace Ade.Library
open Std

variable {K V W ε : Type} [Ord K] [TransOrd K]

def combineEntry (default : V) (combine : K → V → W → Except ε V) (table : BTreeMap K V)
    (entry : K × W) : Except ε (BTreeMap K V) := do
  return table.insert entry.1 (← combine entry.1 (table[entry.1]?.getD default) entry.2)

def combineAll (default : V) (combine : K → V → W → Except ε V) (table : BTreeMap K V)
    (entries : BTreeMap K W) : Except ε (BTreeMap K V) :=
  entries.toList.foldlM (combineEntry default combine) table

/-- What the combined table holds under one key. -/
def Combined (default : V) (combine : K → V → W → Except ε V) (key : K) (before : Option V)
    (entry : Option W) (after : Option V) : Prop :=
  match entry with
  | none => after = before
  | some amount => ∃ value, combine key (before.getD default) amount = .ok value ∧ after = some value

variable [LawfulEqOrd K] [DecidableEq K] {default : V} {combine : K → V → W → Except ε V}

theorem foldlM_combineEntry {entries : List (K × W)} {lookup : K → Option W}
    (distinct : (entries.map Prod.fst).Nodup)
    (listed : ∀ key amount, lookup key = some amount ↔ (key, amount) ∈ entries)
    {table result : BTreeMap K V} :
    entries.foldlM (combineEntry default combine) table = .ok result ↔
      ∀ key, Combined default combine key table[key]? (lookup key) result[key]? := by
  induction entries generalizing lookup table with
  | nil =>
      have absent : ∀ key, lookup key = none := by
        intro key
        cases found : lookup key with
        | none => rfl
        | some amount => cases (listed key amount).mp found
      simp only [Combined, absent]
      constructor
      · intro same
        cases same
        exact fun key => rfl
      · intro same
        exact congrArg _ (ExtTreeMap.ext_getElem? fun {key} => (same key).symm)
  | cons entry entries ih =>
      obtain ⟨fresh, distinct⟩ := List.nodup_cons.mp distinct
      have rest : ∀ key amount, (if key = entry.1 then none else lookup key) = some amount ↔
          (key, amount) ∈ entries := by
        intro key amount
        split_ifs with first
        · constructor
          · exact fun found => nomatch found
          · intro member
            exact absurd (first ▸ List.mem_map_of_mem member) fresh
        · rw [listed, List.mem_cons]
          constructor
          · rintro (rfl | member)
            · exact absurd rfl first
            · exact member
          · exact .inr
      have here : lookup entry.1 = some entry.2 := (listed _ _).mpr (List.mem_cons_self ..)
      rw [List.foldlM_cons, bind_eq_ok]
      constructor
      · rintro ⟨next, stepped, ran⟩ key
        obtain ⟨value, combined, same⟩ := bind_ok stepped
        cases same
        have later := (ih distinct rest).mp ran key
        by_cases first : key = entry.1
        · subst first
          rw [if_pos rfl, BTreeMap.getElem?_insert, if_pos rfl] at later
          rw [here]
          exact ⟨value, combined, later⟩
        · rw [if_neg first, BTreeMap.getElem?_insert, if_neg (Ne.symm first)] at later
          exact later
      · intro holds
        have first := holds entry.1
        rw [here] at first
        obtain ⟨value, combined, stored⟩ := first
        refine ⟨table.insert entry.1 value, ?_, (ih distinct rest).mpr fun key => ?_⟩
        · rw [combineEntry, combined]
          rfl
        · rw [BTreeMap.getElem?_insert]
          by_cases same : key = entry.1
          · subst same
            rw [if_pos rfl, if_pos rfl]
            exact stored
          · rw [if_neg (Ne.symm same), if_neg same]
            exact holds key

theorem combineAll_eq_ok {table result : BTreeMap K V} {entries : BTreeMap K W} :
    combineAll default combine table entries = .ok result ↔
      ∀ key, Combined default combine key table[key]? entries[key]? result[key]? := by
  apply foldlM_combineEntry
  · rw [ExtTreeMap.map_fst_toList_eq_keys]
    exact ExtTreeMap.nodup_keys
  · intro key amount
    exact (@BTreeMap.mem_toList K W _ _ _ entries (key, amount)).symm

/-- A combination that fails does so at an entry, on what the table held from the start. -/
theorem foldlM_combineEntry_error {entries : List (K × W)}
    (distinct : (entries.map Prod.fst).Nodup) {table : BTreeMap K V} {failure : ε}
    (failed : entries.foldlM (combineEntry default combine) table = .error failure) :
    ∃ entry ∈ entries, combine entry.1 (table[entry.1]?.getD default) entry.2 = .error failure := by
  induction entries generalizing table with
  | nil => cases failed
  | cons entry entries ih =>
      obtain ⟨fresh, distinct⟩ := List.nodup_cons.mp distinct
      rw [List.foldlM_cons] at failed
      cases combined : combine entry.1 (table[entry.1]?.getD default) entry.2 with
      | error reason =>
          rw [combineEntry, combined] at failed
          cases failed
          exact ⟨entry, List.mem_cons_self .., combined⟩
      | ok value =>
          rw [combineEntry, combined] at failed
          obtain ⟨other, member, refused⟩ := ih distinct failed
          have different : entry.1 ≠ other.1 := fun same =>
            fresh (same ▸ List.mem_map_of_mem member)
          rw [BTreeMap.getElem?_insert, if_neg different] at refused
          exact ⟨other, List.mem_cons_of_mem _ member, refused⟩

theorem combineAll_error {table : BTreeMap K V} {entries : BTreeMap K W} {failure : ε}
    (failed : combineAll default combine table entries = .error failure) :
    ∃ key amount, entries[key]? = some amount ∧
      combine key (table[key]?.getD default) amount = .error failure := by
  have distinct : (entries.toList.map Prod.fst).Nodup := by
    rw [ExtTreeMap.map_fst_toList_eq_keys]
    exact ExtTreeMap.nodup_keys
  obtain ⟨entry, member, refused⟩ := foldlM_combineEntry_error distinct failed
  exact ⟨entry.1, entry.2, BTreeMap.mem_toList.mp member, refused⟩

end Ade.Library
