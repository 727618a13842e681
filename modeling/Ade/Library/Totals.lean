import Ade.Library.Except
import Ade.Library.Machine
import Ade.Library.OrderedMap

/-! # Totals of tables of 64-bit amounts -/

namespace Ade.Library
open Std

variable {K : Type} [Ord K] [TransOrd K]

def total (table : BTreeMap K UInt64) : Nat :=
  (table.toList.map fun entry => entry.2.toNat).sum

def amountOf (table : BTreeMap K UInt64) (key : K) : UInt64 := (table[key]?).getD 0

def credit (table : BTreeMap K UInt64) (key : K) (amount : UInt64) : BTreeMap K UInt64 :=
  table.insert key (saturatingAdd (amountOf table key) amount)

@[simp] theorem total_empty : total (∅ : BTreeMap K UInt64) = 0 := rfl

variable [LawfulEqOrd K] [DecidableEq K]

theorem total_eq_erase {table : BTreeMap K UInt64} {key : K} {amount : UInt64}
    (found : table[key]? = some amount) :
    total table = amount.toNat + total (table.erase key) := by
  unfold total
  rw [((BTreeMap.toList_perm_erase found).map _).sum_eq, List.map_cons, List.sum_cons]

theorem total_erase_add (table : BTreeMap K UInt64) (key : K) :
    total (table.erase key) + (amountOf table key).toNat = total table := by
  unfold amountOf
  cases found : table[key]? with
  | none =>
      have same : table.erase key = table := by
        apply ExtTreeMap.ext_getElem?
        intro other
        rw [BTreeMap.getElem?_erase]
        split_ifs with equal
        · rw [← equal, found]
        · rfl
      rw [same]
      rfl
  | some amount =>
      rw [total_eq_erase found, Option.getD_some]
      exact Nat.add_comm _ _

theorem total_insert (table : BTreeMap K UInt64) (key : K) (amount : UInt64) :
    total (table.insert key amount) = amount.toNat + total (table.erase key) := by
  have found : (table.insert key amount)[key]? = some amount := ExtTreeMap.getElem?_insert_self
  have same : (table.insert key amount).erase key = table.erase key := by
    apply ExtTreeMap.ext_getElem?
    intro other
    rw [BTreeMap.getElem?_erase, BTreeMap.getElem?_erase, BTreeMap.getElem?_insert]
    split_ifs <;> rfl
  rw [total_eq_erase found, same]

/-- A credit that cannot saturate moves exactly its amount. -/
theorem total_credit {table : BTreeMap K UInt64} {key : K} {amount : UInt64}
    (fits : total table + amount.toNat < 2 ^ 64) :
    total (credit table key amount) = total table + amount.toNat := by
  have removed := total_erase_add table key
  rw [credit, total_insert, saturatingAdd_toNat (by omega)]
  omega

theorem sum_amountOf_le_total {keys : List K} (distinct : keys.Nodup)
    (table : BTreeMap K UInt64) :
    (keys.map fun key => (amountOf table key).toNat).sum ≤ total table := by
  induction keys generalizing table with
  | nil => exact Nat.zero_le _
  | cons key keys ih =>
      obtain ⟨fresh, distinct⟩ := List.nodup_cons.mp distinct
      have removed := total_erase_add table key
      have rest := ih distinct (table.erase key)
      have same : (keys.map fun other => (amountOf (table.erase key) other).toNat) =
          keys.map fun other => (amountOf table other).toNat := by
        apply List.map_congr_left
        intro other member
        have different : key ≠ other := fun equal => fresh (equal ▸ member)
        rw [amountOf, amountOf, BTreeMap.getElem?_erase, if_neg different]
      rw [same] at rest
      rw [List.map_cons, List.sum_cons]
      omega

/-- Erasing distinct keys takes exactly their amounts. -/
theorem total_foldl_erase {keys : List K} (distinct : keys.Nodup) (table : BTreeMap K UInt64) :
    total (keys.foldl (fun rest key => rest.erase key) table) +
      (keys.map fun key => (amountOf table key).toNat).sum = total table := by
  induction keys generalizing table with
  | nil => rfl
  | cons key keys ih =>
      obtain ⟨fresh, distinct⟩ := List.nodup_cons.mp distinct
      have removed := total_erase_add table key
      have rest := ih distinct (table.erase key)
      have same : (keys.map fun other => (amountOf (table.erase key) other).toNat) =
          keys.map fun other => (amountOf table other).toNat := by
        apply List.map_congr_left
        intro other member
        have different : key ≠ other := fun equal => fresh (equal ▸ member)
        rw [amountOf, amountOf, BTreeMap.getElem?_erase, if_neg different]
      rw [same] at rest
      rw [List.foldl_cons, List.map_cons, List.sum_cons]
      omega

/-! ## Movements -/

/-- A quantity grows by `amount` unless that would leave 64 bits. -/
def Moves (before after amount : Nat) : Prop :=
  before + amount < 2 ^ 64 → after = before + amount

theorem Moves.refl (n : Nat) : Moves n n 0 := fun _ => rfl

theorem Moves.trans {a b c first second : Nat} (left : Moves a b first) (right : Moves b c second) :
    Moves a c (first + second) := by
  intro fits
  have middle := left (by omega)
  have last := right (by omega)
  omega

theorem moves_credit (table : BTreeMap K UInt64) (key : K) (amount : UInt64) :
    Moves (total table) (total (credit table key amount)) amount.toNat :=
  fun fits => total_credit fits

theorem moves_foldl {σ ι : Type} (measure : σ → Nat) {step : σ → ι → σ} {amount : ι → Nat}
    {items : List ι} (each : ∀ state, ∀ item ∈ items,
      Moves (measure state) (measure (step state item)) (amount item)) (state : σ) :
    Moves (measure state) (measure (items.foldl step state)) (items.map amount).sum := by
  induction items generalizing state with
  | nil => exact Moves.refl _
  | cons item items ih =>
      rw [List.foldl_cons, List.map_cons, List.sum_cons]
      apply (each state item (List.mem_cons_self ..)).trans
      exact ih (fun other next member => each other next (List.mem_cons_of_mem _ member)) _

/-- What bounds every step of a loop bounds the loop. -/
theorem bounded_foldlM {σ ι ε : Type} {step : σ → ι → Except ε σ} (moved : σ → σ → Nat → Prop)
    (still : ∀ state, moved state state 0)
    (compose : ∀ {a b c : σ} {first second : Nat},
      moved a b first → moved b c second → moved a c (first + second))
    {bound : ι → ℚ} {items : List ι} (each : ∀ {state next : σ}, ∀ item ∈ items,
      step state item = .ok next → ∃ amount : Nat, (amount : ℚ) ≤ bound item ∧
        moved state next amount)
    {state last : σ} (ran : items.foldlM step state = .ok last) :
    ∃ amount : Nat, (amount : ℚ) ≤ (items.map bound).sum ∧ moved state last amount := by
  induction items generalizing state with
  | nil =>
      cases ran
      exact ⟨0, by simp, still _⟩
  | cons item items ih =>
      rw [List.foldlM_cons] at ran
      obtain ⟨next, first, rest⟩ := bind_ok ran
      obtain ⟨head, headLe, headMoved⟩ := each item (List.mem_cons_self ..) first
      obtain ⟨tail, tailLe, tailMoved⟩ :=
        ih (fun other member => each other (List.mem_cons_of_mem _ member)) rest
      refine ⟨head + tail, ?_, compose headMoved tailMoved⟩
      rw [List.map_cons, List.sum_cons]
      push_cast
      exact add_le_add headLe tailLe

theorem sum_map_le_of_subset {ι : Type} {xs ys : List ι} (distinct : xs.Nodup) (subset : xs ⊆ ys)
    (amount : ι → Nat) : (xs.map amount).sum ≤ (ys.map amount).sum := by
  obtain ⟨picked, same, sublist⟩ := List.subperm_of_subset distinct subset
  rw [← (same.map amount).sum_eq]
  exact (sublist.map amount).sum_le_sum fun _ _ => Nat.zero_le _

theorem sum_map_filter_add {ι : Type} (pred : ι → Bool) (amount : ι → Nat) (xs : List ι) :
    ((xs.filter pred).map amount).sum + ((xs.filter fun x => !pred x).map amount).sum =
      (xs.map amount).sum := by
  rw [← List.sum_append, ← List.map_append]
  exact ((List.filter_append_perm pred xs).map amount).sum_eq

theorem foldl_saturatingAdd_le {ι : Type} (amount : ι → UInt64) (xs : List ι) (start : UInt64) :
    (xs.foldl (fun acc x => saturatingAdd acc (amount x)) start).toNat ≤
      start.toNat + (xs.map fun x => (amount x).toNat).sum := by
  induction xs generalizing start with
  | nil => exact Nat.le_add_right _ _
  | cons x xs ih =>
      have rest := ih (saturatingAdd start (amount x))
      have first := saturatingAdd_toNat_le start (amount x)
      rw [List.foldl_cons, List.map_cons, List.sum_cons]
      omega

end Ade.Library
