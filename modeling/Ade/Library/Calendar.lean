import Mathlib

/-!
# Calendars

Slots of varying length, one after another from an origin. Every instant from the origin on lies
in at most one slot, and later instants lie in later slots.
-/

namespace Ade.Library

structure Calendar where
  origin : Nat
  length : Nat → Nat
  positive : ∀ n, 0 < length n

namespace Calendar

variable (calendar : Calendar)

def start (n : Nat) : Nat := calendar.origin + ∑ i ∈ Finset.range n, calendar.length i

def Covers (n t : Nat) : Prop := calendar.start n ≤ t ∧ t < calendar.start (n + 1)

@[simp] theorem start_zero : calendar.start 0 = calendar.origin := by
  simp [start]

theorem start_succ (n : Nat) : calendar.start (n + 1) = calendar.start n + calendar.length n := by
  rw [start, start, Finset.sum_range_succ, Nat.add_assoc]

theorem start_eq_add_sum {n m : Nat} (le : n ≤ m) :
    calendar.start m = calendar.start n + ∑ i ∈ Finset.Ico n m, calendar.length i := by
  rw [start, start, ← Finset.sum_range_add_sum_Ico _ le, Nat.add_assoc]

theorem start_strictMono : StrictMono calendar.start := by
  apply strictMono_nat_of_lt_succ
  intro n
  rw [start_succ]
  exact Nat.lt_add_of_pos_right (calendar.positive n)

theorem start_le_start {n m : Nat} : calendar.start n ≤ calendar.start m ↔ n ≤ m :=
  calendar.start_strictMono.le_iff_le

theorem start_lt_start {n m : Nat} : calendar.start n < calendar.start m ↔ n < m :=
  calendar.start_strictMono.lt_iff_lt

variable {calendar} {n m t u first last size : Nat}

theorem covers_start (calendar : Calendar) (n : Nat) : calendar.Covers n (calendar.start n) :=
  ⟨Nat.le_refl _, calendar.start_strictMono (Nat.lt_succ_self n)⟩

theorem Covers.monotone (earlier : calendar.Covers n t) (later : calendar.Covers m u) (le : t ≤ u) :
    n ≤ m := by
  have before : calendar.start n < calendar.start (m + 1) :=
    Nat.lt_of_le_of_lt (earlier.1.trans le) later.2
  exact Nat.lt_succ_iff.mp (calendar.start_lt_start.mp before)

theorem Covers.unique (one : calendar.Covers n t) (other : calendar.Covers m t) : n = m :=
  Nat.le_antisymm (one.monotone other (Nat.le_refl t)) (other.monotone one (Nat.le_refl t))

theorem Covers.lt_of_lt_start (covers : calendar.Covers n t) (before : t < calendar.start m) : n < m :=
  calendar.start_lt_start.mp (Nat.lt_of_le_of_lt covers.1 before)

theorem Covers.le_of_start_le (covers : calendar.Covers n t) (after : calendar.start m ≤ t) : m ≤ n :=
  Nat.lt_succ_iff.mp (calendar.start_lt_start.mp (Nat.lt_of_le_of_lt after covers.2))

/-! ## Stretches of one length -/

theorem start_of_constant (le : first ≤ last)
    (constant : ∀ i, first ≤ i → i < last → calendar.length i = size) :
    calendar.start last = calendar.start first + (last - first) * size := by
  induction last, le using Nat.le_induction with
  | base => simp
  | succ last le ih =>
      rw [start_succ, ih fun i low high => constant i low (Nat.lt_succ_of_lt high),
        constant last le (Nat.lt_succ_self last), Nat.succ_sub le, Nat.succ_mul, Nat.add_assoc]

/-- Within a stretch the slot of an instant is found by division. -/
theorem covers_div (positive : 0 < size) (after : calendar.start first ≤ t)
    (constant : ∀ i, first ≤ i → i ≤ first + (t - calendar.start first) / size →
      calendar.length i = size) :
    calendar.Covers (first + (t - calendar.start first) / size) t := by
  have begins : calendar.start (first + (t - calendar.start first) / size) =
      calendar.start first + (t - calendar.start first) / size * size := by
    rw [start_of_constant (Nat.le_add_right ..) fun i low high => constant i low (Nat.le_of_lt high),
      Nat.add_sub_cancel_left]
  rw [Covers, start_succ, begins, constant _ (Nat.le_add_right ..) (Nat.le_refl _)]
  have low := Nat.div_mul_le_self (t - calendar.start first) size
  have high : t - calendar.start first < _ := Nat.lt_div_mul_add positive
  omega

theorem covers_iff_of_unbounded (positive : 0 < size) (after : calendar.start first ≤ t)
    (constant : ∀ i, first ≤ i → calendar.length i = size) :
    calendar.Covers n t ↔ n = first + (t - calendar.start first) / size := by
  have covers := covers_div positive after fun i low _ => constant i low
  refine ⟨fun other => other.unique covers, fun same => ?_⟩
  rw [same]
  exact covers

theorem covers_iff_of_stretch (positive : 0 < size) (after : calendar.start first ≤ t)
    (before : t < calendar.start last)
    (constant : ∀ i, first ≤ i → i < last → calendar.length i = size) :
    calendar.Covers n t ↔ n = first + (t - calendar.start first) / size := by
  have le : first ≤ last :=
    Nat.le_of_lt (calendar.start_lt_start.mp (Nat.lt_of_le_of_lt after before))
  rw [start_of_constant le constant] at before
  have inside : (t - calendar.start first) / size < last - first := by
    rw [Nat.div_lt_iff_lt_mul positive]
    omega
  have covers := covers_div positive after fun i low high => constant i low (by omega)
  refine ⟨fun other => other.unique covers, fun same => ?_⟩
  rw [same]
  exact covers

end Calendar

end Ade.Library
