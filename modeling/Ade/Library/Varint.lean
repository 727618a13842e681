import Mathlib

/-!
# Big-endian numbers of seven-bit groups

Every byte carries seven bits of the number, the high ones first, and its top bit says whether
another byte follows.
-/

namespace Ade.Library

inductive IsVarint : List UInt8 → Prop
  | last {byte : UInt8} (ends : byte.toNat < 128) : IsVarint [byte]
  | more {byte : UInt8} {groups : List UInt8} (continues : 128 ≤ byte.toNat)
      (rest : IsVarint groups) : IsVarint (byte :: groups)

/-- The number that the groups continue. -/
def varintFrom (start : Nat) (groups : List UInt8) : Nat :=
  groups.foldl (fun value byte => value * 128 + byte.toNat % 128) start

def varintValue (groups : List UInt8) : Nat := varintFrom 0 groups

@[simp] theorem varintFrom_nil (start : Nat) : varintFrom start [] = start := rfl

@[simp] theorem varintFrom_cons (start : Nat) (byte : UInt8) (groups : List UInt8) :
    varintFrom start (byte :: groups) = varintFrom (start * 128 + byte.toNat % 128) groups := rfl

theorem varintFrom_eq (start : Nat) (groups : List UInt8) :
    varintFrom start groups = start * 128 ^ groups.length + varintValue groups := by
  unfold varintValue
  induction groups generalizing start with
  | nil => simp
  | cons byte groups ih =>
      rw [varintFrom_cons, varintFrom_cons, ih, ih (0 * 128 + byte.toNat % 128), List.length_cons,
        Nat.pow_succ]
      ring

theorem varintValue_cons (byte : UInt8) (groups : List UInt8) :
    varintValue (byte :: groups) =
      byte.toNat % 128 * 128 ^ groups.length + varintValue groups := by
  rw [varintValue, varintFrom_cons, varintFrom_eq, Nat.zero_mul, Nat.zero_add]

theorem varintValue_lt (groups : List UInt8) : varintValue groups < 128 ^ groups.length := by
  induction groups with
  | nil => exact Nat.one_pos
  | cons byte groups ih =>
      rw [varintValue_cons, List.length_cons, Nat.pow_succ]
      have group : byte.toNat % 128 + 1 ≤ 128 := Nat.mod_lt _ (by decide)
      calc byte.toNat % 128 * 128 ^ groups.length + varintValue groups
          < (byte.toNat % 128 + 1) * 128 ^ groups.length := by
            rw [Nat.add_mul, Nat.one_mul]
            exact Nat.add_lt_add_left ih _
        _ ≤ 128 * 128 ^ groups.length := Nat.mul_le_mul_right _ group
        _ = 128 ^ groups.length * 128 := Nat.mul_comm _ _

/-- The first group alone decides whether a number stays below a power of two. -/
theorem varintValue_cons_lt (byte : UInt8) (groups : List UInt8) (bits : Nat) :
    varintValue (byte :: groups) < 2 ^ bits * 128 ^ groups.length ↔ byte.toNat % 128 < 2 ^ bits := by
  have rest := varintValue_lt groups
  rw [varintValue_cons]
  constructor
  · intro small
    by_contra! large
    have atLeast := Nat.mul_le_mul_right (128 ^ groups.length) large
    omega
  · intro small
    calc byte.toNat % 128 * 128 ^ groups.length + varintValue groups
        < (byte.toNat % 128 + 1) * 128 ^ groups.length := by
          rw [Nat.add_mul, Nat.one_mul]
          exact Nat.add_lt_add_left rest _
      _ ≤ 2 ^ bits * 128 ^ groups.length := Nat.mul_le_mul_right _ small

theorem IsVarint.ne_nil {groups : List UInt8} (varint : IsVarint groups) : groups ≠ [] := by
  cases varint <;> exact List.cons_ne_nil _ _

end Ade.Library
