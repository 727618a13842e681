import Mathlib

/-!
# Machine integers

Saturating and overflow-checked operations, and the casts between them. An `i128` is an integer
kept in range by the operation that makes it.
-/

namespace Ade.Library

def saturatingAdd (a b : UInt64) : UInt64 :=
  if a.toNat + b.toNat < 2 ^ 64 then a + b else UInt64.ofNat (2 ^ 64 - 1)

def saturatingSub (a b : UInt64) : UInt64 := if b ≤ a then a - b else 0

def checkedAdd (a b : UInt64) : Option UInt64 :=
  if a.toNat + b.toNat < 2 ^ 64 then some (a + b) else none

def checkedSub (a b : UInt64) : Option UInt64 := if b ≤ a then some (a - b) else none

def checkedMul (a b : UInt64) : Option UInt64 :=
  if a.toNat * b.toNat < 2 ^ 64 then some (a * b) else none

def checkedMulI128 (a b : Int) : Option Int :=
  if -2 ^ 127 ≤ a * b ∧ a * b < 2 ^ 127 then some (a * b) else none

/-- The product modulo 2¹²⁸, as an unchecked multiplication leaves it. -/
def wrappingMulI128 (a b : Int) : Int := (a * b).bmod (2 ^ 128)

def clampI128 (a : Int) : Int := max (-2 ^ 127) (min a (2 ^ 127 - 1))

def asI128 (a : UInt64) : Int := a.toNat

def asU64 (a : Int) : UInt64 := UInt64.ofInt a

theorem saturatingAdd_toNat_le (a b : UInt64) : (saturatingAdd a b).toNat ≤ a.toNat + b.toNat := by
  unfold saturatingAdd
  split_ifs with fits
  · rw [UInt64.toNat_add]
    exact Nat.mod_le _ _
  · exact Nat.le_of_not_lt fits |>.trans' (by decide)

theorem saturatingAdd_toNat {a b : UInt64} (fits : a.toNat + b.toNat < 2 ^ 64) :
    (saturatingAdd a b).toNat = a.toNat + b.toNat := by
  rw [saturatingAdd, if_pos fits, UInt64.toNat_add, Nat.mod_eq_of_lt fits]

theorem le_saturatingAdd {a b c : UInt64} : c ≤ saturatingAdd a b ↔ c.toNat ≤ a.toNat + b.toNat := by
  have small := c.toNat_lt
  rw [UInt64.le_iff_toNat_le]
  by_cases fits : a.toNat + b.toNat < 2 ^ 64
  · rw [saturatingAdd_toNat fits]
  · rw [saturatingAdd, if_neg fits]
    have top : (UInt64.ofNat (2 ^ 64 - 1)).toNat = 2 ^ 64 - 1 := rfl
    omega

theorem saturatingSub_toNat (a b : UInt64) : (saturatingSub a b).toNat = a.toNat - b.toNat := by
  unfold saturatingSub
  split_ifs with below
  · exact UInt64.toNat_sub_of_le _ _ below
  · rw [UInt64.le_iff_toNat_le] at below
    have exceeds : a.toNat - b.toNat = 0 := Nat.sub_eq_zero_of_le (Nat.le_of_not_le below)
    rw [exceeds]
    rfl

theorem checkedAdd_toNat {a b sum : UInt64} (added : checkedAdd a b = some sum) :
    sum.toNat = a.toNat + b.toNat := by
  unfold checkedAdd at added
  split_ifs at added with fits
  cases added
  rw [UInt64.toNat_add, Nat.mod_eq_of_lt fits]

theorem checkedAdd_eq_some {a b sum : UInt64} :
    checkedAdd a b = some sum ↔ sum.toNat = a.toNat + b.toNat := by
  refine ⟨checkedAdd_toNat, fun same => ?_⟩
  have fits := sum.toNat_lt
  rw [checkedAdd, if_pos (same ▸ fits), Option.some.injEq, ← UInt64.toNat_inj, UInt64.toNat_add,
    Nat.mod_eq_of_lt (same ▸ fits), same]

theorem checkedMul_eq_some {a b product : UInt64} :
    checkedMul a b = some product ↔ product.toNat = a.toNat * b.toNat := by
  have fits := product.toNat_lt
  unfold checkedMul
  constructor
  · intro multiplied
    split_ifs at multiplied with small
    cases multiplied
    rw [UInt64.toNat_mul, Nat.mod_eq_of_lt small]
  · intro same
    rw [if_pos (same ▸ fits), Option.some.injEq, ← UInt64.toNat_inj, UInt64.toNat_mul,
      Nat.mod_eq_of_lt (same ▸ fits), same]

theorem checkedSub_eq_some {a b difference : UInt64} :
    checkedSub a b = some difference ↔ b ≤ a ∧ difference.toNat = a.toNat - b.toNat := by
  unfold checkedSub
  constructor
  · intro subtracted
    split_ifs at subtracted with below
    cases subtracted
    exact ⟨below, UInt64.toNat_sub_of_le _ _ below⟩
  · rintro ⟨below, same⟩
    rw [if_pos below, Option.some.injEq, ← UInt64.toNat_inj, UInt64.toNat_sub_of_le _ _ below, same]

theorem checkedMulI128_eq {a b product : Int} (multiplied : checkedMulI128 a b = some product) :
    product = a * b := by
  unfold checkedMulI128 at multiplied
  split_ifs at multiplied
  cases multiplied
  rfl

theorem wrappingMulI128_of_mem {a b : Int} (low : -2 ^ 127 ≤ a * b) (high : a * b < 2 ^ 127) :
    wrappingMulI128 a b = a * b := by
  rw [wrappingMulI128, Int.bmod_eq_of_le] <;> omega

theorem clampI128_of_mem {a : Int} (low : -2 ^ 127 ≤ a) (high : a < 2 ^ 127) : clampI128 a = a := by
  unfold clampI128
  omega

theorem asU64_toNat_le {a : Int} (nonneg : 0 ≤ a) : ((asU64 a).toNat : Int) ≤ a := by
  rw [asU64, UInt64.ofInt, UInt64.toNat_ofNat']
  omega

end Ade.Library
