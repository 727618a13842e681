import Ade.Library.Machine

/-! Exact rationals in canonical form. -/

namespace Ade.Ledger
open Library

structure Rational where
  num : Int
  den : Int
  den_pos : 0 < den
  reduced : num.gcd den = 1
deriving DecidableEq

namespace Rational

def zero : Rational := ⟨0, 1, by decide, by decide⟩

def one : Rational := ⟨1, 1, by decide, by decide⟩

def fromInteger (n : Int) : Rational := ⟨n, 1, by decide, Int.gcd_one_right n⟩

theorem gcd_pos {num den : Int} (positive : 0 < den) : (0 : Int) < num.gcd den := by
  have nonzero : num.gcd den ≠ 0 := by
    rw [Ne, Int.gcd_eq_zero_iff]
    omega
  omega

theorem div_gcd_pos {num den : Int} (positive : 0 < den) : 0 < den / num.gcd den :=
  Int.ediv_pos_of_pos_of_dvd positive (gcd_pos positive).le (Int.gcd_dvd_right num den)

theorem div_gcd_coprime {num den : Int} (positive : 0 < den) :
    (num / num.gcd den).gcd (den / num.gcd den) = 1 := by
  have common := @gcd_pos num den positive
  exact Int.gcd_ediv_gcd_ediv_gcd (by omega)

/-- Divides a fraction with a positive denominator by its common divisor. -/
def divGcd (num den : Int) (positive : 0 < den) : Rational :=
  ⟨num / num.gcd den, den / num.gcd den, div_gcd_pos positive, div_gcd_coprime positive⟩

def reduce (num den : Int) (nonzero : den ≠ 0) : Rational :=
  if num = 0 then zero
  else if negative : den < 0 then divGcd (-num) (-den) (by omega)
  else divGcd num den (by omega)

def new (num den : Int) : Option Rational :=
  if zeroDen : den = 0 then none else some (reduce num den zeroDen)

def numerator (r : Rational) : Int := clampI128 r.num

def denominator (r : Rational) : Int := clampI128 r.den

def floor (r : Rational) : Int :=
  if r.num.tmod r.den < 0 then clampI128 (r.num.tdiv r.den - 1) else clampI128 (r.num.tdiv r.den)

theorem den_mul_ne (a b : Rational) : a.den * b.den ≠ 0 :=
  (Int.mul_pos a.den_pos b.den_pos).ne'

def checkedAdd (a b : Rational) : Option Rational :=
  some (reduce (a.num * b.den + b.num * a.den) (a.den * b.den) (den_mul_ne a b))

def checkedSub (a b : Rational) : Option Rational :=
  some (reduce (a.num * b.den - b.num * a.den) (a.den * b.den) (den_mul_ne a b))

def checkedMul (a b : Rational) : Option Rational :=
  some (reduce (a.num * b.num) (a.den * b.den) (den_mul_ne a b))

def checkedDiv (a b : Rational) : Option Rational :=
  if zeroNum : b.num = 0 then none
  else some (reduce (a.num * b.den) (a.den * b.num) (Int.mul_ne_zero a.den_pos.ne' zeroNum))

/-- The number a canonical fraction stands for. -/
def value (r : Rational) : ℚ := r.num / r.den

end Rational

end Ade.Ledger
