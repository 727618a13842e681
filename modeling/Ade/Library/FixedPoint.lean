import Mathlib

/-! # Unsigned fixed point that saturates at the largest word -/

namespace Ade.Library.FixedPoint

section
variable (bits top : Nat)

def mul (a b : Nat) : Nat := min (a * b / 2 ^ bits) top

def ofRatio (num den : Nat) : Nat := min (num * 2 ^ bits / den) top

variable {bits top}

theorem mul_le_mul {a a' b b' : Nat} (first : a ≤ a') (second : b ≤ b') :
    mul bits top a b ≤ mul bits top a' b' :=
  min_le_min_right top (Nat.div_le_div_right (Nat.mul_le_mul first second))

theorem ofRatio_mono {num num' : Nat} (den : Nat) (more : num ≤ num') :
    ofRatio bits top num den ≤ ofRatio bits top num' den :=
  min_le_min_right top (Nat.div_le_div_right (Nat.mul_le_mul_right (2 ^ bits) more))

/-- Equal fractions are the same number, rounded and saturated alike. -/
theorem ofRatio_congr {num den num' den' : Nat} (positive : 0 < den) (positive' : 0 < den')
    (same : num * den' = num' * den) : ofRatio bits top num den = ofRatio bits top num' den' := by
  unfold ofRatio
  congr 1
  calc num * 2 ^ bits / den = den' * (num * 2 ^ bits) / (den' * den) :=
        (Nat.mul_div_mul_left _ _ positive').symm
    _ = den * (num' * 2 ^ bits) / (den * den') := by
        rw [Nat.mul_comm den den', ← Nat.mul_assoc, Nat.mul_comm den' num, same, ← Nat.mul_assoc,
          Nat.mul_comm den num']
    _ = num' * 2 ^ bits / den' := Nat.mul_div_mul_left _ _ positive

end

end Ade.Library.FixedPoint
