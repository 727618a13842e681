import Mathlib

/-!
# Shift registers with feedback

A register of `w` bits that takes one bit after the other, as a reflected cyclic redundancy check
does. What leaves at the low end decides whether the polynomial is added.
-/

namespace Ade.Library.ShiftRegister

variable {w : Nat} {poly : BitVec w}

def feedback (poly : BitVec w) (bit : Bool) : BitVec w := if bit then poly else 0#w

def advance (poly state : BitVec w) : BitVec w := (state >>> 1) ^^^ feedback poly (state.getLsbD 0)

/-- One bit, at the low end. -/
def lowBit (bit : Bool) : BitVec w := BitVec.setWidth w (BitVec.ofBool bit)

def feed (poly state : BitVec w) (bit : Bool) : BitVec w := advance poly (state ^^^ lowBit bit)

def run (poly state : BitVec w) (bits : List Bool) : BitVec w := bits.foldl (feed poly) state

/-! ## Linearity -/

theorem lowBit_xor (a b : Bool) : (lowBit (a ^^ b) : BitVec w) = lowBit a ^^^ lowBit b := by
  cases a <;> cases b <;> simp [lowBit]

theorem getLsbD_lowBit (bit : Bool) (i : Nat) :
    (lowBit bit : BitVec w).getLsbD i = (decide (i < w) && decide (i = 0) && bit) := by
  rw [lowBit, BitVec.getLsbD_setWidth, BitVec.getLsbD_ofBool, Bool.and_assoc]

theorem feedback_xor (a b : Bool) : feedback poly (a ^^ b) = feedback poly a ^^^ feedback poly b := by
  cases a <;> cases b <;> simp [feedback]

theorem advance_xor (a b : BitVec w) :
    advance poly (a ^^^ b) = advance poly a ^^^ advance poly b := by
  unfold advance
  rw [BitVec.ushiftRight_xor_distrib, BitVec.getLsbD_xor, feedback_xor]
  ac_rfl

theorem feed_xor (a b : BitVec w) (bit other : Bool) :
    feed poly (a ^^^ b) (bit ^^ other) = feed poly a bit ^^^ feed poly b other := by
  rw [feed, feed, feed, lowBit_xor, ← advance_xor]
  congr 1
  ac_rfl

theorem run_xor {bits others : List Bool} (sameLength : bits.length = others.length)
    (a b : BitVec w) :
    run poly (a ^^^ b) (List.zipWith xor bits others) = run poly a bits ^^^ run poly b others := by
  induction bits generalizing others a b with
  | nil =>
      cases List.eq_nil_of_length_eq_zero sameLength.symm
      rfl
  | cons bit bits ih =>
      cases others with
      | nil => cases sameLength
      | cons other others =>
          have rest := ih (Nat.succ.inj sameLength) (feed poly a bit) (feed poly b other)
          rw [← feed_xor] at rest
          exact rest

theorem feed_eq (inside : 0 < w) (state : BitVec w) (bit : Bool) :
    feed poly state bit = (state >>> 1) ^^^ feedback poly (state.getLsbD 0 ^^ bit) := by
  have gone : (lowBit bit : BitVec w) >>> 1 = 0#w := by
    apply BitVec.eq_of_getLsbD_eq
    intro i _
    rw [BitVec.getLsbD_ushiftRight, getLsbD_lowBit]
    simp
  rw [feed, advance, BitVec.ushiftRight_xor_distrib, gone, BitVec.xor_zero, BitVec.getLsbD_xor,
    getLsbD_lowBit]
  simp [inside]

/-! ## No two states meet -/

/-- A set bit moves down, or is fed back to the top. -/
theorem advance_top (top : poly.getLsbD (w - 1) = true) {state : BitVec w}
    (low : state.getLsbD 0 = true) : (advance poly state).getLsbD (w - 1) = true := by
  have inside : 0 < w := by
    by_contra none_left
    rw [BitVec.getLsbD_of_ge state 0 (Nat.le_of_not_lt none_left)] at low
    cases low
  rw [advance, BitVec.getLsbD_xor, BitVec.getLsbD_ushiftRight,
    BitVec.getLsbD_of_ge state _ (by omega), low, feedback, if_pos rfl, top]
  rfl

/-- A set bit moves down, or the polynomial's top bit is fed back. -/
theorem advance_bit (top : poly.getLsbD (w - 1) = true) {state : BitVec w} {i : Nat}
    (positive : 0 < i) (set_ : state.getLsbD i = true) :
    (advance poly state).getLsbD (i - 1) = true ∨ (advance poly state).getLsbD (w - 1) = true := by
  cases low : state.getLsbD 0 with
  | false =>
      have above : 1 + (i - 1) = i := by omega
      left
      rw [advance, BitVec.getLsbD_xor, BitVec.getLsbD_ushiftRight, above, set_, low, feedback,
        if_neg Bool.false_ne_true]
      simp
  | true => exact .inr (advance_top top low)

theorem advance_ne_zero (top : poly.getLsbD (w - 1) = true) {state : BitVec w} (nonzero : state ≠ 0#w) :
    advance poly state ≠ 0#w := by
  obtain ⟨i, set_⟩ : ∃ i, state.getLsbD i = true := by
    by_contra none_set
    push Not at none_set
    apply nonzero
    apply BitVec.eq_of_getLsbD_eq
    intro i _
    rw [Bool.eq_false_iff.mpr (none_set i)]
    simp
  intro zero
  by_cases positive : 0 < i
  · rcases advance_bit top positive set_ with moved | fed
    · simp [zero] at moved
    · simp [zero] at fed
  · have low : state.getLsbD 0 = true := by
      rwa [Nat.eq_zero_of_not_pos positive] at set_
    have fed := advance_top top low
    simp [zero] at fed

theorem advance_injective (top : poly.getLsbD (w - 1) = true) :
    Function.Injective (advance poly) := by
  intro a b same
  by_contra different
  have apart : a ^^^ b ≠ 0#w := fun zero => different (BitVec.xor_eq_zero_iff.mp zero)
  apply advance_ne_zero top apart
  rw [advance_xor, same, BitVec.xor_self]

theorem feed_injective (top : poly.getLsbD (w - 1) = true) (bit : Bool) :
    Function.Injective fun state => feed poly state bit := by
  intro a b same
  exact (BitVec.xor_left_inj _).mp (advance_injective top same)

theorem run_injective (top : poly.getLsbD (w - 1) = true) (bits : List Bool) :
    Function.Injective fun state => run poly state bits := by
  induction bits with
  | nil => exact Function.injective_id
  | cons bit bits ih => exact ih.comp (feed_injective top bit)

theorem run_append (state : BitVec w) (first second : List Bool) :
    run poly state (first ++ second) = run poly (run poly state first) second :=
  List.foldl_append

/-! ## Bursts -/

/-- The two sequences differ, and only inside a window of at most `width` bits. -/
def Burst (width : Nat) (bits others : List Bool) : Prop :=
  ∃ earlier window other later, bits = earlier ++ window ++ later ∧
    others = earlier ++ other ++ later ∧ window.length = other.length ∧ window.length ≤ width ∧
    window ≠ other

/-- A bit is set among the `count + 1` highest. -/
def SetAmong (count : Nat) (state : BitVec w) : Prop :=
  ∃ i, w ≤ i + 1 + count ∧ state.getLsbD i = true

theorem SetAmong.feed (top : poly.getLsbD (w - 1) = true) {count : Nat} {state : BitVec w}
    (among : SetAmong count state) (inside : count + 1 < w) (bit : Bool) :
    SetAmong (count + 1) (feed poly state bit) := by
  obtain ⟨i, high, set_⟩ := among
  have kept : (state ^^^ lowBit bit).getLsbD i = true := by
    have elsewhere : i ≠ 0 := by omega
    rw [BitVec.getLsbD_xor, getLsbD_lowBit, set_]
    simp [elsewhere]
  rcases advance_bit top (by omega) kept with moved | fed
  · exact ⟨i - 1, by omega, moved⟩
  · exact ⟨w - 1, by omega, fed⟩

/-- Two states that differ near the top differ for as long as that bit can move down, whatever they
are fed. -/
theorem run_apart (top : poly.getLsbD (w - 1) = true) {bits others : List Bool}
    (sameLength : bits.length = others.length) {count : Nat} {a b : BitVec w}
    (among : SetAmong count (a ^^^ b)) (inside : count + bits.length < w) :
    SetAmong (count + bits.length) (run poly a bits ^^^ run poly b others) := by
  induction bits generalizing others count a b with
  | nil =>
      cases List.eq_nil_of_length_eq_zero sameLength.symm
      exact among
  | cons bit bits ih =>
      cases others with
      | nil => cases sameLength
      | cons other others =>
          rw [List.length_cons] at inside ⊢
          have next := among.feed top (by omega) (bit ^^ other)
          rw [feed_xor] at next
          have rest := ih (Nat.succ.inj sameLength) next (by omega)
          rw [Nat.add_assoc, Nat.add_comm 1] at rest
          exact rest

theorem run_window (top : poly.getLsbD (w - 1) = true) {window other : List Bool}
    (sameLength : window.length = other.length) (short : window.length ≤ w)
    (differ : window ≠ other) (state : BitVec w) :
    run poly state window ≠ run poly state other := by
  induction window generalizing other state with
  | nil => exact absurd (List.eq_nil_of_length_eq_zero sameLength.symm).symm differ
  | cons bit window ih =>
      cases other with
      | nil => cases sameLength
      | cons bit' other =>
          rw [List.length_cons] at short
          by_cases same : bit = bit'
          · subst same
            apply ih (Nat.succ.inj sameLength) (by omega)
            exact fun equal => differ (congrArg _ equal)
          · have apart : feed poly state bit ^^^ feed poly state bit' = advance poly (lowBit true) := by
              have flipped : (bit ^^ bit') = true := by
                cases bit <;> cases bit' <;> simp at same ⊢
              rw [← feed_xor, flipped, BitVec.xor_self, feed, BitVec.zero_xor]
            have low : (lowBit true : BitVec w).getLsbD 0 = true := by
              rw [getLsbD_lowBit]
              simp
              omega
            have among : SetAmong 0 (feed poly state bit ^^^ feed poly state bit') := by
              rw [apart]
              exact ⟨w - 1, by omega, advance_top top low⟩
            obtain ⟨i, -, set_⟩ := run_apart top (Nat.succ.inj sameLength) among (by omega)
            intro equal
            have zero := BitVec.xor_eq_zero_iff.mpr equal
            rw [run, run, List.foldl_cons, List.foldl_cons] at zero
            rw [run, run, zero] at set_
            simp at set_

/-- A register as wide as the window tells the two sequences apart. -/
theorem run_burst (top : poly.getLsbD (w - 1) = true) {bits others : List Bool}
    (burst : Burst w bits others) (state : BitVec w) :
    run poly state bits ≠ run poly state others := by
  obtain ⟨earlier, window, other, later, rfl, rfl, sameLength, short, differ⟩ := burst
  rw [run_append, run_append, run_append, run_append]
  intro same
  exact run_window top sameLength short differ _ (run_injective top later same)

end Ade.Library.ShiftRegister
