import Ade.Consensus.VrfCert
import Ade.Library.FixedPoint

/-! The arithmetic on words of 128 bits: exact, but for the division by a divisor with the top bit set. -/

namespace Ade.Proof.Consensus
open Library Ade.Consensus

/-! ## Words -/

/-- The largest word. -/
def topWord : Nat := 2 ^ 128 - 1

theorem toNat_max : U128.max.toNat = topWord := by rfl

theorem toNat_le_topWord (a : U128) : a.toNat ≤ topWord := Nat.le_sub_one_of_lt a.isLt

theorem toNat_zero : (0 : U128).toNat = 0 := rfl

theorem toNat_oneQ : oneQ.toNat = 2 ^ 123 := by rfl

theorem toNat_lowMask (a : U128) : (a &&& lowMask).toNat = a.toNat % 2 ^ 64 := by
  rw [BitVec.toNat_and]
  exact Nat.and_two_pow_sub_one_eq_mod a.toNat 64

theorem toNat_saturatingAdd (a b : U128) : (a.saturatingAdd b).toNat = min (a.toNat + b.toNat) topWord := by
  unfold U128.saturatingAdd
  split_ifs with fits
  · rw [BitVec.toNat_add, Nat.mod_eq_of_lt fits]
    exact (min_eq_left (Nat.le_sub_one_of_lt fits)).symm
  · rw [toNat_max]
    exact (min_eq_right (by unfold topWord; omega)).symm

theorem toNat_shiftRight (a : U128) (shift : Nat) : (a >>> shift).toNat = a.toNat / 2 ^ shift := by
  rw [BitVec.toNat_ushiftRight, Nat.shiftRight_eq_div_pow]

/-- The bits that a shift frees are those of the other operand. -/
theorem toNat_shiftLeft_or {shift : Nat} (within : shift ≤ 128) (high : U128) {low : U128}
    (small : low.toNat < 2 ^ shift) :
    ((high <<< shift) ||| low).toNat = high.toNat * 2 ^ shift % 2 ^ 128 + low.toNat := by
  have shifted : high.toNat * 2 ^ shift % 2 ^ 128 = 2 ^ shift * (high.toNat % 2 ^ (128 - shift)) := by
    rw [Nat.mul_comm, ← Nat.mul_mod_mul_left, ← Nat.pow_add, Nat.add_sub_cancel' within]
  rw [BitVec.toNat_or, BitVec.toNat_shiftLeft, Nat.shiftLeft_eq, shifted, ← Nat.two_pow_add_eq_or_of_lt small]

theorem toNat_mul_halves {a b : U128} (half : a.toNat < 2 ^ 64) (half' : b.toNat < 2 ^ 64) :
    (a * b).toNat = a.toNat * b.toNat ∧ (a * b).toNat < 2 ^ 128 := by
  have small : a.toNat * b.toNat < 2 ^ 64 * 2 ^ 64 := Nat.mul_lt_mul'' half half'
  have same : (a * b).toNat = a.toNat * b.toNat := by
    rw [BitVec.toNat_mul]
    exact Nat.mod_eq_of_lt small
  exact ⟨same, same ▸ small⟩

/-- The four products at their places, with what the middle ones carry over. -/
theorem carried_products (ll lh hl hh : U128)
    (fits : hh.toNat * 2 ^ 128 + lh.toNat * 2 ^ 64 + hl.toNat * 2 ^ 64 + ll.toNat < 2 ^ 256) :
    let mid := (ll >>> 64) + (lh &&& lowMask) + (hl &&& lowMask)
    (hh + (lh >>> 64) + (hl >>> 64) + (mid >>> 64)).toNat * 2 ^ 128 +
        ((mid <<< 64) ||| (ll &&& lowMask)).toNat =
      hh.toNat * 2 ^ 128 + lh.toNat * 2 ^ 64 + hl.toNat * 2 ^ 64 + ll.toNat := by
  intro mid
  have llWord := ll.isLt
  have lhWord := lh.isLt
  have hlWord := hl.isLt
  have middle : mid.toNat = ll.toNat / 2 ^ 64 + lh.toNat % 2 ^ 64 + hl.toNat % 2 ^ 64 := by
    simp only [mid, BitVec.toNat_add, toNat_lowMask, toNat_shiftRight]
    omega
  have masked : (ll &&& lowMask).toNat < 2 ^ 64 := by
    rw [toNat_lowMask]
    exact Nat.mod_lt _ (by decide)
  rw [toNat_shiftLeft_or (by decide) mid masked, toNat_lowMask]
  simp only [BitVec.toNat_add, toNat_shiftRight, middle]
  omega

def lowHalf (word : U128) : U128 := (word.setWidth 64).setWidth 128

theorem toNat_lowHalf (word : U128) : (lowHalf word).toNat = word.toNat % 2 ^ 64 := by
  rw [lowHalf, BitVec.toNat_setWidth, BitVec.toNat_setWidth]
  omega

theorem lowHalf_lt (word : U128) : (lowHalf word).toNat < 2 ^ 64 :=
  toNat_lowHalf word ▸ Nat.mod_lt _ (by decide)

theorem highHalf_lt (word : U128) : (word >>> 64).toNat < 2 ^ 64 := by
  rw [toNat_shiftRight]
  omega

/-- The product is the sum of those of the halves, each at its place. -/
theorem products_of_halves (a b : U128) :
    (a >>> 64 * b >>> 64 : U128).toNat * 2 ^ 128 + (lowHalf a * b >>> 64 : U128).toNat * 2 ^ 64 +
      (a >>> 64 * lowHalf b : U128).toNat * 2 ^ 64 + (lowHalf a * lowHalf b : U128).toNat =
        a.toNat * b.toNat := by
  rw [(toNat_mul_halves (highHalf_lt a) (highHalf_lt b)).1,
    (toNat_mul_halves (lowHalf_lt a) (highHalf_lt b)).1,
    (toNat_mul_halves (highHalf_lt a) (lowHalf_lt b)).1,
    (toNat_mul_halves (lowHalf_lt a) (lowHalf_lt b)).1,
    toNat_shiftRight, toNat_shiftRight, toNat_lowHalf, toNat_lowHalf]
  have splitA := Nat.div_add_mod a.toNat (2 ^ 64)
  have splitB := Nat.div_add_mod b.toNat (2 ^ 64)
  calc _ = (2 ^ 64 * (a.toNat / 2 ^ 64) + a.toNat % 2 ^ 64) *
        (2 ^ 64 * (b.toNat / 2 ^ 64) + b.toNat % 2 ^ 64) := by ring
    _ = a.toNat * b.toNat := by rw [splitA, splitB]

theorem product_lt (a b : U128) : a.toNat * b.toNat < 2 ^ 256 := by
  have word : a.toNat * b.toNat < 2 ^ 128 * 2 ^ 128 := Nat.mul_lt_mul'' a.isLt b.isLt
  rwa [← Nat.pow_add] at word

theorem mulU128Full_toNat (a b : U128) :
    (mulU128Full a b).1.toNat * 2 ^ 128 + (mulU128Full a b).2.toNat = a.toNat * b.toNat := by
  have places := products_of_halves a b
  have word := product_lt a b
  rw [← places] at word ⊢
  exact carried_products _ _ _ _ word

theorem checkedMul_halves {a b : U128} (half : a.toNat < 2 ^ 64) (half' : b.toNat < 2 ^ 64) :
    U128.checkedMul a b = some (a * b) :=
  if_pos (Nat.mul_lt_mul'' half half')

theorem checkedAdd_eq {a b : U128} (fits : a.toNat + b.toNat < 2 ^ 128) :
    U128.checkedAdd a b = some (a + b) ∧ (a + b).toNat = a.toNat + b.toNat := by
  refine ⟨if_pos fits, ?_⟩
  rw [BitVec.toNat_add, Nat.mod_eq_of_lt fits]

/-- No product of the halves overflows, nor a sum of what they carry. -/
theorem checkedMulU128Full_eq (a b : U128) : checkedMulU128Full a b = some (mulU128Full a b) := by
  have word := product_lt a b
  rw [← products_of_halves a b] at word
  unfold checkedMulU128Full mulU128Full
  rw [← lowHalf, ← lowHalf]
  dsimp only
  rw [checkedMul_halves (lowHalf_lt a) (lowHalf_lt b), checkedMul_halves (lowHalf_lt a) (highHalf_lt b),
    checkedMul_halves (highHalf_lt a) (lowHalf_lt b), checkedMul_halves (highHalf_lt a) (highHalf_lt b)]
  generalize (lowHalf a * lowHalf b : U128) = ll at word ⊢
  generalize (lowHalf a * b >>> 64 : U128) = lh at word ⊢
  generalize (a >>> 64 * lowHalf b : U128) = hl at word ⊢
  generalize (a >>> 64 * b >>> 64 : U128) = hh at word ⊢
  have llWord := ll.isLt
  obtain ⟨middle, middleIs⟩ := @checkedAdd_eq (ll >>> 64) (lh &&& lowMask) (by
    rw [toNat_shiftRight, toNat_lowMask]; omega)
  obtain ⟨mid, midIs⟩ := @checkedAdd_eq ((ll >>> 64) + (lh &&& lowMask)) (hl &&& lowMask) (by
    rw [middleIs, toNat_shiftRight, toNat_lowMask, toNat_lowMask]; omega)
  rw [middleIs, toNat_shiftRight, toNat_lowMask, toNat_lowMask] at midIs
  obtain ⟨first, firstIs⟩ := @checkedAdd_eq hh (lh >>> 64) (by rw [toNat_shiftRight]; omega)
  obtain ⟨second, secondIs⟩ := @checkedAdd_eq (hh + (lh >>> 64)) (hl >>> 64) (by
    rw [firstIs, toNat_shiftRight, toNat_shiftRight]; omega)
  obtain ⟨third, -⟩ := @checkedAdd_eq (hh + (lh >>> 64) + (hl >>> 64))
    (((ll >>> 64) + (lh &&& lowMask) + (hl &&& lowMask)) >>> 64) (by
      rw [secondIs, firstIs, toNat_shiftRight, toNat_shiftRight, toNat_shiftRight, midIs]; omega)
  simp only [Option.bind_eq_bind, Option.bind_some, middle, mid, first, second, third]
  rfl

/-! ## Fixed point -/

theorem toNat_mulQ (a b : U128) : (mulQ a b).toNat = FixedPoint.mul 123 topWord a.toNat b.toNat := by
  have product := mulU128Full_toNat a b
  rcases halves : mulU128Full a b with ⟨hi, lo⟩
  rw [halves] at product
  have loWord := lo.isLt
  unfold mulQ FixedPoint.mul
  simp only [halves, ← product]
  split_ifs with large
  · have large : 2 ^ 123 ≤ hi.toNat := BitVec.le_def.mp large
    rw [toNat_max]
    exact (min_eq_right (by unfold topWord; omega)).symm
  · have small : hi.toNat < 2 ^ 123 := Nat.lt_of_not_le fun large_ => large (BitVec.le_def.mpr large_)
    have low : (lo >>> 123).toNat < 2 ^ (128 - 123) := by
      rw [toNat_shiftRight]
      omega
    have shifted : shrU256 hi lo fpBits = (hi <<< (128 - 123)) ||| (lo >>> 123) := BitVec.or_comm ..
    rw [shifted, toNat_shiftLeft_or (by decide) hi low, toNat_shiftRight, min_eq_left]
    · omega
    · unfold topWord
      omega

/-! ## Division -/

section
variable {divisor : U128}

theorem toNat_double_or {a low : U128} (small : low.toNat < 2) (fits : a.toNat * 2 < 2 ^ 128) :
    ((a <<< 1) ||| low).toNat = a.toNat * 2 + low.toNat := by
  rw [toNat_shiftLeft_or (by decide) a small, pow_one, Nat.mod_eq_of_lt fits]

/-- The bit that moves up from the low word does not change the dividend. -/
theorem dividend_step {rounds : Nat} (within : rounds < 128) (hi lo : Nat) :
    (hi * 2 + lo / 2 ^ 127) * 2 ^ rounds + lo * 2 % 2 ^ 128 / 2 ^ (128 - rounds) =
      hi * 2 ^ (rounds + 1) + lo / 2 ^ (128 - (rounds + 1)) := by
  have places : 2 ^ rounds * 2 ^ (128 - (rounds + 1)) = 2 ^ 127 := by
    rw [← Nat.pow_add]
    congr 1
    omega
  have doubled : 2 ^ (128 - rounds) = 2 * 2 ^ (128 - (rounds + 1)) := by
    rw [← Nat.pow_succ']
    congr 1
    omega
  have rest : lo * 2 % 2 ^ 128 = 2 * (lo % 2 ^ 127) := by omega
  have low : lo / 2 ^ (128 - (rounds + 1)) =
      lo / 2 ^ 127 * 2 ^ rounds + lo % 2 ^ 127 / 2 ^ (128 - (rounds + 1)) := by
    have split : lo = lo % 2 ^ 127 + lo / 2 ^ 127 * 2 ^ rounds * 2 ^ (128 - (rounds + 1)) := by
      rw [Nat.mul_assoc, places, Nat.mul_comm]
      exact (Nat.mod_add_div lo (2 ^ 127)).symm
    conv_lhs => rw [split]
    rw [Nat.add_mul_div_right _ _ (Nat.two_pow_pos _), Nat.add_comm]
  rw [rest, doubled, Nat.mul_div_mul_left _ _ (by decide), low, Nat.pow_succ]
  ring

theorem toNat_digit_one {quotient : U128} (room : quotient.toNat * 2 < 2 ^ 128) :
    ((quotient <<< 1) ||| 1).toNat = quotient.toNat * 2 + 1 :=
  @toNat_double_or quotient 1 (by decide) room

theorem toNat_digit_zero {quotient : U128} (room : quotient.toNat * 2 < 2 ^ 128) :
    (quotient <<< 1).toNat = quotient.toNat * 2 := by
  rw [BitVec.toNat_shiftLeft, Nat.shiftLeft_eq, pow_one, Nat.mod_eq_of_lt room]

theorem room_step {rounds quotient : Nat} (within : rounds + 1 ≤ 128)
    (room : quotient < 2 ^ (128 - (rounds + 1))) :
    quotient * 2 + 1 < 2 ^ (128 - rounds) ∧ 2 ^ (128 - rounds) ≤ 2 ^ 128 := by
  have doubled : 2 ^ (128 - rounds) = 2 * 2 ^ (128 - (rounds + 1)) := by
    rw [← Nat.pow_succ']
    congr 1
    omega
  exact ⟨by omega, Nat.pow_le_pow_right (by decide) (Nat.sub_le ..)⟩

/-- The digits that are left change the quotient by less than the digit before them. -/
theorem divideRounds_lt {rounds : Nat} (within : rounds ≤ 128) {hi lo quotient : U128}
    (room : quotient.toNat < 2 ^ (128 - rounds)) :
    (divideRounds divisor rounds hi lo quotient).toNat < (quotient.toNat + 1) * 2 ^ rounds := by
  induction rounds generalizing hi lo quotient with
  | zero =>
      rw [divideRounds]
      omega
  | succ rounds ih =>
      obtain ⟨inside, word⟩ := room_step within room
      have split : (quotient.toNat + 1) * 2 ^ (rounds + 1) = (quotient.toNat * 2 + 2) * 2 ^ rounds := by
        rw [Nat.pow_succ]
        ring
      rw [divideRounds, split]
      split_ifs
      · have digit := @toNat_digit_one quotient (by omega)
        have rest := @ih (by omega) (((hi <<< 1) ||| (lo >>> 127)) - divisor) (lo <<< 1)
          ((quotient <<< 1) ||| 1) (by omega)
        rwa [digit] at rest
      · have digit := @toNat_digit_zero quotient (by omega)
        have rest := @ih (by omega) ((hi <<< 1) ||| (lo >>> 127)) (lo <<< 1) (quotient <<< 1) (by omega)
        rw [digit] at rest
        exact Nat.lt_of_lt_of_le rest (Nat.mul_le_mul_right _ (by omega))

/-- Taking the divisor off at its place does not change the remainders to come. -/
theorem remainder_taken {dividend rounds place : Nat} (enough : divisor.toNat * 2 ^ rounds ≤ dividend)
    (later : place ≤ rounds) :
    (dividend - divisor.toNat * 2 ^ rounds) / 2 ^ (rounds - place) % divisor.toNat =
      dividend / 2 ^ (rounds - place) % divisor.toNat := by
  have places : divisor.toNat * 2 ^ rounds = 2 ^ (rounds - place) * (2 ^ place * divisor.toNat) := by
    rw [← Nat.mul_assoc, ← Nat.pow_add, Nat.sub_add_cancel later, Nat.mul_comm]
  rw [places] at enough ⊢
  rw [Nat.sub_mul_div_of_le _ _ _ enough]
  have fits : 2 ^ place * divisor.toNat ≤ dividend / 2 ^ (rounds - place) :=
    (Nat.le_div_iff_mul_le (Nat.two_pow_pos _)).mpr (Nat.mul_comm .. ▸ enough)
  conv_rhs => rw [← Nat.sub_add_cancel fits, Nat.add_mul_mod_self_right]

/-- The part of the dividend that a number of rounds is left for. -/
def remaining (hi lo rounds : Nat) : Nat := hi * 2 ^ rounds + lo / 2 ^ (128 - rounds)

theorem remaining_div {rounds lo : Nat} (within : rounds ≤ 128) (word : lo < 2 ^ 128) (hi : Nat) :
    remaining hi lo rounds / 2 ^ rounds = hi := by
  have low : lo / 2 ^ (128 - rounds) < 2 ^ rounds := by
    rw [Nat.div_lt_iff_lt_mul (Nat.two_pow_pos _), ← Nat.pow_add, Nat.add_sub_cancel' within]
    exact word
  rw [remaining, Nat.add_comm, Nat.add_mul_div_right _ _ (Nat.two_pow_pos _), Nat.div_eq_of_lt low,
    Nat.zero_add]

/-- A remainder that needs one bit more than there is loses the digit that is due next. -/
theorem divideRounds_loses {rounds : Nat} (within : rounds + 1 ≤ 128) {hi lo quotient : U128}
    (below : hi.toNat < divisor.toNat) (room : quotient.toNat < 2 ^ (128 - (rounds + 1)))
    (wide : 2 ^ 127 ≤ hi.toNat) :
    (divideRounds divisor (rounds + 1) hi lo quotient).toNat < quotient.toNat * 2 ^ (rounds + 1) +
      remaining hi.toNat lo.toNat (rounds + 1) / divisor.toNat := by
  have loWord := lo.isLt
  have divisorWord := divisor.isLt
  obtain ⟨inside, word⟩ := room_step within room
  have bit : (lo >>> 127).toNat < 2 := by
    rw [toNat_shiftRight]
    omega
  have newHi : ((hi <<< 1) ||| (lo >>> 127)).toNat = hi.toNat * 2 % 2 ^ 128 + (lo >>> 127).toNat := by
    rw [toNat_shiftLeft_or (by decide) hi bit, pow_one]
  have short : ¬ divisor ≤ (hi <<< 1) ||| (lo >>> 127) := by
    rw [BitVec.le_def, newHi]
    omega
  have digit := @toNat_digit_zero quotient (by omega)
  have coded := @divideRounds_lt divisor rounds (by omega) ((hi <<< 1) ||| (lo >>> 127)) (lo <<< 1)
    (quotient <<< 1) (by omega)
  rw [digit] at coded
  have due : 2 ^ rounds ≤ remaining hi.toNat lo.toNat (rounds + 1) / divisor.toNat := by
    rw [Nat.le_div_iff_mul_le (by omega), remaining, Nat.mul_comm]
    refine Nat.le_add_right_of_le ?_
    rw [Nat.pow_succ', ← Nat.mul_assoc]
    exact Nat.mul_le_mul_right _ (by omega)
  rw [divideRounds, if_neg short]
  calc _ < (quotient.toNat * 2 + 1) * 2 ^ rounds := coded
    _ = quotient.toNat * 2 ^ (rounds + 1) + 2 ^ rounds := by
        rw [Nat.pow_succ]
        ring
    _ ≤ _ := Nat.add_le_add_left due _

/-- The rounds are a long division exactly when no remainder before them takes up the top bit. -/
theorem divideRounds_exact_iff {rounds : Nat} (within : rounds ≤ 128) {hi lo quotient : U128}
    (below : hi.toNat < divisor.toNat) (room : quotient.toNat < 2 ^ (128 - rounds)) :
    (divideRounds divisor rounds hi lo quotient).toNat =
        quotient.toNat * 2 ^ rounds + remaining hi.toNat lo.toNat rounds / divisor.toNat ↔
      ∀ place < rounds,
        remaining hi.toNat lo.toNat rounds / 2 ^ (rounds - place) % divisor.toNat < 2 ^ 127 := by
  induction rounds generalizing hi lo quotient with
  | zero =>
      have loWord := lo.isLt
      have done_ : remaining hi.toNat lo.toNat 0 = hi.toNat := by
        rw [remaining, Nat.sub_zero, Nat.div_eq_of_lt loWord, pow_zero, Nat.mul_one, Nat.add_zero]
      rw [divideRounds, done_, Nat.div_eq_of_lt below, pow_zero, Nat.mul_one, Nat.add_zero]
      exact iff_of_true rfl fun place none_ => absurd none_ (Nat.not_lt_zero place)
  | succ rounds ih =>
      have loWord := lo.isLt
      rw [Nat.forall_lt_succ_left]
      simp only [Nat.sub_zero, Nat.add_sub_add_right]
      rw [remaining_div within loWord, Nat.mod_eq_of_lt below]
      by_cases spare : hi.toNat < 2 ^ 127
      · rw [and_iff_right spare]
        obtain ⟨inside, word⟩ := room_step within room
        have bit : (lo >>> 127).toNat < 2 := by
          rw [toNat_shiftRight]
          omega
        have newHi : ((hi <<< 1) ||| (lo >>> 127)).toNat = hi.toNat * 2 + lo.toNat / 2 ^ 127 := by
          rw [toNat_double_or bit (by omega), toNat_shiftRight]
        have newLo : (lo <<< 1).toNat = lo.toNat * 2 % 2 ^ 128 := by
          rw [BitVec.toNat_shiftLeft, Nat.shiftLeft_eq, pow_one]
        have dividend : remaining ((hi <<< 1) ||| (lo >>> 127)).toNat (lo <<< 1).toNat rounds =
            remaining hi.toNat lo.toNat (rounds + 1) := by
          rw [newHi, newLo]
          exact dividend_step (Nat.lt_of_succ_le within) hi.toNat lo.toNat
        rw [← dividend, divideRounds]
        generalize (hi <<< 1) ||| (lo >>> 127) = next at newHi ⊢
        generalize lo <<< 1 = rest
        split_ifs with enough
        · have enough : divisor.toNat ≤ next.toNat := BitVec.le_def.mp enough
          have remainder : (next - divisor).toNat = next.toNat - divisor.toNat :=
            BitVec.toNat_sub_of_le enough
          have digit := @toNat_digit_one quotient (by omega)
          have later := @ih (by omega) (next - divisor) rest ((quotient <<< 1) ||| 1) (by omega) (by omega)
          have taken : remaining (next - divisor).toNat rest.toNat rounds =
              remaining next.toNat rest.toNat rounds - divisor.toNat * 2 ^ rounds := by
            rw [remaining, remaining, remainder, Nat.sub_mul]
            exact (Nat.sub_add_comm (Nat.mul_le_mul_right _ enough)).symm
          have places : divisor.toNat * 2 ^ rounds ≤ remaining next.toNat rest.toNat rounds :=
            Nat.le_add_right_of_le (Nat.mul_le_mul_right _ enough)
          have due : 2 ^ rounds ≤ remaining next.toNat rest.toNat rounds / divisor.toNat :=
            (Nat.le_div_iff_mul_le (by omega)).mpr (Nat.mul_comm .. ▸ places)
          have value : (quotient.toNat * 2 + 1) * 2 ^ rounds +
              (remaining next.toNat rest.toNat rounds - divisor.toNat * 2 ^ rounds) / divisor.toNat =
                quotient.toNat * 2 ^ (rounds + 1) +
                  remaining next.toNat rest.toNat rounds / divisor.toNat := by
            rw [Nat.sub_mul_div, Nat.add_mul, Nat.one_mul, Nat.mul_assoc, ← Nat.pow_succ', Nat.add_assoc,
              Nat.add_sub_cancel' due]
          rw [taken, digit, value] at later
          rw [later]
          exact forall₂_congr fun place inside => by rw [remainder_taken places (Nat.le_of_lt inside)]
        · have short : next.toNat < divisor.toNat :=
            Nat.lt_of_not_le fun le => enough (BitVec.le_def.mpr le)
          have digit := @toNat_digit_zero quotient (by omega)
          have later := @ih (by omega) next rest (quotient <<< 1) short (by omega)
          rwa [digit, Nat.mul_assoc, ← Nat.pow_succ'] at later
      · refine iff_of_false ?_ fun kept => spare kept.1
        exact Nat.ne_of_lt (divideRounds_loses within below room (Nat.le_of_not_lt spare))

/-- A quotient is out of range exactly when the high word of the dividend reaches the divisor. -/
theorem min_topWord (positive : 0 < divisor.toNat) (dividend : Nat) :
    min (dividend / divisor.toNat) topWord =
      if dividend / 2 ^ 128 < divisor.toNat then dividend / divisor.toNat else topWord := by
  split_ifs with fits
  · rw [Nat.div_lt_iff_lt_mul (Nat.two_pow_pos _), Nat.mul_comm] at fits
    exact min_eq_left (Nat.le_sub_one_of_lt ((Nat.div_lt_iff_lt_mul positive).mpr fits))
  · have beyond : 2 ^ 128 ≤ dividend / divisor.toNat := by
      rw [Nat.le_div_iff_mul_le positive, Nat.mul_comm]
      exact (Nat.le_div_iff_mul_le (Nat.two_pow_pos _)).mp (Nat.le_of_not_lt fits)
    exact min_eq_right (Nat.le_trans (Nat.sub_le ..) beyond)

theorem dividend_div (hi lo : U128) : (hi.toNat * 2 ^ 128 + lo.toNat) / 2 ^ 128 = hi.toNat := by
  rw [Nat.add_comm, Nat.add_mul_div_right _ _ (Nat.two_pow_pos _), Nat.div_eq_of_lt lo.isLt,
    Nat.zero_add]

theorem divU256ByU128_exact_iff (positive : 0 < divisor.toNat) (hi lo : U128) :
    (divU256ByU128 hi lo divisor).toNat = min ((hi.toNat * 2 ^ 128 + lo.toNat) / divisor.toNat) topWord ↔
      KeepsRemainders (hi.toNat * 2 ^ 128 + lo.toNat) divisor.toNat := by
  have some_ : divisor ≠ 0 := by
    rintro rfl
    exact absurd positive (by decide)
  rw [min_topWord positive, KeepsRemainders, dividend_div]
  unfold divU256ByU128
  rw [if_neg some_]
  by_cases large : hi ≥ divisor
  · have outside : ¬ hi.toNat < divisor.toNat := Nat.not_lt_of_le (BitVec.le_def.mp large)
    rw [if_pos large, if_neg outside, toNat_max]
    exact iff_of_true rfl fun inside => absurd inside outside
  · have below : hi.toNat < divisor.toNat := Nat.lt_of_not_le fun le => large (BitVec.le_def.mpr le)
    have rounds := @divideRounds_exact_iff divisor 128 (by decide) hi lo 0 below (by decide)
    rw [remaining, Nat.sub_self, pow_zero, Nat.div_one, toNat_zero, Nat.zero_mul, Nat.zero_add] at rounds
    rw [if_neg large, if_pos below, rounds, forall_prop_of_true below]

/-- No remainder by a divisor of at most `2 ^ 127` reaches it. -/
theorem keepsRemainders_of_narrow (positive : 0 < divisor.toNat) (narrow : divisor.toNat ≤ 2 ^ 127)
    (dividend : Nat) : KeepsRemainders dividend divisor.toNat :=
  fun _ _ _ => Nat.lt_of_lt_of_le (Nat.mod_lt _ positive) narrow

theorem divU256ByU128_toNat (positive : 0 < divisor.toNat) (narrow : divisor.toNat ≤ 2 ^ 127)
    (hi lo : U128) :
    (divU256ByU128 hi lo divisor).toNat = min ((hi.toNat * 2 ^ 128 + lo.toNat) / divisor.toNat) topWord :=
  (divU256ByU128_exact_iff positive hi lo).mpr (keepsRemainders_of_narrow positive narrow _)

theorem rationalToQ_toNat {num : U128} (positive : 0 < divisor.toNat) (narrow : divisor.toNat ≤ 2 ^ 127) :
    (rationalToQ num divisor).toNat = FixedPoint.ofRatio 123 topWord num.toNat divisor.toNat := by
  have some_ : divisor ≠ 0 := by
    rintro rfl
    exact absurd positive (by decide)
  have product := mulU128Full_toNat num oneQ
  unfold rationalToQ FixedPoint.ofRatio
  rw [if_neg some_]
  rw [toNat_oneQ] at product
  rw [← product]
  exact divU256ByU128_toNat positive narrow _ _

/-- A power of two moves up and out, past a divisor that is larger than every power. -/
theorem divideRounds_wide (wide : 2 ^ 127 < divisor.toNat) (rounds : Nat) {hi : U128}
    (power : hi = 0 ∨ ∃ place, hi.toNat = 2 ^ place) : divideRounds divisor rounds hi 0 0 = 0 := by
  induction rounds generalizing hi with
  | zero => rfl
  | succ rounds ih =>
      have moved : ((hi <<< 1) ||| ((0 : U128) >>> 127)) = hi <<< 1 := BitVec.or_zero
      have power : hi <<< 1 = 0 ∨ ∃ place, (hi <<< 1).toNat = 2 ^ place := by
        rcases power with rfl | ⟨place, isPower⟩
        · exact .inl rfl
        · have inside : place < 128 := (Nat.pow_lt_pow_iff_right (by decide)).mp (isPower ▸ hi.isLt)
          have doubled : (hi <<< 1).toNat = 2 ^ (place + 1) % 2 ^ 128 := by
            rw [BitVec.toNat_shiftLeft, Nat.shiftLeft_eq, isPower, ← Nat.pow_add]
          by_cases last : place = 127
          · subst last
            exact .inl (BitVec.eq_of_toNat_eq doubled)
          · refine .inr ⟨place + 1, ?_⟩
            rw [doubled]
            exact Nat.mod_eq_of_lt (Nat.pow_lt_pow_right (by decide) (by omega))
      have short : ¬ divisor ≤ hi <<< 1 := by
        rw [BitVec.le_def]
        rcases power with none | ⟨place, isPower⟩
        · rw [none, toNat_zero]
          omega
        · have word := (hi <<< 1).isLt
          rw [isPower] at word ⊢
          have inside : place < 128 := (Nat.pow_lt_pow_iff_right (by decide)).mp word
          have := Nat.pow_le_pow_right (n := 2) (by decide) (Nat.le_of_lt_succ inside)
          omega
      rw [divideRounds]
      simp only [moved]
      rw [if_neg short]
      exact ih power

theorem divQ_one (atLeast : 2 ^ 123 ≤ divisor.toNat) :
    (divQ oneQ divisor).toNat = if divisor.toNat ≤ 2 ^ 127 then 2 ^ 246 / divisor.toNat else 0 := by
  have some_ : divisor ≠ 0 := by
    rintro rfl
    exact absurd atLeast (by decide)
  unfold divQ
  rw [if_neg some_]
  split_ifs with narrow
  · have quotient := divU256ByU128_toNat (by omega) narrow (oneQ >>> (128 - fpBits)) (oneQ <<< fpBits)
    have dividend : (oneQ >>> (128 - fpBits)).toNat * 2 ^ 128 + (oneQ <<< fpBits).toNat = 2 ^ 246 := by
      decide
    rw [dividend] at quotient
    rw [quotient, min_eq_left]
    refine Nat.le_trans (Nat.div_le_div_left atLeast (by decide)) ?_
    decide
  · have below : ¬ divisor ≤ oneQ >>> (128 - fpBits) := by
      rw [BitVec.le_def]
      intro le
      have small : (oneQ >>> (128 - fpBits)).toNat = 2 ^ 118 := by decide
      rw [small] at le
      omega
    unfold divU256ByU128
    rw [if_neg some_, if_neg below]
    have rounds := divideRounds_wide (Nat.lt_of_not_le narrow) 128
      (.inr ⟨118, (by decide : (oneQ >>> (128 - fpBits)).toNat = 2 ^ 118)⟩)
    have lo : oneQ <<< fpBits = 0 := by decide
    rw [lo, rounds]
    rfl

end

/-! ## The kernels together -/

theorem divQ_exact_iff {a b : U128} (positive : 0 < b.toNat) :
    (divQ a b).toNat = min (a.toNat * 2 ^ 123 / b.toNat) topWord ↔
      KeepsRemainders (a.toNat * 2 ^ 123) b.toNat := by
  have some_ : b ≠ 0 := by
    rintro rfl
    exact absurd positive (by decide)
  have dividend : (a >>> (128 - fpBits)).toNat * 2 ^ 128 + (a <<< fpBits).toNat = a.toNat * 2 ^ 123 := by
    have word := a.isLt
    rw [toNat_shiftRight, BitVec.toNat_shiftLeft, Nat.shiftLeft_eq]
    simp only [fpBits]
    omega
  unfold divQ
  rw [if_neg some_, ← dividend]
  exact divU256ByU128_exact_iff positive _ _

/-- The multiplication is always exact, the division where it keeps its remainders. -/
theorem kernels_exact_iff (a b hi lo : U128) :
    KernelsExact a b hi lo ↔ KeepsRemainders (hi.toNat * 2 ^ 128 + lo.toNat) b.toNat ∧
      KeepsRemainders (a.toNat * 2 ^ 123) b.toNat := by
  have quotient : 0 < b.toNat → ((divU256ByU128 hi lo b).toNat =
      (if hi < b then (hi.toNat * 2 ^ 128 + lo.toNat) / b.toNat else 2 ^ 128 - 1) ↔
        KeepsRemainders (hi.toNat * 2 ^ 128 + lo.toNat) b.toNat) := by
    intro positive
    rw [← divU256ByU128_exact_iff positive, min_topWord positive, dividend_div]
    rfl
  constructor
  · intro exact_
    rcases Nat.eq_zero_or_pos b.toNat with zero | positive
    · rw [zero]
      exact ⟨fun none_ => absurd none_ (Nat.not_lt_zero _), fun none_ => absurd none_ (Nat.not_lt_zero _)⟩
    · exact ⟨(quotient positive).mp (exact_.quotient positive),
        (divQ_exact_iff positive).mp (exact_.divQ positive)⟩
  · rintro ⟨kept, kept'⟩
    exact {
      product := mulU128Full_toNat a b
      noOverflow := checkedMulU128Full_eq a b
      mulQ := toNat_mulQ a b
      quotient := fun positive => (quotient positive).mpr kept
      divQ := fun positive => (divQ_exact_iff positive).mpr kept' }

/-- A quotient of `2 ^ 118` comes out as nothing. -/
theorem wide_divisor_loses_quotient :
    divQ oneQ U128.max = 0 ∧ divU256ByU128 (1 <<< 118) 0 U128.max = 0 ∧
      2 ^ 123 * 2 ^ 123 / (2 ^ 128 - 1) = 2 ^ 118 ∧ ¬ KernelsExact oneQ U128.max (1 <<< 118) 0 := by
  have lost : divQ oneQ U128.max = 0 := by decide +kernel
  refine ⟨lost, by decide, by decide, fun exact_ => ?_⟩
  have value := exact_.divQ (by decide)
  rw [lost] at value
  revert value
  decide

end Ade.Proof.Consensus
