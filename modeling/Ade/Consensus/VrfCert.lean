import Ade.Consensus.Header

/-! The leader threshold `1 - (1 - f)^σ`, in fixed point with 123 fractional bits. -/

namespace Ade.Consensus
open Library

abbrev U128 := BitVec 128

def U128.max : U128 := BitVec.allOnes 128

def U128.saturatingAdd (a b : U128) : U128 :=
  if a.toNat + b.toNat < 2 ^ 128 then a + b else U128.max

def U128.saturatingSub (a b : U128) : U128 := if b ≤ a then a - b else 0

def fpBits : Nat := 123

def oneQ : U128 := 1 <<< fpBits

/-! ## Two words -/

def lowMask : U128 := 0xffffffffffffffff

/-- The high and the low word of a product, from the halves of its factors. -/
def mulU128Full (a b : U128) : U128 × U128 :=
  let aLo := (a.setWidth 64).setWidth 128
  let aHi := a >>> 64
  let bLo := (b.setWidth 64).setWidth 128
  let bHi := b >>> 64
  let ll := aLo * bLo
  let lh := aLo * bHi
  let hl := aHi * bLo
  let hh := aHi * bHi
  let mid := (ll >>> 64) + (lh &&& lowMask) + (hl &&& lowMask)
  let lo := (mid <<< 64) ||| (ll &&& lowMask)
  let hi := hh + (lh >>> 64) + (hl >>> 64) + (mid >>> 64)
  (hi, lo)

def shrU256 (hi lo : U128) (shift : Nat) : U128 :=
  if shift = 0 then lo
  else if shift < 128 then (lo >>> shift) ||| (hi <<< (128 - shift))
  else if shift = 128 then hi
  else hi >>> (shift - 128)

def mulQ (a b : U128) : U128 :=
  let (hi, lo) := mulU128Full a b
  if hi ≥ 1 <<< fpBits then U128.max else shrU256 hi lo fpBits

/-- The rounds of the division, one for each bit of the quotient. The bit that leaves `hi` is lost. -/
def divideRounds (divisor : U128) : Nat → U128 → U128 → U128 → U128
  | 0, _, _, quotient => quotient
  | rounds + 1, hi, lo, quotient =>
      let newHi := (hi <<< 1) ||| (lo >>> 127)
      let newLo := lo <<< 1
      if newHi ≥ divisor then divideRounds divisor rounds (newHi - divisor) newLo ((quotient <<< 1) ||| 1)
      else divideRounds divisor rounds newHi newLo (quotient <<< 1)

def divU256ByU128 (hi lo divisor : U128) : U128 :=
  if divisor = 0 then U128.max
  else if hi ≥ divisor then U128.max
  else divideRounds divisor 128 hi lo 0

def divQ (a b : U128) : U128 :=
  if b = 0 then U128.max else divU256ByU128 (a >>> (128 - fpBits)) (a <<< fpBits) b

def rationalToQ (num den : U128) : U128 :=
  if den = 0 then U128.max
  else
    let (hi, lo) := mulU128Full num oneQ
    divU256ByU128 hi lo den

def qToHighBe8 (q : U128) : Vector UInt8 8 :=
  let clamped := if q ≥ oneQ then oneQ - 1 else q
  let bits := (clamped >>> (fpBits - 64)).setWidth 64
  ⟨(toBeBytes 8 bits.toNat).toArray, by simp⟩

/-- The first eight bytes of the output, as the first fractional bits. -/
def leaderValueQ (output : VrfOutput) : U128 :=
  BitVec.ofNat 128 (fromBeBytes (output.toList.take 8)) <<< (fpBits - 64)

/-! ## The series -/

/-- The rounds of `Σ f^n / n` that are left; `term` is `f^n`. -/
def lnRounds (fQ : U128) : Nat → (term sum n : U128) → U128
  | 0, _, sum, _ => sum
  | rounds + 1, term, sum, n => lnRounds fQ rounds (mulQ term fQ) (sum.saturatingAdd (term / n)) (n + 1)

def absLnOneMinusF (asc : ActiveSlotsCoeff) : U128 :=
  let fQ := rationalToQ (BitVec.ofNat 128 asc.numer.toNat) (BitVec.ofNat 128 asc.denom.toNat)
  lnRounds fQ 18 fQ 0 1

/-- The rounds of `Σ x^n / n!` that are left; `term` is the one of the round before. -/
def expRounds (x : U128) : Nat → (term sum n : U128) → U128
  | 0, _, sum, _ => sum
  | rounds + 1, term, sum, n =>
      let term := mulQ term x / n
      expRounds x rounds term (sum.saturatingAdd term) (n + 1)

def expPosQ (x : U128) : U128 := expRounds x 18 oneQ oneQ 1

def expNegQ (y : U128) : U128 :=
  let e := expPosQ y
  if e = 0 then 0 else divQ oneQ e

def oneMinusOneMinusFPowSigma (asc : ActiveSlotsCoeff) (sigma : StakeFraction) : U128 :=
  let absLn := absLnOneMinusF asc
  let sigmaQ := rationalToQ (BitVec.ofNat 128 sigma.numer.toNat) (BitVec.ofNat 128 sigma.denom.toNat)
  let exponent := mulQ sigmaQ absLn
  let pow := expNegQ exponent
  oneQ.saturatingSub pow

/-! ## The leader -/

def isLeader (output : VrfOutput) (sigma : StakeFraction) (asc : ActiveSlotsCoeff) : Bool :=
  if sigma.numer = 0 ∨ sigma.denom = 0 then false
  else if asc.denom = 0 then false
  else if asc.numer ≥ asc.denom then true
  else if asc.numer = 0 then false
  else leaderValueQ output < oneMinusOneMinusFPowSigma asc sigma

def checkLeaderClaim (output : VrfOutput) (sigma : StakeFraction) (asc : ActiveSlotsCoeff) :
    Except VrfCertError Unit :=
  if isLeader output sigma asc then pure ()
  else
    let thresholdQ := oneMinusOneMinusFPowSigma asc sigma
    throw (.leaderValueAboveThreshold (output.take 8) (qToHighBe8 thresholdQ))

/-! ## What the kernels compute -/

def U128.checkedAdd (a b : U128) : Option U128 :=
  if a.toNat + b.toNat < 2 ^ 128 then some (a + b) else none

def U128.checkedMul (a b : U128) : Option U128 :=
  if a.toNat * b.toNat < 2 ^ 128 then some (a * b) else none

/-- `mulU128Full`, with `none` where a sum or a product overflows. -/
def checkedMulU128Full (a b : U128) : Option (U128 × U128) := do
  let aLo := (a.setWidth 64).setWidth 128
  let aHi := a >>> 64
  let bLo := (b.setWidth 64).setWidth 128
  let bHi := b >>> 64
  let ll ← U128.checkedMul aLo bLo
  let lh ← U128.checkedMul aLo bHi
  let hl ← U128.checkedMul aHi bLo
  let hh ← U128.checkedMul aHi bHi
  let mid ← U128.checkedAdd (← U128.checkedAdd (ll >>> 64) (lh &&& lowMask)) (hl &&& lowMask)
  let lo := (mid <<< 64) ||| (ll &&& lowMask)
  let hi ← U128.checkedAdd
    (← U128.checkedAdd (← U128.checkedAdd hh (lh >>> 64)) (hl >>> 64)) (mid >>> 64)
  return (hi, lo)

/-- Where the quotient fits a word, no remainder of the long division takes up the top bit. -/
def KeepsRemainders (dividend divisor : Nat) : Prop :=
  dividend / 2 ^ 128 < divisor → ∀ place < 128, dividend / 2 ^ (128 - place) % divisor < 2 ^ 127

structure KernelsExact (a b hi lo : U128) : Prop where
  product : (mulU128Full a b).1.toNat * 2 ^ 128 + (mulU128Full a b).2.toNat = a.toNat * b.toNat
  noOverflow : checkedMulU128Full a b = some (mulU128Full a b)
  mulQ : (mulQ a b).toNat = min (a.toNat * b.toNat / 2 ^ 123) (2 ^ 128 - 1)
  quotient : 0 < b.toNat → (divU256ByU128 hi lo b).toNat =
    if hi < b then (hi.toNat * 2 ^ 128 + lo.toNat) / b.toNat else 2 ^ 128 - 1
  divQ : 0 < b.toNat → (divQ a b).toNat = min (a.toNat * 2 ^ 123 / b.toNat) (2 ^ 128 - 1)

end Ade.Consensus
