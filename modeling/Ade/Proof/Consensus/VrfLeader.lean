import Ade.Proof.Consensus.VrfKernels

/-! More stake and more active slots make a leader, and only the fraction of the stake counts. -/

namespace Ade.Proof.Consensus
open Library Ade.Consensus

/-! ## More is more -/

section
variable {a a' b b' : U128}

theorem mulQ_mono (first : a ≤ a') (second : b ≤ b') : mulQ a b ≤ mulQ a' b' := by
  rw [BitVec.le_def, toNat_mulQ, toNat_mulQ]
  exact FixedPoint.mul_le_mul (BitVec.le_def.mp first) (BitVec.le_def.mp second)

theorem saturatingAdd_mono (first : a ≤ a') (second : b ≤ b') : a.saturatingAdd b ≤ a'.saturatingAdd b' := by
  rw [BitVec.le_def, toNat_saturatingAdd, toNat_saturatingAdd]
  exact min_le_min_right topWord (Nat.add_le_add (BitVec.le_def.mp first) (BitVec.le_def.mp second))

theorem div_mono (more : a ≤ a') (n : U128) : a / n ≤ a' / n := by
  rw [BitVec.le_def, BitVec.toNat_udiv, BitVec.toNat_udiv]
  exact Nat.div_le_div_right (BitVec.le_def.mp more)

theorem le_add_saturated (a b : U128) : a ≤ a.saturatingAdd b := by
  rw [BitVec.le_def, toNat_saturatingAdd]
  exact Nat.le_min.mpr ⟨Nat.le_add_right .., toNat_le_topWord a⟩

theorem saturatingSub_mono (less : b' ≤ b) : a.saturatingSub b ≤ a.saturatingSub b' := by
  unfold U128.saturatingSub
  rw [BitVec.le_def] at less
  split_ifs with within within' within'
  · rw [BitVec.le_def] at within within' ⊢
    rw [BitVec.toNat_sub_of_le (BitVec.le_def.mpr within), BitVec.toNat_sub_of_le (BitVec.le_def.mpr within')]
    omega
  · rw [BitVec.le_def] at within within'
    omega
  · exact BitVec.le_def.mpr (Nat.zero_le _)
  · exact BitVec.le_refl _

end

section
variable {f f' term term' sum sum' : U128}

theorem lnRounds_mono (rounds : Nat) (n : U128) (more : f ≤ f') (terms : term ≤ term') (sums : sum ≤ sum') :
    lnRounds f rounds term sum n ≤ lnRounds f' rounds term' sum' n := by
  induction rounds generalizing term term' sum sum' n with
  | zero => exact sums
  | succ rounds ih =>
      exact ih (n + 1) (mulQ_mono terms more) (saturatingAdd_mono sums (div_mono terms n))

theorem expRounds_mono (rounds : Nat) (n : U128) (more : f ≤ f') (terms : term ≤ term') (sums : sum ≤ sum') :
    expRounds f rounds term sum n ≤ expRounds f' rounds term' sum' n := by
  induction rounds generalizing term term' sum sum' n with
  | zero => exact sums
  | succ rounds ih =>
      have next := div_mono (mulQ_mono terms more) n
      exact ih (n + 1) next (saturatingAdd_mono sums next)

/-- Nothing is taken away from the sum. -/
theorem le_expRounds (x : U128) (rounds : Nat) (term sum n : U128) : sum ≤ expRounds x rounds term sum n := by
  induction rounds generalizing term sum n with
  | zero => exact BitVec.le_refl _
  | succ rounds ih => exact BitVec.le_trans (le_add_saturated sum _) (ih ..)

end

theorem expNegQ_anti {y y' : U128} (more : y ≤ y') : expNegQ y' ≤ expNegQ y := by
  have atLeast : ∀ x, 2 ^ 123 ≤ (expPosQ x).toNat := fun x =>
    BitVec.le_def.mp (le_expRounds x 18 oneQ oneQ 1)
  have some_ : ∀ x, expPosQ x ≠ 0 := by
    intro x none
    have positive := atLeast x
    rw [none, toNat_zero] at positive
    omega
  have larger : (expPosQ y).toNat ≤ (expPosQ y').toNat :=
    BitVec.le_def.mp (expRounds_mono 18 1 more (BitVec.le_refl _) (BitVec.le_refl _))
  unfold expNegQ
  simp only [if_neg (some_ _)]
  rw [BitVec.le_def, divQ_one (atLeast y'), divQ_one (atLeast y)]
  split_ifs with narrow' narrow narrow
  · exact Nat.div_le_div_left larger (Nat.lt_of_lt_of_le (by decide) (atLeast y))
  · omega
  · exact Nat.zero_le _
  · exact Nat.le_refl _

/-! ## The threshold -/

theorem toNat_ofWord {n : Nat} (small : n < 2 ^ 64) : (BitVec.ofNat 128 n).toNat = n := by
  rw [BitVec.toNat_ofNat]
  omega

theorem ratio_toNat {num den : Nat} (small : num < 2 ^ 64) (small' : den < 2 ^ 64) (positive : 0 < den) :
    (rationalToQ (BitVec.ofNat 128 num) (BitVec.ofNat 128 den)).toNat = FixedPoint.ofRatio 123 topWord num den := by
  have denIs := toNat_ofWord small'
  rw [rationalToQ_toNat (by omega) (by omega), toNat_ofWord small, denIs]

theorem threshold_mono {asc asc' : ActiveSlotsCoeff} {sigma sigma' : StakeFraction}
    (slots : absLnOneMinusF asc ≤ absLnOneMinusF asc')
    (stake : rationalToQ (BitVec.ofNat 128 sigma.numer.toNat) (BitVec.ofNat 128 sigma.denom.toNat) ≤
      rationalToQ (BitVec.ofNat 128 sigma'.numer.toNat) (BitVec.ofNat 128 sigma'.denom.toNat)) :
    oneMinusOneMinusFPowSigma asc sigma ≤ oneMinusOneMinusFPowSigma asc' sigma' :=
  saturatingSub_mono (expNegQ_anti (mulQ_mono stake slots))

/-! ## The leader -/

theorem isLeader_iff {output : VrfOutput} {sigma : StakeFraction} {asc : ActiveSlotsCoeff} :
    isLeader output sigma asc = true ↔ sigma.numer ≠ 0 ∧ sigma.denom ≠ 0 ∧ asc.denom ≠ 0 ∧
      (asc.denom ≤ asc.numer ∨
        asc.numer ≠ 0 ∧ leaderValueQ output < oneMinusOneMinusFPowSigma asc sigma) := by
  unfold isLeader
  split_ifs with zero noDenom shortcut none
  · simp only [false_iff]
    tauto
  · simp [noDenom]
  · simp only [true_iff]
    tauto
  · simp only [false_iff]
    tauto
  · rw [decide_eq_true_iff]
    tauto

/-- A validator accepts the claim of exactly those that the producer takes for leaders. -/
theorem checkLeaderClaim_ok (output : VrfOutput) (sigma : StakeFraction) (asc : ActiveSlotsCoeff) :
    checkLeaderClaim output sigma asc = .ok () ↔ isLeader output sigma asc = true := by
  unfold checkLeaderClaim
  split_ifs with leads
  · exact iff_of_true rfl leads
  · exact iff_of_false nofun leads

theorem word_lt_of_lt_of_le {a b c : U128} (below : a < b) (more : b ≤ c) : a < c :=
  BitVec.lt_def.mpr (Nat.lt_of_lt_of_le (BitVec.lt_def.mp below) (BitVec.le_def.mp more))

theorem leads_with_more_stake {output : VrfOutput} {asc : ActiveSlotsCoeff} {numer numer' denom : UInt64}
    (more : numer ≤ numer') (leads : isLeader output ⟨numer, denom⟩ asc = true) :
    isLeader output ⟨numer', denom⟩ asc = true := by
  obtain ⟨some_, denom_, ascDenom, eligible⟩ := isLeader_iff.mp leads
  have positive : 0 < denom.toNat := Nat.pos_of_ne_zero fun zero => denom_ (UInt64.toNat_inj.mp zero)
  have more : numer.toNat ≤ numer'.toNat := UInt64.le_iff_toNat_le.mp more
  have stake : rationalToQ (BitVec.ofNat 128 numer.toNat) (BitVec.ofNat 128 denom.toNat) ≤
      rationalToQ (BitVec.ofNat 128 numer'.toNat) (BitVec.ofNat 128 denom.toNat) := by
    rw [BitVec.le_def, ratio_toNat numer.toNat_lt denom.toNat_lt positive,
      ratio_toNat numer'.toNat_lt denom.toNat_lt positive]
    exact FixedPoint.ofRatio_mono denom.toNat more
  have some' : numer' ≠ 0 := by
    rintro rfl
    exact some_ (UInt64.toNat_inj.mp (Nat.le_zero.mp more))
  refine isLeader_iff.mpr ⟨some', denom_, ascDenom, eligible.imp id fun ⟨slots, below⟩ => ⟨slots, ?_⟩⟩
  have threshold := @threshold_mono asc asc ⟨numer, denom⟩ ⟨numer', denom⟩ (BitVec.le_refl _) stake
  exact word_lt_of_lt_of_le below threshold

theorem leads_with_more_slots {output : VrfOutput} {sigma : StakeFraction} {numer numer' denom : UInt32}
    (more : numer ≤ numer') (leads : isLeader output sigma ⟨numer, denom⟩ = true) :
    isLeader output sigma ⟨numer', denom⟩ = true := by
  obtain ⟨stake, sigmaDenom, denom_, eligible⟩ := isLeader_iff.mp leads
  refine isLeader_iff.mpr ⟨stake, sigmaDenom, denom_, ?_⟩
  rcases eligible with whole | ⟨slots, below⟩
  · exact .inl (UInt32.le_trans whole more)
  · have positive : 0 < denom.toNat := Nat.pos_of_ne_zero fun zero => denom_ (UInt32.toNat_inj.mp zero)
    have more : numer.toNat ≤ numer'.toNat := UInt32.le_iff_toNat_le.mp more
    have words : ∀ word : UInt32, word.toNat < 2 ^ 64 := fun word => Nat.lt_trans word.toNat_lt (by decide)
    have slots' : numer' ≠ 0 := by
      rintro rfl
      exact slots (UInt32.toNat_inj.mp (Nat.le_zero.mp more))
    have fraction : rationalToQ (BitVec.ofNat 128 numer.toNat) (BitVec.ofNat 128 denom.toNat) ≤
        rationalToQ (BitVec.ofNat 128 numer'.toNat) (BitVec.ofNat 128 denom.toNat) := by
      rw [BitVec.le_def, ratio_toNat (words numer) (words denom) positive,
        ratio_toNat (words numer') (words denom) positive]
      exact FixedPoint.ofRatio_mono denom.toNat more
    have logarithm : absLnOneMinusF ⟨numer, denom⟩ ≤ absLnOneMinusF ⟨numer', denom⟩ :=
      lnRounds_mono 18 1 fraction fraction (BitVec.le_refl _)
    exact .inr ⟨slots', word_lt_of_lt_of_le below (threshold_mono logarithm (BitVec.le_refl _))⟩

/-- The same rational number. Two fractions without a denominator are not told apart. -/
def SameFraction (sigma sigma' : StakeFraction) : Prop :=
  sigma.numer.toNat * sigma'.denom.toNat = sigma'.numer.toNat * sigma.denom.toNat ∧
    (sigma.denom = 0 ↔ sigma'.denom = 0)

theorem isLeader_congr {sigma sigma' : StakeFraction} (same : SameFraction sigma sigma') (output : VrfOutput)
    (asc : ActiveSlotsCoeff) : isLeader output sigma asc = isLeader output sigma' asc := by
  obtain ⟨cross, denoms⟩ := same
  by_cases none : sigma.denom = 0
  · have none' := denoms.mp none
    simp [isLeader, none, none']
  · have none' : sigma'.denom ≠ 0 := fun zero => none (denoms.mpr zero)
    have positive : 0 < sigma.denom.toNat := Nat.pos_of_ne_zero fun zero => none (UInt64.toNat_inj.mp zero)
    have positive' : 0 < sigma'.denom.toNat :=
      Nat.pos_of_ne_zero fun zero => none' (UInt64.toNat_inj.mp zero)
    have numers : sigma.numer = 0 ↔ sigma'.numer = 0 := by
      rw [← UInt64.toNat_inj, ← UInt64.toNat_inj]
      change sigma.numer.toNat = 0 ↔ sigma'.numer.toNat = 0
      constructor
      · intro zero
        rw [zero, Nat.zero_mul] at cross
        exact (Nat.mul_eq_zero.mp cross.symm).resolve_right positive.ne'
      · intro zero
        rw [zero, Nat.zero_mul] at cross
        exact (Nat.mul_eq_zero.mp cross).resolve_right positive'.ne'
    have ratio : rationalToQ (BitVec.ofNat 128 sigma.numer.toNat) (BitVec.ofNat 128 sigma.denom.toNat) =
        rationalToQ (BitVec.ofNat 128 sigma'.numer.toNat) (BitVec.ofNat 128 sigma'.denom.toNat) := by
      apply BitVec.eq_of_toNat_eq
      rw [ratio_toNat sigma.numer.toNat_lt sigma.denom.toNat_lt positive,
        ratio_toNat sigma'.numer.toNat_lt sigma'.denom.toNat_lt positive']
      exact FixedPoint.ofRatio_congr positive positive' cross
    have threshold : oneMinusOneMinusFPowSigma asc sigma = oneMinusOneMinusFPowSigma asc sigma' := by
      unfold oneMinusOneMinusFPowSigma
      rw [ratio]
    rw [Bool.eq_iff_iff, isLeader_iff, isLeader_iff, threshold, ne_eq, numers]
    simp only [ne_eq, none, none']

/-- More stake, more active slots, and another form of the same fraction. -/
theorem is_leader_monotone (output : VrfOutput) :
    (∀ (asc : ActiveSlotsCoeff) (numer numer' denom : UInt64), numer ≤ numer' →
      isLeader output ⟨numer, denom⟩ asc = true → isLeader output ⟨numer', denom⟩ asc = true) ∧
    (∀ (sigma : StakeFraction) (numer numer' denom : UInt32), numer ≤ numer' →
      isLeader output sigma ⟨numer, denom⟩ = true → isLeader output sigma ⟨numer', denom⟩ = true) ∧
    (∀ (asc : ActiveSlotsCoeff) (sigma sigma' : StakeFraction), SameFraction sigma sigma' →
      isLeader output sigma asc = isLeader output sigma' asc) ∧
    ∀ (asc : ActiveSlotsCoeff) (numer denom factor : UInt64), factor ≠ 0 →
      numer.toNat * factor.toNat < 2 ^ 64 → denom.toNat * factor.toNat < 2 ^ 64 →
      isLeader output ⟨numer * factor, denom * factor⟩ asc = isLeader output ⟨numer, denom⟩ asc := by
  refine ⟨fun _ _ _ _ => leads_with_more_stake, fun _ _ _ _ => leads_with_more_slots,
    fun asc _ _ same => isLeader_congr same output asc, ?_⟩
  intro asc numer denom factor some_ numerFits denomFits
  have numer_ : (numer * factor).toNat = numer.toNat * factor.toNat := by
    rw [UInt64.toNat_mul, Nat.mod_eq_of_lt numerFits]
  have denom_ : (denom * factor).toNat = denom.toNat * factor.toNat := by
    rw [UInt64.toNat_mul, Nat.mod_eq_of_lt denomFits]
  have positive : factor.toNat ≠ 0 := fun zero => some_ (UInt64.toNat_inj.mp zero)
  refine isLeader_congr ⟨?_, ?_⟩ output asc
  · rw [numer_, denom_]
    ring
  · rw [← UInt64.toNat_inj, ← UInt64.toNat_inj, denom_]
    exact Nat.mul_eq_zero.trans (or_iff_left positive)

/-- The leader value is 1/8. -/
def sampleOutput : VrfOutput := Vector.ofFn fun i => if i = 0 then 32 else 0

theorem is_leader_monotone_sample :
    isLeader sampleOutput ⟨3, 4⟩ ⟨1, 4⟩ = true ∧ isLeader sampleOutput ⟨2, 4⟩ ⟨4, 4⟩ = true ∧
      isLeader sampleOutput ⟨6, 12⟩ ⟨1, 4⟩ = isLeader sampleOutput ⟨2, 4⟩ ⟨1, 4⟩ := by
  have leads : isLeader sampleOutput ⟨2, 4⟩ ⟨1, 4⟩ = true := by decide +kernel
  obtain ⟨stake, slots, -, scaled⟩ := is_leader_monotone sampleOutput
  exact ⟨stake ⟨1, 4⟩ 2 3 4 (by decide) leads, slots ⟨2, 4⟩ 1 4 4 (by decide) leads,
    scaled ⟨1, 4⟩ 2 4 3 (by decide) (by decide) (by decide)⟩

end Ade.Proof.Consensus
