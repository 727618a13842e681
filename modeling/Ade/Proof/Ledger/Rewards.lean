import Ade.Ledger.EpochBoundary
import Ade.Library.Except
import Ade.Proof.Ledger.Rational

namespace Ade.Ledger
open Library
open Std (ExtTreeMap ExtTreeSet)

theorem orOverflow_ok {α : Type} {x : Option α} {value : α} (ran : orOverflow x = .ok value) :
    x = some value := by
  cases x with
  | none => cases ran
  | some found =>
      cases ran
      rfl

theorem mulI128_ok {a b product : Int} (ran : mulI128 a b = .ok product) : product = a * b :=
  checkedMulI128_eq (orOverflow_ok ran)

theorem addU64_ok {a b sum : UInt64} (ran : addU64 a b = .ok sum) :
    sum.toNat = a.toNat + b.toNat :=
  checkedAdd_toNat (orOverflow_ok ran)

theorem floorU64_le {r : Rational} {bound : ℚ} (nonneg : 0 ≤ bound) (below : r.value ≤ bound) :
    ((floorU64 r).toNat : ℚ) ≤ bound := by
  have cast : ((floorU64 r).toNat : Int) ≤ max r.floor 0 := asU64_toNat_le (le_max_right _ _)
  have castRat : ((floorU64 r).toNat : ℚ) ≤ ((max r.floor 0 : Int) : ℚ) := by
    exact_mod_cast cast
  apply castRat.trans
  push_cast
  apply max_le _ nonneg
  rcases r.floor_le_or with floored | negative
  · exact floored.trans below
  · have castNeg : (r.floor : ℚ) ≤ 0 := by exact_mod_cast negative
    exact castNeg.trans nonneg

theorem checkedMul_floor_le {a b : Rational} {bound : ℚ} (nonneg : 0 ≤ bound)
    (below : a.value * b.value ≤ bound) (fallback : UInt64) :
    (((a.checkedMul b).elim fallback floorU64).toNat : ℚ) ≤ bound := by
  obtain ⟨product, multiplied, value⟩ := a.checkedMul_eq b
  rw [multiplied]
  exact floorU64_le nonneg (value ▸ below)

theorem asI128_natAbs_lt (x : UInt64) : (asI128 x).natAbs < 2 ^ 64 := x.toNat_lt

@[simp] theorem cast_asI128 (x : UInt64) : ((asI128 x : Int) : ℚ) = x.toNat := rfl

theorem asI128_ne_zero {x : UInt64} (positive : 0 < x) : asI128 x ≠ 0 := by
  rw [UInt64.lt_iff_toNat_lt] at positive
  exact Int.natCast_ne_zero.mpr positive.ne'

/-! ## The pot -/

theorem value_new_asI128 {a b : UInt64} (positive : 0 < b) (fallback : Rational) :
    ((Rational.new (asI128 a) (asI128 b)).getD fallback).value = (a.toNat : ℚ) / b.toNat := by
  rw [Rational.new_of_ne (asI128_ne_zero positive), Option.getD_some, Rational.value_reduce]
  rfl

theorem eta_mem {d r : Rational} {made slots : UInt64} (ran : eta d made slots = .ok r) :
    0 ≤ r.value ∧ r.value ≤ 1 := by
  have whole : 0 ≤ Rational.one.value ∧ Rational.one.value ≤ 1 := by
    rw [Rational.value_one]
    exact ⟨zero_le_one, le_rfl⟩
  obtain ⟨left, -, ran⟩ := bind_ok ran
  obtain ⟨right, -, ran⟩ := bind_ok ran
  dsimp only at ran
  generalize asU64 _ = expected at ran
  split_ifs at ran with centralized full positive
  · cases ran
    exact whole
  · cases ran
    exact whole
  · cases ran
    rw [value_new_asI128 positive]
    rw [ge_iff_le, UInt64.le_iff_toNat_le, not_le] at full
    have short : (made.toNat : ℚ) ≤ expected.toNat := by
      exact_mod_cast full.le
    exact ⟨by positivity, div_le_one_of_le₀ short (by positivity)⟩
  · cases ran
    exact whole

theorem deltaR1_le {reserves : Coin} {rho eta : Rational}
    (expansion : 0 ≤ rho.value ∧ rho.value ≤ 1) (performed : 0 ≤ eta.value ∧ eta.value ≤ 1) :
    (deltaR1 reserves rho eta).toNat ≤ reserves.toNat := by
  obtain ⟨grown, multiplied, value⟩ := (Rational.fromInteger (asI128 reserves)).checkedMul_eq rho
  have reservesValue : (Rational.fromInteger (asI128 reserves)).value = (reserves.toNat : ℚ) := by
    rw [Rational.value_fromInteger, cast_asI128]
  have bounded : grown.value * eta.value ≤ reserves.toNat := by
    rw [value, reservesValue]
    have rate : rho.value * eta.value ≤ 1 := mul_le_one₀ expansion.2 performed.1 performed.2
    rw [mul_assoc]
    exact mul_le_of_le_one_right (by positivity) rate
  have floored : ((deltaR1 reserves rho eta).toNat : ℚ) ≤ reserves.toNat := by
    rw [deltaR1, multiplied, Option.bind_some]
    exact checkedMul_floor_le (by positivity) bounded 0
  exact_mod_cast floored

theorem treasuryDelta_le {totalReward : Coin} {tau : Rational} (growth : tau.value ≤ 1) :
    (treasuryDelta totalReward tau).toNat ≤ totalReward.toNat := by
  have bounded : (Rational.fromInteger (asI128 totalReward)).value * tau.value ≤
      totalReward.toNat := by
    rw [Rational.value_fromInteger, cast_asI128]
    exact mul_le_of_le_one_right (by positivity) growth
  have floored := checkedMul_floor_le (by positivity) bounded 0
  exact_mod_cast floored

/-! ## The largest reward of a pool -/

namespace RewardInputs

theorem capAt_value {z x r : Rational} (zFits : z.Fits) (xFits : x.Fits)
    (ran : capAt z x = .ok r) : r.value = min x.value z.value := by
  obtain ⟨left, leftRan, ran⟩ := bind_ok ran
  obtain ⟨right, rightRan, ran⟩ := bind_ok ran
  have leftEq := mulI128_ok leftRan
  have rightEq := mulI128_ok rightRan
  rw [xFits.numerator, zFits.denominator] at leftEq
  rw [zFits.numerator, xFits.denominator] at rightEq
  have above : z.value < x.value ↔ left > right := by
    rw [Rational.lt_iff_cross, leftEq, rightEq, gt_iff_lt]
  cases ran
  split_ifs with capped
  · exact (min_eq_right (above.mpr capped).le).symm
  · rw [← above, not_lt] at capped
    exact (min_eq_left capped).symm

/-- Pledge and influence raise a pool's share by at most the factor `1 + a0`. -/
theorem bracket_le {a0 z sigma s : Rational} (influence : 0 ≤ a0.value) (zPos : 0 < z.value)
    (sigmaMem : 0 ≤ sigma.value ∧ sigma.value ≤ z.value)
    (sMem : 0 ≤ s.value ∧ s.value ≤ z.value) :
    ∃ br, bracket a0 z sigma s = some br ∧ br.value ≤ (1 + a0.value) * sigma.value := by
  obtain ⟨gap, gapRan, gapValue⟩ := z.checkedSub_eq sigma
  obtain ⟨factor4, factor4Ran, factor4Value⟩ := gap.checkedDiv_eq zPos.ne'
  obtain ⟨scaled, scaledRan, scaledValue⟩ := s.checkedMul_eq factor4
  obtain ⟨rest, restRan, restValue⟩ := sigma.checkedSub_eq scaled
  obtain ⟨factor3, factor3Ran, factor3Value⟩ := rest.checkedDiv_eq zPos.ne'
  obtain ⟨weight, weightRan, weightValue⟩ := s.checkedMul_eq a0
  obtain ⟨bonus, bonusRan, bonusValue⟩ := weight.checkedMul_eq factor3
  obtain ⟨br, brRan, brValue⟩ := sigma.checkedAdd_eq bonus
  refine ⟨br, ?_, ?_⟩
  · simp only [bracket, gapRan, factor4Ran, scaledRan, restRan, factor3Ran, weightRan, bonusRan,
      brRan, Option.bind_eq_bind, Option.bind_some]
  · have factor4Nonneg : 0 ≤ factor4.value := by
      rw [factor4Value, gapValue]
      exact div_nonneg (sub_nonneg.mpr sigmaMem.2) zPos.le
    have restLe : rest.value ≤ sigma.value := by
      rw [restValue, scaledValue]
      exact sub_le_self _ (mul_nonneg sMem.1 factor4Nonneg)
    have pledgeShare : 0 ≤ s.value / z.value ∧ s.value / z.value ≤ 1 :=
      ⟨div_nonneg sMem.1 zPos.le, div_le_one_of_le₀ sMem.2 zPos.le⟩
    have weighted : s.value / z.value * rest.value ≤ sigma.value := by
      rcases le_total 0 rest.value with nonneg | negative
      · exact (mul_le_of_le_one_left nonneg pledgeShare.2).trans restLe
      · exact (mul_nonpos_of_nonneg_of_nonpos pledgeShare.1 negative).trans sigmaMem.1
    have bonusLe : bonus.value ≤ a0.value * sigma.value := by
      calc bonus.value = a0.value * (s.value / z.value * rest.value) := by
            rw [bonusValue, weightValue, factor3Value]
            ring
        _ ≤ a0.value * sigma.value := mul_le_mul_of_nonneg_left weighted influence
    calc br.value = sigma.value + bonus.value := brValue
      _ ≤ sigma.value + a0.value * sigma.value := by gcongr
      _ = (1 + a0.value) * sigma.value := by ring

variable {inputs : RewardInputs}

theorem maxPool_le (influence : 0 ≤ inputs.protocolParams.poolInfluence.value)
    (desired : 0 < inputs.protocolParams.nOpt) (staked : 0 < inputs.totalStake)
    {params : SnapshotPoolParams} {poolStake largest : UInt64}
    (ran : inputs.maxPool params poolStake = .ok largest) :
    (largest.toNat : ℚ) ≤ inputs.poolRewardPot.toNat * (poolStake.toNat / inputs.totalStake.toNat) := by
  obtain ⟨sigma, sigmaRan, ran⟩ := bind_ok ran
  obtain ⟨s, sRan, ran⟩ := bind_ok ran
  have desiredPos : 0 < inputs.protocolParams.nOpt.toNat := desired
  have small (x : UInt64) : (asI128 x).natAbs < 2 ^ 127 := (asI128_natAbs_lt x).trans (by decide)
  have zFits : ((Rational.new 1 inputs.protocolParams.nOpt.toNat).getD .zero).Fits :=
    Rational.fits_new (by decide) (inputs.protocolParams.nOpt.toNat_lt.trans (by decide))
  have zPos : 0 < ((Rational.new 1 inputs.protocolParams.nOpt.toNat).getD .zero).value := by
    rw [Rational.new_of_ne (Int.natCast_ne_zero.mpr desiredPos.ne'), Option.getD_some,
      Rational.value_reduce]
    positivity
  have capped {x : UInt64} {r : Rational}
      (ran : capAt ((Rational.new 1 inputs.protocolParams.nOpt.toNat).getD .zero)
        ((Rational.new (asI128 x) (asI128 inputs.totalStake)).getD .zero) = .ok r) :
      0 ≤ r.value ∧ r.value ≤ ((Rational.new 1 inputs.protocolParams.nOpt.toNat).getD .zero).value ∧
        r.value ≤ x.toNat / inputs.totalStake.toNat := by
    rw [capAt_value zFits (Rational.fits_new (small x) (small _)) ran, value_new_asI128 staked]
    exact ⟨le_min (by positivity) zPos.le, min_le_right _ _, min_le_left _ _⟩
  obtain ⟨sigmaNonneg, sigmaLe, sigmaShare⟩ := capped sigmaRan
  obtain ⟨sNonneg, sLe, -⟩ := capped sRan
  obtain ⟨br, brRan, brLe⟩ := bracket_le influence zPos ⟨sigmaNonneg, sigmaLe⟩ ⟨sNonneg, sLe⟩
  obtain ⟨scaled, scaledRan, scaledValue⟩ :=
    (Rational.fromInteger (asI128 inputs.poolRewardPot)).checkedMul_eq br
  have divisor : ((Rational.one.checkedAdd inputs.protocolParams.poolInfluence).getD .one).value =
      1 + inputs.protocolParams.poolInfluence.value := by
    rw [Rational.checkedAdd_getD, Rational.value_one]
  have divisorPos : 0 < 1 + inputs.protocolParams.poolInfluence.value := by linarith
  obtain ⟨quotient, quotientRan, quotientValue⟩ :=
    scaled.checkedDiv_eq (divisor ▸ divisorPos.ne')
  simp only [brRan, scaledRan, quotientRan, Option.bind_eq_bind, Option.bind_some] at ran
  cases ran
  apply floorU64_le (by positivity)
  rw [quotientValue, scaledValue, divisor, Rational.value_fromInteger, cast_asI128,
    div_le_iff₀ divisorPos]
  calc (inputs.poolRewardPot.toNat : ℚ) * br.value
      ≤ inputs.poolRewardPot.toNat *
          ((1 + inputs.protocolParams.poolInfluence.value) * sigma.value) := by gcongr
    _ ≤ inputs.poolRewardPot.toNat * ((1 + inputs.protocolParams.poolInfluence.value) *
          (poolStake.toNat / inputs.totalStake.toNat)) := by gcongr
    _ = _ := by ring

theorem performance_value {made poolStake : UInt64} {r : Rational}
    (produced : 0 < inputs.totalBlocksProduced) (staked : 0 < poolStake)
    (ran : inputs.performance made poolStake = .ok r) :
    r.value = (made.toNat * inputs.totalActiveStake.toNat : ℚ) /
      (inputs.totalBlocksProduced.toNat * poolStake.toNat) := by
  unfold performance at ran
  rw [if_pos ⟨produced, staked⟩] at ran
  obtain ⟨num, numRan, ran⟩ := bind_ok ran
  obtain ⟨den, denRan, ran⟩ := bind_ok ran
  have numEq := mulI128_ok numRan
  have denEq := mulI128_ok denRan
  have nonzero : den ≠ 0 := by
    rw [denEq]
    exact mul_ne_zero (asI128_ne_zero produced) (asI128_ne_zero staked)
  cases ran
  rw [Rational.new_of_ne nonzero, Option.getD_some, Rational.value_reduce, numEq, denEq]
  push_cast
  rfl

/-- A pool earns at most the part of the pot that matches its part of the blocks. -/
theorem poolMax_le (influence : 0 ≤ inputs.protocolParams.poolInfluence.value)
    (desired : 0 < inputs.protocolParams.nOpt) (staked : 0 < inputs.totalStake)
    (active : inputs.totalActiveStake ≤ inputs.totalStake)
    (produced : 0 < inputs.totalBlocksProduced) {params : SnapshotPoolParams}
    {made poolStake largest : UInt64} {rate : Rational}
    (performed : inputs.performance made poolStake = .ok rate)
    (ran : inputs.maxPool params poolStake = .ok largest) (earns : largest ≠ 0) :
    0 < poolStake ∧ ((poolMax largest rate).toNat : ℚ) ≤
      inputs.poolRewardPot.toNat * made.toNat / inputs.totalBlocksProduced.toNat := by
  have bounded := maxPool_le influence desired staked ran
  have poolStaked : 0 < poolStake := by
    rw [UInt64.pos_iff_ne_zero]
    rintro rfl
    apply earns
    have none : (largest.toNat : ℚ) ≤ 0 := by simpa using bounded
    apply UInt64.toNat.inj
    exact_mod_cast le_antisymm none (by positivity)
  have stakeCast : (0 : ℚ) < poolStake.toNat := by exact_mod_cast poolStaked
  have totalCast : (0 : ℚ) < inputs.totalStake.toNat := by exact_mod_cast staked
  have blocksCast : (0 : ℚ) < inputs.totalBlocksProduced.toNat := by exact_mod_cast produced
  have activeCast : (inputs.totalActiveStake.toNat : ℚ) ≤ inputs.totalStake.toNat := by
    exact_mod_cast active
  refine ⟨poolStaked, checkedMul_floor_le (by positivity) ?_ _⟩
  rw [Rational.value_fromInteger, cast_asI128, performance_value produced poolStaked performed]
  calc (largest.toNat : ℚ) * (made.toNat * inputs.totalActiveStake.toNat /
          (inputs.totalBlocksProduced.toNat * poolStake.toNat))
      ≤ inputs.poolRewardPot.toNat * (poolStake.toNat / inputs.totalStake.toNat) *
          (made.toNat * inputs.totalActiveStake.toNat /
            (inputs.totalBlocksProduced.toNat * poolStake.toNat)) := by gcongr
    _ = inputs.poolRewardPot.toNat * made.toNat / inputs.totalBlocksProduced.toNat *
          (inputs.totalActiveStake.toNat / inputs.totalStake.toNat) := by
        field_simp
    _ ≤ inputs.poolRewardPot.toNat * made.toNat / inputs.totalBlocksProduced.toNat := by
        apply mul_le_of_le_one_right (by positivity)
        exact div_le_one_of_le₀ activeCast totalCast.le

end RewardInputs

/-! ## Owners and members -/

theorem mem_delegatorStakes {snapshot : StakeSnapshot} {poolId : PoolId} {cred : StakeCredential}
    {stake : Coin} :
    (cred, stake) ∈ snapshot.delegatorStakes poolId ↔
      snapshot.delegations[cred]? = some (poolId, stake) := by
  unfold StakeSnapshot.delegatorStakes
  rw [List.mem_map]
  constructor
  · rintro ⟨⟨owner, home, coin⟩, member, same⟩
    obtain ⟨listed, isHome⟩ := List.mem_filter.mp member
    rw [decide_eq_true_eq] at isHome
    cases same
    rw [← show home = poolId from isHome]
    exact BTreeMap.mem_toList.mp listed
  · intro found
    refine ⟨(cred, poolId, stake), List.mem_filter.mpr ⟨BTreeMap.mem_toList.mpr found, ?_⟩, rfl⟩
    exact decide_eq_true rfl

/-- The owners' entries among the delegators of a pool. -/
def ownerEntries (snapshot : StakeSnapshot) (poolId : PoolId) (owners : BTreeSet Hash28) :
    List (StakeCredential × Coin) :=
  owners.toList.filterMap fun owner =>
    ((snapshot.delegations[StakeCredential.keyHash owner]?).filter fun entry =>
      entry.1 = poolId).map fun entry => (.keyHash owner, entry.2)

theorem mem_ownerEntries {snapshot : StakeSnapshot} {poolId : PoolId} {owners : BTreeSet Hash28}
    {entry : StakeCredential × Coin} (member : entry ∈ ownerEntries snapshot poolId owners) :
    ∃ owner, owner ∈ owners ∧ entry.1 = .keyHash owner ∧
      entry ∈ snapshot.delegatorStakes poolId := by
  obtain ⟨owner, listed, found⟩ := List.mem_filterMap.mp member
  obtain ⟨⟨home, stake⟩, kept, same⟩ := Option.map_eq_some_iff.mp found
  obtain ⟨delegated, isHome⟩ := Option.filter_eq_some_iff.mp kept
  rw [decide_eq_true_eq] at isHome
  subst same
  refine ⟨owner, ExtTreeSet.mem_toList.mp listed, rfl, ?_⟩
  rw [mem_delegatorStakes, delegated, ← show home = poolId from isHome]

theorem ownerEntries_nodup (snapshot : StakeSnapshot) (poolId : PoolId) (owners : BTreeSet Hash28) :
    (ownerEntries snapshot poolId owners).Nodup := by
  have distinct : owners.toList.Nodup := by
    apply owners.ordered_toList.imp
    intro first second less same
    rw [same, Std.ReflOrd.compare_self] at less
    cases less
  apply distinct.filterMap
  intro first second entry found foundToo
  obtain ⟨_, _, same⟩ := Option.map_eq_some_iff.mp found
  obtain ⟨_, _, sameToo⟩ := Option.map_eq_some_iff.mp foundToo
  have creds := congrArg Prod.fst (same.trans sameToo.symm)
  cases creds
  rfl

theorem selfDelegatedOwnerStake_le (snapshot : StakeSnapshot) (poolId : PoolId)
    (owners : BTreeSet Hash28) :
    (snapshot.selfDelegatedOwnerStake poolId owners).toNat ≤
      ((ownerEntries snapshot poolId owners).map fun entry => entry.2.toNat).sum := by
  have folded := foldl_saturatingAdd_le (fun entry : PoolId × Coin => entry.2)
    (owners.toList.filterMap fun owner =>
      (snapshot.delegations[StakeCredential.keyHash owner]?).filter fun entry => entry.1 = poolId) 0
  apply folded.trans_eq
  unfold ownerEntries
  simp only [List.map_filterMap, Option.map_map, Function.comp_def]
  exact Nat.zero_add _

namespace RewardInputs

variable {inputs : RewardInputs}

/-- Where this pool's leader share is read, it is stake of this pool. -/
def LeaderAtHome (inputs : RewardInputs) (poolId : PoolId) (params : SnapshotPoolParams) : Prop :=
  inputs.useOwners ∨ ∀ (home : PoolId) (stake : Coin),
    inputs.go.delegations[params.rewardAccount]? = some (home, stake) → home = poolId ∨ stake = 0

theorem ownerStake_le {poolId : PoolId} {params : SnapshotPoolParams}
    (atHome : inputs.LeaderAtHome poolId params) :
    (inputs.ownerStake poolId params).toNat ≤
      (((inputs.go.delegatorStakes poolId).filter fun entry => inputs.isOwner params entry.1).map
        fun entry => entry.2.toNat).sum := by
  by_cases owners : inputs.useOwners
  · rw [ownerStake, if_pos owners]
    apply (selfDelegatedOwnerStake_le _ _ _).trans
    apply sum_map_le_of_subset (ownerEntries_nodup _ _ _)
    intro entry member
    obtain ⟨owner, listed, isKey, delegated⟩ := mem_ownerEntries member
    apply List.mem_filter.mpr ⟨delegated, _⟩
    show inputs.isOwner params entry.1 = true
    rw [isKey]
    unfold isOwner
    rw [if_pos owners]
    exact ExtTreeSet.contains_iff_mem.mpr listed
  · rw [ownerStake, if_neg owners]
    cases found : inputs.go.delegations[params.rewardAccount]? with
    | none => exact Nat.zero_le _
    | some entry =>
        obtain ⟨home, stake⟩ := entry
        rcases (atHome.resolve_left owners) home stake found with rfl | rfl
        · have listed : [(params.rewardAccount, stake)] ⊆
              (inputs.go.delegatorStakes home).filter fun entry => inputs.isOwner params entry.1 := by
            apply List.cons_subset.mpr ⟨List.mem_filter.mpr ⟨Iff.mpr mem_delegatorStakes found, _⟩,
              List.nil_subset _⟩
            show inputs.isOwner params params.rewardAccount = true
            unfold isOwner
            rw [if_neg owners]
            exact decide_eq_true rfl
          have counted := sum_map_le_of_subset (List.nodup_singleton _) listed
            fun entry => entry.2.toNat
          exact counted
        · exact Nat.zero_le _

/-- Leader stake and member stakes are parts of the pool's stake. -/
theorem ownerStake_add_members_le (consistent : inputs.go.Consistent) {poolId : PoolId}
    {poolStake : Coin} (found : inputs.go.poolStakes[poolId]? = some poolStake)
    {params : SnapshotPoolParams} (atHome : inputs.LeaderAtHome poolId params) :
    (inputs.ownerStake poolId params).toNat +
      (((inputs.go.delegatorStakes poolId).filter fun entry => !inputs.isOwner params entry.1).map
        fun entry => entry.2.toNat).sum ≤ poolStake.toNat := by
  have led := ownerStake_le atHome
  have parts := sum_map_filter_add (fun entry : StakeCredential × Coin =>
    inputs.isOwner params entry.1) (fun entry => entry.2.toNat) (inputs.go.delegatorStakes poolId)
  rw [consistent poolId poolStake found]
  omega

/-! ## Paying a pool -/

theorem margin_nonneg (params : SnapshotPoolParams) : 0 ≤ (margin params).value := by
  unfold margin Rational.new
  split_ifs with isZero
  · exact Rational.value_zero.ge
  · rw [Option.getD_some, Rational.value_reduce, cast_asI128, cast_asI128]
    positivity

theorem oneMinusMargin_value (params : SnapshotPoolParams) :
    (oneMinusMargin params).value = 1 - (margin params).value := by
  rw [oneMinusMargin, Rational.checkedSub_getD, Rational.value_one]

theorem memberReward_le {factor : Rational} (nonneg : 0 ≤ factor.value) {stake poolStake : UInt64}
    (staked : 0 < poolStake) :
    ((memberReward factor stake poolStake).toNat : ℚ) ≤
      factor.value * (stake.toNat / poolStake.toNat) := by
  have share : factor.value *
      ((Rational.new (asI128 stake) (asI128 poolStake)).getD .zero).value ≤
        factor.value * (stake.toNat / poolStake.toNat) := by
    rw [value_new_asI128 staked]
  exact checkedMul_floor_le (by positivity) share 0

/-- What the rewards of one member are bounded by. -/
def memberBound (inputs : RewardInputs) (params : SnapshotPoolParams) (factor : ℚ)
    (poolStake : UInt64) (entry : StakeCredential × Coin) : ℚ :=
  if inputs.isOwner params entry.1 then 0 else factor * (entry.2.toNat / poolStake.toNat)

/-- Member accounts and the amount distributed grow by `amount`. -/
structure MembersMoved (before after : BTreeMap StakeCredential Coin × UInt64) (amount : Nat) :
    Prop where
  deltas : Moves (total before.1) (total after.1) amount
  distributed : after.2.toNat = before.2.toNat + amount

theorem MembersMoved.refl (paid : BTreeMap StakeCredential Coin × UInt64) :
    MembersMoved paid paid 0 := ⟨Moves.refl _, rfl⟩

theorem MembersMoved.trans {a b c : BTreeMap StakeCredential Coin × UInt64} {first second : Nat}
    (left : MembersMoved a b first) (right : MembersMoved b c second) :
    MembersMoved a c (first + second) := by
  constructor
  · exact left.deltas.trans right.deltas
  · rw [right.distributed, left.distributed, Nat.add_assoc]

theorem payMember_moves {params : SnapshotPoolParams} {factor : Rational}
    (nonneg : 0 ≤ factor.value) {poolStake : UInt64} (staked : 0 < poolStake)
    {paid next : BTreeMap StakeCredential Coin × UInt64} {entry : StakeCredential × Coin}
    (ran : inputs.payMember params poolStake factor paid entry = .ok next) :
    ∃ amount : Nat, (amount : ℚ) ≤ memberBound inputs params factor.value poolStake entry ∧
      MembersMoved paid next amount := by
  have boundNonneg : 0 ≤ memberBound inputs params factor.value poolStake entry := by
    unfold memberBound
    split_ifs
    · exact le_rfl
    · positivity
  have skipped : next = paid → ∃ amount : Nat,
      (amount : ℚ) ≤ memberBound inputs params factor.value poolStake entry ∧
        MembersMoved paid next amount := by
    rintro rfl
    exact ⟨0, by simpa using boundNonneg, MembersMoved.refl _⟩
  unfold payMember at ran
  dsimp only at ran
  split_ifs at ran with left earns
  · cases ran
    exact skipped rfl
  · obtain ⟨distributed, added, ran⟩ := bind_ok ran
    cases ran
    refine ⟨_, ?_, moves_credit _ _ _, addU64_ok added⟩
    have member : ¬ inputs.isOwner params entry.1 := fun owner => left (.inl owner)
    rw [memberBound, if_neg member]
    exact memberReward_le nonneg staked
  · cases ran
    exact skipped rfl

theorem sum_memberBound (params : SnapshotPoolParams) (factor : ℚ) (poolStake : UInt64)
    (entries : List (StakeCredential × Coin)) :
    (entries.map (memberBound inputs params factor poolStake)).sum =
      factor * ((((entries.filter fun entry => !inputs.isOwner params entry.1).map
        fun entry => entry.2.toNat).sum : Nat) / poolStake.toNat) := by
  induction entries with
  | nil => simp
  | cons entry entries ih =>
      rw [List.map_cons, List.sum_cons, ih]
      by_cases owner : inputs.isOwner params entry.1
      · simp [memberBound, owner]
      · simp only [memberBound, owner, if_false, List.filter_cons, Bool.not_false, if_true,
          List.map_cons, List.sum_cons, Bool.false_eq_true]
        push_cast
        ring

end RewardInputs

namespace Allocation

/-- What the totals say was rewarded. -/
def rewarded (allocation : Allocation) : Nat :=
  allocation.totalPoolRewards.toNat + allocation.totalMemberRewards.toNat

/-- Accounts and totals both grow by `amount`. -/
structure Moved (before after : Allocation) (amount : Nat) : Prop where
  deltas : Moves (total before.rewardDeltas) (total after.rewardDeltas) amount
  totals : Moves before.rewarded after.rewarded amount

theorem Moved.refl (allocation : Allocation) : Moved allocation allocation 0 :=
  ⟨Moves.refl _, Moves.refl _⟩

theorem Moved.trans {a b c : Allocation} {first second : Nat} (left : Moved a b first)
    (right : Moved b c second) : Moved a c (first + second) :=
  ⟨left.deltas.trans right.deltas, left.totals.trans right.totals⟩

end Allocation

namespace RewardInputs

variable {inputs : RewardInputs}

theorem payOperator_moved (params : SnapshotPoolParams) (amount : UInt64) (allocation : Allocation) :
    ∃ paid ≤ amount.toNat, Allocation.Moved allocation (inputs.payOperator params amount allocation)
      paid := by
  unfold payOperator
  split_ifs
  · refine ⟨amount.toNat, le_rfl, moves_credit _ _ _, ?_⟩
    intro fits
    unfold Allocation.rewarded at fits ⊢
    dsimp only
    rw [saturatingAdd_toNat (by omega)]
    omega
  · exact ⟨0, Nat.zero_le _, Allocation.Moved.refl _⟩

theorem leaderReward_le {poolId : PoolId} {poolStake : UInt64} (staked : 0 < poolStake)
    {params : SnapshotPoolParams} (marginLe : (margin params).value ≤ 1) {surplus leader : UInt64}
    (ran : inputs.leaderReward poolId poolStake params surplus = .ok leader) :
    (leader.toNat : ℚ) ≤ params.cost.toNat + surplus.toNat * ((margin params).value +
      (1 - (margin params).value) *
        ((inputs.ownerStake poolId params).toNat / poolStake.toNat)) := by
  have rest : 0 ≤ 1 - (margin params).value := sub_nonneg.mpr marginLe
  have nonneg := margin_nonneg params
  rw [addU64_ok ran]
  push_cast
  apply add_le_add_right
  apply checkedMul_floor_le (by positivity)
  obtain ⟨product, multiplied, value⟩ := (oneMinusMargin params).checkedMul_eq
    ((Rational.new (asI128 (inputs.ownerStake poolId params)) (asI128 poolStake)).getD .zero)
  rw [multiplied, Option.getD_some, Rational.checkedAdd_getD, value, value_new_asI128 staked,
    oneMinusMargin_value, Rational.value_fromInteger, cast_asI128]

/-- The leader's and the members' shares of a surplus are parts of it. -/
theorem shares_le {surplus margin owned members stake : ℚ} (surplusNonneg : 0 ≤ surplus)
    (marginLe : margin ≤ 1) (stakePos : 0 < stake) (parts : owned + members ≤ stake) :
    surplus * (margin + (1 - margin) * (owned / stake)) +
      surplus * (1 - margin) * (members / stake) ≤ surplus := by
  have rest : 0 ≤ 1 - margin := sub_nonneg.mpr marginLe
  have fraction : owned / stake + members / stake ≤ 1 := by
    rw [← add_div]
    exact div_le_one_of_le₀ parts stakePos.le
  calc surplus * (margin + (1 - margin) * (owned / stake)) +
        surplus * (1 - margin) * (members / stake)
      = surplus * (margin + (1 - margin) * (owned / stake + members / stake)) := by ring
    _ ≤ surplus * (margin + (1 - margin) * 1) := by gcongr
    _ = surplus := by ring

theorem splitReward_moved (consistent : inputs.go.Consistent) {poolId : PoolId} {poolStake : Coin}
    (found : inputs.go.poolStakes[poolId]? = some poolStake) (staked : 0 < poolStake)
    {params : SnapshotPoolParams} (atHome : inputs.LeaderAtHome poolId params)
    (marginLe : (margin params).value ≤ 1) {reward : UInt64} (covers : ¬ reward ≤ params.cost)
    {allocation next : Allocation}
    (ran : inputs.splitReward poolId poolStake params reward allocation = .ok next) :
    ∃ amount ≤ reward.toNat, Allocation.Moved allocation next amount := by
  obtain ⟨leader, leaderRan, ran⟩ := bind_ok ran
  dsimp only at ran
  rw [if_pos staked] at ran
  obtain ⟨paid, paidRan, ran⟩ := bind_ok ran
  obtain ⟨led, ledLe, ledMoved⟩ := @payOperator_moved inputs params leader allocation
  have surplusEq : ((reward - params.cost).toNat : ℚ) = reward.toNat - params.cost.toNat := by
    have below : params.cost ≤ reward := UInt64.le_of_lt (UInt64.not_le.mp covers)
    rw [UInt64.toNat_sub_of_le _ _ below, Nat.cast_sub (UInt64.le_iff_toNat_le.mp below)]
  obtain ⟨factor, multiplied, factorValue⟩ :=
    (Rational.fromInteger (asI128 (reward - params.cost))).checkedMul_eq (oneMinusMargin params)
  rw [multiplied, Option.getD_some] at paidRan
  rw [Rational.value_fromInteger, cast_asI128, oneMinusMargin_value] at factorValue
  have factorNonneg : 0 ≤ factor.value := by
    rw [factorValue]
    exact mul_nonneg (by positivity) (sub_nonneg.mpr marginLe)
  obtain ⟨members, membersLe, membersMoved, distributed⟩ :=
    bounded_foldlM MembersMoved MembersMoved.refl MembersMoved.trans
      (fun entry _ ran => payMember_moves factorNonneg staked ran) paidRan
  cases ran
  refine ⟨led + members, ?_, ledMoved.trans ⟨membersMoved, ?_⟩⟩
  · have parts : ((inputs.ownerStake poolId params).toNat : ℚ) +
        ((((inputs.go.delegatorStakes poolId).filter fun entry =>
          !inputs.isOwner params entry.1).map fun entry => entry.2.toNat).sum : Nat) ≤
          poolStake.toNat := by
      exact_mod_cast ownerStake_add_members_le consistent found atHome
    have stakePos : (0 : ℚ) < poolStake.toNat := by exact_mod_cast staked
    have surplusNonneg : (0 : ℚ) ≤ (reward - params.cost).toNat := by positivity
    have shares := shares_le surplusNonneg marginLe stakePos parts
    have leaderLe := leaderReward_le staked marginLe leaderRan
    have ledCast : (led : ℚ) ≤ leader.toNat := by exact_mod_cast ledLe
    rw [sum_memberBound, factorValue] at membersLe
    have bounded : ((led + members : Nat) : ℚ) ≤ reward.toNat := by
      push_cast
      linarith
    exact_mod_cast bounded
  · intro fits
    have distributedAll : paid.2.toNat = members := by
      rw [distributed]
      exact Nat.zero_add _
    unfold Allocation.rewarded at fits ⊢
    dsimp only
    rw [saturatingAdd_toNat (by omega)]
    omega

/-! ## All pools -/

/-- What the reward calculation relies on. -/
structure Sound (inputs : RewardInputs) : Prop where
  consistent : inputs.go.Consistent
  margins : ∀ (poolId : PoolId) (params : SnapshotPoolParams),
    inputs.go.poolParams[poolId]? = some params → (margin params).value ≤ 1
  influence : 0 ≤ inputs.protocolParams.poolInfluence.value
  desired : 0 < inputs.protocolParams.nOpt
  active : inputs.totalActiveStake ≤ inputs.totalStake
  produced : inputs.totalBlocksProduced.toNat = total inputs.blockProduction
  leaders : ∀ (poolId : PoolId) (params : SnapshotPoolParams), poolId ∈ inputs.go.poolStakes →
    amountOf inputs.blockProduction poolId ≠ 0 → inputs.go.poolParams[poolId]? = some params →
      inputs.LeaderAtHome poolId params

theorem amountOf_le_produced (sound : inputs.Sound) (poolId : PoolId) :
    (amountOf inputs.blockProduction poolId).toNat ≤ inputs.totalBlocksProduced.toNat := by
  have held := total_erase_add inputs.blockProduction poolId
  rw [sound.produced]
  omega

/-- The part of the pot that matches a pool's part of the blocks. -/
def blockShare (inputs : RewardInputs) (entry : PoolId × Coin) : ℚ :=
  inputs.poolRewardPot.toNat * (amountOf inputs.blockProduction entry.1).toNat /
    inputs.totalBlocksProduced.toNat

theorem rewardPool_moved (sound : inputs.Sound) (staked : 0 < inputs.totalStake)
    {entry : PoolId × Coin} (listed : entry ∈ inputs.go.poolStakes.toList)
    {allocation next : Allocation} (ran : inputs.rewardPool allocation entry = .ok next) :
    ∃ amount : Nat, (amount : ℚ) ≤ inputs.blockShare entry ∧
      Allocation.Moved allocation next amount := by
  have unpaid : ∃ amount : Nat, (amount : ℚ) ≤ inputs.blockShare entry ∧
      Allocation.Moved allocation allocation amount :=
    ⟨0, by unfold blockShare; positivity, Allocation.Moved.refl _⟩
  have found : inputs.go.poolStakes[entry.1]? = some entry.2 := BTreeMap.mem_toList.mp listed
  unfold rewardPool at ran
  dsimp only at ran
  split_ifs at ran with idle
  · cases ran
    exact unpaid
  · have produced : 0 < inputs.totalBlocksProduced := by
      have made := amountOf_le_produced sound entry.1
      have positive := UInt64.pos_iff_ne_zero.mpr idle
      rw [UInt64.lt_iff_toNat_lt] at positive ⊢
      exact positive.trans_le made
    cases registered : inputs.go.poolParams[entry.1]? with
    | none => simp [registered] at ran
    | some params =>
        simp only [registered] at ran
        obtain ⟨rate, performed, ran⟩ := bind_ok ran
        obtain ⟨largest, maximal, ran⟩ := bind_ok ran
        split_ifs at ran with skipped empty covered
        · cases ran
          exact unpaid
        · cases ran
          exact unpaid
        · obtain ⟨-, rewardLe⟩ := poolMax_le sound.influence sound.desired staked sound.active
            produced performed maximal (fun isZero => skipped (.inl isZero))
          obtain ⟨paid, paidLe, moved⟩ :=
            @payOperator_moved inputs params (poolMax largest rate) allocation
          cases ran
          have paidCast : (paid : ℚ) ≤ (poolMax largest rate).toNat := by exact_mod_cast paidLe
          exact ⟨paid, paidCast.trans rewardLe, moved.deltas, moved.totals⟩
        · obtain ⟨poolStaked, rewardLe⟩ := poolMax_le sound.influence sound.desired staked
            sound.active produced performed maximal (fun isZero => skipped (.inl isZero))
          have member : entry.1 ∈ inputs.go.poolStakes := by
            rw [ExtTreeMap.mem_iff_isSome_getElem?, found]
            rfl
          obtain ⟨paid, paidLe, moved⟩ := splitReward_moved sound.consistent found poolStaked
            (sound.leaders entry.1 params member idle registered)
            (sound.margins entry.1 params registered) covered ran
          have paidCast : (paid : ℚ) ≤ (poolMax largest rate).toNat := by exact_mod_cast paidLe
          exact ⟨paid, paidCast.trans rewardLe, moved⟩

theorem sum_blockShare_le (sound : inputs.Sound) :
    (inputs.go.poolStakes.toList.map inputs.blockShare).sum ≤ inputs.poolRewardPot.toNat := by
  have keys : (inputs.go.poolStakes.toList.map Prod.fst).Nodup := by
    rw [ExtTreeMap.map_fst_toList_eq_keys]
    exact inputs.go.poolStakes.nodup_keys
  have made := sum_amountOf_le_total keys inputs.blockProduction
  rw [← sound.produced, List.map_map] at made
  have factored : ∀ entries : List (PoolId × Coin), (entries.map inputs.blockShare).sum =
      inputs.poolRewardPot.toNat * ((entries.map fun entry =>
        (amountOf inputs.blockProduction entry.1).toNat).sum : Nat) /
          inputs.totalBlocksProduced.toNat := by
    intro entries
    induction entries with
    | nil => simp
    | cons entry entries ih =>
        rw [List.map_cons, List.sum_cons, ih, List.map_cons, List.sum_cons, blockShare]
        push_cast
        ring
  rw [factored, mul_div_assoc]
  apply mul_le_of_le_one_right (by positivity)
  apply div_le_one_of_le₀ _ (by positivity)
  exact_mod_cast made

/-- The computed rewards never exceed the pot. -/
theorem allocate_moved (sound : inputs.Sound) {allocation : Allocation}
    (ran : inputs.allocate = .ok allocation) :
    ∃ amount ≤ inputs.poolRewardPot.toNat, Allocation.Moved ⟨0, 0, 0, ∅⟩ allocation amount := by
  unfold allocate at ran
  split_ifs at ran with possible
  · obtain ⟨amount, amountLe, moved⟩ :=
      bounded_foldlM Allocation.Moved Allocation.Moved.refl Allocation.Moved.trans
        (fun entry listed ran => rewardPool_moved sound possible.1 listed ran) ran
    have bounded := amountLe.trans (sum_blockShare_le sound)
    exact ⟨amount, by exact_mod_cast bounded, moved⟩
  · cases ran
    exact ⟨0, Nat.zero_le _, Allocation.Moved.refl _⟩

end RewardInputs

end Ade.Ledger
