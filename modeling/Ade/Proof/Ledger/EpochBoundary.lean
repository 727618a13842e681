import Ade.Proof.Ledger.Delegation
import Ade.Proof.Ledger.Rewards

namespace Ade.Ledger
open Library
open Std (ExtTreeMap ExtTreeSet)
open Ade.Proof.Ledger (mem_adoptPools)

/-! ## The pot -/

theorem foldlM_addU64 {amounts : List UInt64} {start sum : UInt64}
    (ran : amounts.foldlM addU64 start = .ok sum) :
    sum.toNat = start.toNat + (amounts.map UInt64.toNat).sum := by
  induction amounts generalizing start with
  | nil =>
      cases ran
      rfl
  | cons amount amounts ih =>
      rw [List.foldlM_cons] at ran
      obtain ⟨next, added, ran⟩ := bind_ok ran
      rw [ih ran, addU64_ok added, List.map_cons, List.sum_cons, Nat.add_assoc]

variable {Utxo : Type} {state : LedgerState Utxo}

/-- What leaves the reserves and the fees is the treasury's cut and the pool reward pot. -/
structure RewardPot.Splits (pot : RewardPot) (state : LedgerState Utxo) : Prop where
  produced : pot.totalBlocksProduced.toNat = total state.epochState.blockProduction
  expansion : pot.deltaR1.toNat ≤ state.epochState.reserves.toNat
  split : pot.treasuryDelta.toNat + pot.poolRewardPot.toNat =
    pot.deltaR1.toNat + state.epochState.epochFees.toNat

theorem rewardPot_splits
    (expansion : 0 ≤ state.protocolParams.monetaryExpansion.value ∧
      state.protocolParams.monetaryExpansion.value ≤ 1)
    (growth : state.protocolParams.treasuryGrowth.value ≤ 1)
    (fits : state.epochState.reserves.toNat + state.epochState.epochFees.toNat < 2 ^ 64)
    {slots : UInt64} {pot : RewardPot} (ran : rewardPot state slots = .ok pot) :
    pot.Splits state := by
  obtain ⟨blocks, summed, ran⟩ := bind_ok ran
  obtain ⟨rate, performed, ran⟩ := bind_ok ran
  cases ran
  have minted := @deltaR1_le state.epochState.reserves _ _ expansion (eta_mem performed)
  have rewarded := @saturatingAdd_toNat
    (deltaR1 state.epochState.reserves state.protocolParams.monetaryExpansion rate)
    state.epochState.epochFees (by omega)
  have cut := @treasuryDelta_le (saturatingAdd
    (deltaR1 state.epochState.reserves state.protocolParams.monetaryExpansion rate)
    state.epochState.epochFees) _ growth
  refine ⟨?_, minted, ?_⟩
  · rw [foldlM_addU64 summed, List.map_map]
    exact Nat.zero_add _
  · dsimp only
    rw [saturatingSub_toNat]
    omega

/-! ## Payouts -/

theorem mem_of_getElem? {K V : Type} [Ord K] [Std.TransOrd K] {table : BTreeMap K V} {key : K}
    {value : V} (found : table[key]? = some value) : key ∈ table := by
  rw [ExtTreeMap.mem_iff_isSome_getElem?, found]
  rfl

theorem rewardAccountCredential_some {account : Bytes} (sized : account.length = 29) :
    ∃ cred, rewardAccountCredential account = some cred := by
  cases account with
  | nil => cases sized
  | cons header hash =>
      have size : hash.toArray.size = 28 := by
        rw [List.size_toArray]
        exact Nat.succ.inj sized
      unfold rewardAccountCredential
      dsimp only
      rw [dif_pos size]
      split_ifs
      · exact ⟨_, rfl⟩
      · exact ⟨_, rfl⟩

namespace Payout

def worth (payout : Payout) : Nat := total payout.rewards + payout.toTreasury.toNat

theorem moves_rewards (payout : Payout) (cred : StakeCredential) (amount : Coin) :
    Moves payout.worth
      (worth { payout with rewards := credit payout.rewards cred amount }) amount.toNat := by
  intro fits
  unfold worth at fits ⊢
  dsimp only
  rw [total_credit (by omega)]
  omega

theorem moves_toTreasury (payout : Payout) (amount : Coin) :
    Moves payout.worth
      (worth { payout with toTreasury := saturatingAdd payout.toTreasury amount })
      amount.toNat := by
  intro fits
  unfold worth at fits ⊢
  dsimp only
  rw [saturatingAdd_toNat (by omega)]
  omega

theorem moves_pay (payout : Payout) (registered : Bool) (cred : StakeCredential) (amount : Coin) :
    Moves payout.worth (payout.pay registered cred amount).worth amount.toNat := by
  unfold pay
  split_ifs
  · exact moves_rewards payout cred amount
  · exact moves_toTreasury payout amount

theorem moves_applyRUpd (isRegistered : StakeCredential → Bool)
    (deltas : BTreeMap StakeCredential Coin) (payout : Payout) :
    Moves payout.worth (deltas.toList.foldl (applyRUpd isRegistered) payout).worth
      (total deltas) :=
  moves_foldl worth (fun payout delta _ => moves_pay payout _ delta.1 delta.2) payout

theorem moves_returnDeposits (returns : List DepositReturn) (payout : Payout) :
    Moves payout.worth (returns.foldl returnDeposit payout).worth
      (returns.map DepositReturn.amount).sum := by
  apply moves_foldl worth
  intro payout deposit _
  cases deposit with
  | toRewardAccount actionId credential amount => exact moves_rewards payout credential amount
  | toTreasury actionId amount => exact moves_toTreasury payout amount
  | noDeposit actionId => exact Moves.refl _

theorem moves_refundPool {registrations : BTreeMap StakeCredential Coin}
    {pools : BTreeMap PoolId PoolParams} {poolId : PoolId}
    (wellFormed : ∀ params, pools[poolId]? = some params → params.rewardAccount.length = 29)
    (poolDeposit : Coin) (payout : Payout) :
    Moves payout.worth (refundPool registrations pools poolDeposit payout poolId).worth
      (if poolId ∈ pools then poolDeposit.toNat else 0) := by
  unfold refundPool
  cases found : pools[poolId]? with
  | none =>
      have absent : poolId ∉ pools := by
        rw [ExtTreeMap.mem_iff_isSome_getElem?, found]
        exact Bool.false_ne_true
      rw [if_neg absent]
      exact Moves.refl _
  | some params =>
      obtain ⟨cred, decoded⟩ := rewardAccountCredential_some (wellFormed params found)
      rw [Option.bind_some, decoded, if_pos (mem_of_getElem? found)]
      exact moves_pay payout _ cred poolDeposit

end Payout

theorem sum_reaped (pool : PoolState) (deposit : Nat) (poolIds : List PoolId) :
    (poolIds.map fun poolId => if poolId ∈ adoptedPools pool then deposit else 0).sum =
      deposit * (poolIds.filter fun poolId => pool.pools.contains poolId).length := by
  induction poolIds with
  | nil => rfl
  | cons poolId poolIds ih =>
      rw [List.map_cons, List.sum_cons, ih, List.filter_cons]
      have kept : poolId ∈ adoptedPools pool ↔ pool.pools.contains poolId := by
        rw [adoptedPools, mem_adoptPools, ExtTreeMap.contains_iff_mem]
      by_cases active : pool.pools.contains poolId
      · rw [if_pos (kept.mpr active), if_pos active, List.length_cons, Nat.mul_succ, Nat.add_comm]
      · rw [if_neg (fun member => active (kept.mp member)), if_neg active, Nat.zero_add]

theorem refundPools_moves {cert : CertState} {newEpoch : EpochNo}
    (wellFormed : ∀ poolId ∈ reapedPools cert.pool newEpoch, ∀ params,
      (adoptedPools cert.pool)[poolId]? = some params → params.rewardAccount.length = 29)
    (poolDeposit : Coin) (rewards : BTreeMap StakeCredential Coin) :
    Moves (total rewards) (refundPools cert newEpoch poolDeposit rewards).worth
      (poolDeposit.toNat * (reapedPools cert.pool newEpoch).length) := by
  have step : ∀ payout, ∀ poolId ∈ retiredPools cert.pool newEpoch,
      Moves (Payout.worth payout) (Payout.refundPool cert.delegation.registrations
        (adoptedPools cert.pool) poolDeposit payout poolId).worth
        (if poolId ∈ adoptedPools cert.pool then poolDeposit.toNat else 0) := by
    intro payout poolId retired
    apply Payout.moves_refundPool
    intro params found
    apply wellFormed poolId _ params found
    have adopted := mem_of_getElem? found
    rw [adoptedPools, mem_adoptPools] at adopted
    exact List.mem_filter.mpr ⟨retired, ExtTreeMap.contains_iff_mem.mpr adopted⟩
  have moved := moves_foldl Payout.worth step ⟨rewards, 0⟩
  rw [sum_reaped] at moved
  exact moved

/-! ## The boundary -/

theorem orTerminal_ok {α : Type} {x : Except GovernanceTerminal α} {value : α}
    (ran : orTerminal x = .ok value) : x = .ok value := by
  cases x with
  | error reason => cases ran
  | ok found =>
      cases ran
      rfl

theorem requireFull_ok {α : Type} {projection : Projection α} {slot : SlotNo} {value : α}
    (ran : projection.requireFull slot = .ok value) : projection = .authoritative value := by
  cases projection with
  | reducedUnavailable => cases ran
  | authoritative found =>
      cases ran
      rfl

/-- Freezing the next ratification touches the governance state only. -/
theorem freezeRatification_keeps
    {ratifyFrozen : FrozenRatificationInput → Except GovernanceTerminal RatificationRecord}
    {next frozen : LedgerState Utxo} {base : Option BoundaryBaseStake}
    {delegatedAtSnap : BTreeSet PoolId}
    (ran : freezeRatification ratifyFrozen next base delegatedAtSnap = .ok frozen) :
    frozen.epochState = next.epochState ∧ frozen.certState = next.certState ∧
      frozen.protocolParams = next.protocolParams ∧
      ∀ gov, next.govState = .authoritative gov → ∃ frozenGov,
        frozen.govState = .authoritative frozenGov ∧ ∀ held, gov = some held →
          ∃ ratification, frozenGov = some { held with ratification } := by
  have same : ∀ gov, next.govState = .authoritative gov → ∃ frozenGov,
      next.govState = .authoritative frozenGov ∧ ∀ held, gov = some held →
        ∃ ratification, frozenGov = some { held with ratification } :=
    fun gov full => ⟨gov, full, fun held some_ => ⟨held.ratification, some_⟩⟩
  unfold freezeRatification at ran
  split_ifs at ran with conway
  · cases base with
    | none => cases ran
    | some base =>
        obtain ⟨input, -, ran⟩ := bind_ok ran
        cases input with
        | none =>
            cases ran
            exact ⟨rfl, rfl, rfl, same⟩
        | some input =>
            obtain ⟨record, -, ran⟩ := bind_ok ran
            split at ran
            · next held =>
                cases ran
                refine ⟨rfl, rfl, rfl, fun gov full => ⟨_, rfl, ?_⟩⟩
                rw [held] at full
                cases full
                rintro _ ⟨⟩
                exact ⟨.recorded record, rfl⟩
            · cases ran
              exact ⟨rfl, rfl, rfl, same⟩
  · cases ran
    exact ⟨rfl, rfl, rfl, same⟩

theorem rewardInputs_sound {newEpoch : EpochNo} (premises : BoundaryPremises state newEpoch)
    (leaders : 4 ≤ state.protocolParams.protocolMajor ∨ LeadersDelegateHome state)
    {snaps : SnapshotState} (full : state.epochState.snapshots = .authoritative snaps)
    {pot : RewardPot} (splits : pot.Splits state) (isCredRegistered : StakeCredential → Bool) :
    (rewardInputs state snaps.go pot isCredRegistered).Sound where
  consistent := premises.consistent snaps full
  margins := premises.margins snaps full
  influence := premises.influence
  desired := premises.desired
  active := premises.active snaps full
  produced := splits.produced
  leaders := by
    intro poolId params member made registered
    rcases leaders with mary | atHome
    · exact .inl (decide_eq_true mary)
    · exact .inr (atHome snaps full poolId params member made registered)

/-- Balances, and what the three payouts owe to the treasury. -/
def Payouts.worth (paid : Payouts) : Nat :=
  total paid.returned.rewards + paid.updated.toTreasury.toNat + paid.refunded.toTreasury.toNat +
    paid.returned.toTreasury.toNat

/-- The three payouts together move rewards, refunds and returned deposits. -/
theorem payouts_moves {cert : CertState} {newEpoch : EpochNo}
    (wellFormed : ∀ poolId ∈ reapedPools cert.pool newEpoch, ∀ params,
      (adoptedPools cert.pool)[poolId]? = some params → params.rewardAccount.length = 29)
    (isCredRegistered : StakeCredential → Bool) (deltas : BTreeMap StakeCredential Coin)
    (poolDeposit : Coin) (returns : List DepositReturn) :
    Moves (total cert.delegation.rewards)
      (payouts cert isCredRegistered deltas newEpoch poolDeposit returns).worth
      (total deltas + poolDeposit.toNat * (reapedPools cert.pool newEpoch).length +
        (returns.map DepositReturn.amount).sum) := by
  generalize paidEq : payouts cert isCredRegistered deltas newEpoch poolDeposit returns = paid
  have updated : Moves (total cert.delegation.rewards) paid.updated.worth (total deltas) := by
    rw [← paidEq]
    exact Payout.moves_applyRUpd isCredRegistered deltas ⟨cert.delegation.rewards, 0⟩
  have refunded : Moves (total paid.updated.rewards) paid.refunded.worth
      (poolDeposit.toNat * (reapedPools cert.pool newEpoch).length) := by
    rw [← paidEq]
    exact refundPools_moves wellFormed poolDeposit _
  have returned : Moves (total paid.refunded.rewards) paid.returned.worth
      (returns.map DepositReturn.amount).sum := by
    rw [← paidEq]
    exact Payout.moves_returnDeposits returns ⟨_, 0⟩
  intro fits
  have first := updated (by omega)
  unfold Payout.worth at first refunded returned
  have second := refunded (by omega)
  have third := returned (by omega)
  unfold Payouts.worth
  omega

theorem newTreasury_toNat {treasury cut donations result : UInt64} {paid : Payouts}
    {newEpoch : EpochNo}
    (ran : newTreasury treasury cut paid donations newEpoch = .ok result)
    (fits : treasury.toNat + cut.toNat + paid.worth < 2 ^ 64) :
    result.toNat + total paid.returned.rewards =
      treasury.toNat + cut.toNat + paid.worth + donations.toNat := by
  unfold newTreasury at ran
  dsimp only at ran
  cases added : checkedAdd (saturatingAdd (saturatingAdd (saturatingAdd
      (saturatingAdd treasury cut) paid.updated.toTreasury) paid.refunded.toTreasury)
      paid.returned.toTreasury) donations with
  | none => simp [added] at ran
  | some sum =>
      rw [added] at ran
      cases ran
      unfold Payouts.worth at fits ⊢
      have first := @saturatingAdd_toNat treasury cut (by omega)
      have second := @saturatingAdd_toNat (saturatingAdd treasury cut) paid.updated.toTreasury
        (by omega)
      have third := @saturatingAdd_toNat _ paid.refunded.toTreasury
        (show (saturatingAdd (saturatingAdd treasury cut) paid.updated.toTreasury).toNat + _ < _ by
          omega)
      rw [checkedAdd_toNat added, saturatingAdd_toNat (by omega)]
      omega

/-- Whatever the payouts did to the balances, the boundary reaps as `applyPoolReap` does. -/
theorem boundary_reaps_pools {cert : CertState}
    {ratifyFrozen : FrozenRatificationInput → Except GovernanceTerminal RatificationRecord}
    {newEpoch : EpochNo} {registrationOverride : Option (BTreeMap StakeCredential Unit)}
    {boundaryBaseStake : Option BoundaryBaseStake} {activeSlotsPerEpoch : UInt64}
    {next : LedgerState Utxo} {accounting : EpochBoundaryAccounting}
    (held : state.certState = .authoritative cert)
    (ran : applyEpochBoundaryWithRegistrations ratifyFrozen state newEpoch registrationOverride
      boundaryBaseStake activeSlotsPerEpoch = .ok (next, accounting)) :
    ∃ after, next.certState = .authoritative after ∧
      after.pool.pools = (applyPoolReap cert newEpoch).pool.pools ∧
      after.pool.futurePools = (applyPoolReap cert newEpoch).pool.futurePools ∧
      after.pool.retiring = (applyPoolReap cert newEpoch).pool.retiring ∧
      after.delegation.delegations = (applyPoolReap cert newEpoch).delegation.delegations := by
  obtain ⟨snaps, -, ran⟩ := bind_ok ran
  obtain ⟨read, certRan, ran⟩ := bind_ok ran
  obtain ⟨gov, -, ran⟩ := bind_ok ran
  obtain ⟨plan, -, ran⟩ := bind_ok ran
  obtain ⟨pot, -, ran⟩ := bind_ok ran
  obtain ⟨allocation, -, ran⟩ := bind_ok ran
  obtain ⟨mark, -, ran⟩ := bind_ok ran
  obtain ⟨treasury, -, ran⟩ := bind_ok ran
  obtain ⟨frozen, frozenRan, ran⟩ := bind_ok ran
  have same := held.symm.trans (requireFull_ok (orTerminal_ok certRan))
  obtain ⟨-, certKept, -⟩ := freezeRatification_keeps (orTerminal_ok frozenRan)
  cases same
  cases ran
  exact ⟨_, certKept, rfl, rfl, rfl, rfl⟩

/-! ## A boundary on each side of the condition -/

section Sample

def samplePool (n : UInt8) : PoolId := Vector.replicate 28 n

def sampleKey (n : UInt8) : StakeCredential := .keyHash (Vector.replicate 28 n)

def sampleParams : SnapshotPoolParams := ⟨0, 0, (0, 1), sampleKey 1, ∅⟩

def samplePoolParams : BTreeMap PoolId SnapshotPoolParams :=
  (∅ : BTreeMap PoolId SnapshotPoolParams).insert (samplePool 1) sampleParams

/-- Pool 1 made every block. Its reward account, key 1, has its stake in `leaderPool`. -/
def sampleGo (leaderPool : PoolId) : StakeSnapshot where
  delegations := ((∅ : BTreeMap StakeCredential (PoolId × Coin)).insert (sampleKey 1)
    (leaderPool, 900)).insert (sampleKey 2) (samplePool 1, 100)
  poolStakes := credit (credit ∅ leaderPool 900) (samplePool 1) 100
  poolParams := samplePoolParams

def sampleDelegation : DelegationState where
  registrations := credit (credit ∅ (sampleKey 1) 2) (sampleKey 2) 2
  delegations := ∅
  rewards := credit (credit ∅ (sampleKey 1) 0) (sampleKey 2) 0

def sampleState (leaderPool : PoolId) : LedgerState Unit where
  utxoState := ()
  epochState :=
    { epoch := 236
      slot := 100
      snapshots := .authoritative ⟨.new, .new, sampleGo leaderPool⟩
      reserves := 0
      treasury := 50
      blockProduction := credit ∅ (samplePool 1) 10
      epochFees := 1000
      donationPot := 7 }
  protocolParams := { ProtocolParameters.default with
      poolDeposit := 500
      nOpt := 1
      poolInfluence := .zero
      monetaryExpansion := .zero
      treasuryGrowth := .zero
      protocolMajor := 3
      decentralization := .zero }
  era := .allegra
  trackUtxo := true
  certState := .authoritative
    { delegation := sampleDelegation
      pool := ⟨∅, ∅, ∅⟩ }
  maxLovelaceSupply := 10000
  govState := .authoritative none
  conwayDepositParams := none

def sampleRun (leaderPool : PoolId) : Boundary (LedgerState Unit × EpochBoundaryAccounting) :=
  applyEpochBoundaryWithRegistrations (fun _ => .error .dormantRequired) (sampleState leaderPool)
    237 none none 10

theorem consistent_of_listed {snapshot : StakeSnapshot}
    (listed : ∀ entry ∈ snapshot.poolStakes.toList, entry.2.toNat =
      ((snapshot.delegatorStakes entry.1).map fun delegator => delegator.2.toNat).sum) :
    snapshot.Consistent :=
  fun poolId stake found => listed (poolId, stake) (BTreeMap.mem_toList.mpr found)

theorem samplePoolParams_some {poolId : PoolId} {params : SnapshotPoolParams}
    (found : samplePoolParams[poolId]? = some params) :
    poolId = samplePool 1 ∧ params = sampleParams := by
  have entry : (poolId, params) ∈ samplePoolParams.toList := BTreeMap.mem_toList.mpr found
  have only : samplePoolParams.toList = [(samplePool 1, sampleParams)] := by rfl
  rw [only, List.mem_singleton] at entry
  cases entry
  exact ⟨rfl, rfl⟩

theorem samplePremises {leaderPool : PoolId} (consistent : (sampleGo leaderPool).Consistent) :
    BoundaryPremises (sampleState leaderPool) 237 where
  consistent := by
    intro snaps full
    injection full with same
    rw [← same]
    exact consistent
  margins := by
    intro snaps full poolId params found
    injection full with same
    subst same
    obtain ⟨-, rfl⟩ := samplePoolParams_some found
    rw [RewardInputs.margin, value_new_asI128 (by decide)]
    simp [sampleParams]
  active := fun snaps full => UInt64.le_refl _
  expansion := by simp [sampleState]
  growth := by simp [sampleState]
  influence := by simp [sampleState]
  desired := (by decide : (0 : UInt32) < 1)
  accounts := by
    intro cert full poolId reaped
    injection full with same
    rw [← same] at reaped
    cases reaped
  pots := by
    have small : 0 + 50 + total sampleDelegation.rewards + 1000 + 7 + 500 * 0 + 0 < 2 ^ 64 := by
      decide +kernel
    exact small

theorem sampleDelegations_home :
    (sampleGo (samplePool 1)).delegations[sampleKey 1]? = some (samplePool 1, 900) := by
  decide +kernel

/-- What a run reports as rewarded, its pot, and the value after it. -/
def sampleReport (leaderPool : PoolId) : Option (UInt64 × UInt64 × Nat) :=
  match sampleRun leaderPool with
  | .ok (next, accounting) => some (accounting.sumRewards, accounting.poolRewardPot,
      next.epochState.reserves.toNat + next.epochState.treasury.toNat + rewardBalances next)
  | .error _ => none

def reapedParams (poolId : PoolId) (cost : Coin) : PoolParams where
  poolId
  vrfHash := Vector.replicate 32 2
  pledge := 0
  cost
  margin := (0, 1)
  rewardAccount := []
  owners := []

def reapSamplePools (pools : List UInt8) (cost : Coin) : BTreeMap PoolId PoolParams :=
  pools.foldl (fun table n => table.insert (samplePool n) (reapedParams (samplePool n) cost)) ∅

/-- Pool 1 is staged and retires at the boundary, pool 2 is staged, pool 3 is staged and was never
registered, and pool 4 retires later. -/
def reapedCert : CertState where
  delegation := { sampleDelegation with
    delegations := ((∅ : BTreeMap StakeCredential PoolId).insert (sampleKey 1)
      (samplePool 1)).insert (sampleKey 2) (samplePool 2) }
  pool :=
    { pools := reapSamplePools [1, 2, 4] 1
      futurePools := reapSamplePools [1, 2, 3] 9
      retiring := ((∅ : BTreeMap PoolId EpochNo).insert (samplePool 1) 237).insert (samplePool 4)
        238 }

def reapedState : LedgerState Unit :=
  { sampleState (samplePool 1) with certState := .authoritative reapedCert }

theorem boundary_reaps_staged :
    ∃ next accounting after,
      applyEpochBoundaryWithRegistrations (fun _ => .error .dormantRequired) reapedState 237 none
        none 10 = .ok (next, accounting) ∧
      next.certState = .authoritative after ∧
      after.pool.pools = (applyPoolReap reapedCert 237).pool.pools ∧
      after.pool.futurePools = (applyPoolReap reapedCert 237).pool.futurePools ∧
      after.pool.retiring = (applyPoolReap reapedCert 237).pool.retiring ∧
      after.delegation.delegations = (applyPoolReap reapedCert 237).delegation.delegations := by
  have succeeds : (applyEpochBoundaryWithRegistrations (fun _ => .error .dormantRequired)
      reapedState 237 none none 10).isOk := by decide +kernel
  cases ran : applyEpochBoundaryWithRegistrations (fun _ => .error .dormantRequired) reapedState 237
      none none 10 with
  | error failure =>
      rw [ran] at succeeds
      cases succeeds
  | ok result =>
      obtain ⟨next, accounting⟩ := result
      obtain ⟨after, same⟩ := @boundary_reaps_pools _ reapedState reapedCert _ _ _ _ _ _ _ rfl ran
      exact ⟨next, accounting, after, rfl, same⟩

end Sample

end Ade.Ledger
