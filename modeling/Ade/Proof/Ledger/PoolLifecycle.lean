import Ade.Ledger.PoolLifecycle
import Ade.Proof.Ledger.Delegation

namespace Ade.Proof.Ledger
open Std (ExtTreeMap)
open Library Ade.Ledger

variable {state next : CertState}

/-! ## What a certificate does to the pools -/

theorem applyPoolRegistration_pool {cert : PoolRegistrationCert}
    (applied : applyPoolRegistration state cert = .ok next) :
    next.pool = (PoolChange.register cert).apply state.pool := by
  unfold applyPoolRegistration at applied
  unfold PoolChange.apply
  dsimp only at applied ⊢
  split_ifs at applied ⊢ with active
  · cases applied
    rfl
  · cases applied
    rfl

theorem applyPoolRetirement_pool {poolId : PoolId} {epoch : EpochNo} {certIndex : UInt16}
    (applied : applyPoolRetirement state poolId epoch certIndex = .ok next) :
    next.pool = (PoolChange.retire poolId epoch).apply state.pool := by
  obtain ⟨-, rfl⟩ := applyPoolRetirement_ok applied
  rfl

theorem applyStakeRegistration_pool {cred : StakeCredential} {deposit : Coin} {certIndex : UInt16}
    (applied : applyStakeRegistration state cred deposit certIndex = .ok next) :
    next.pool = state.pool := by
  obtain ⟨-, rfl⟩ := applyStakeRegistration_ok applied
  rfl

theorem applyStakeDeregistration_pool {cred : StakeCredential} {certIndex : UInt16}
    (applied : applyStakeDeregistration state cred certIndex = .ok next) :
    next.pool = state.pool := by
  obtain ⟨-, rfl⟩ := applyStakeDeregistration_ok applied
  rfl

theorem applyStakeDelegation_pool {cred : StakeCredential} {poolId : PoolId} {certIndex : UInt16}
    (applied : applyStakeDelegation state cred poolId certIndex = .ok next) :
    next.pool = state.pool := by
  obtain ⟨-, -, rfl⟩ := applyStakeDelegation_ok applied
  rfl

theorem applyCert_pool {cert : Certificate} {keyDeposit : Coin} {certIndex : UInt16}
    (accepted : applyCert state cert keyDeposit certIndex = .ok next) :
    next.pool = cert.poolChange.apply state.pool := by
  cases cert with
  | stakeRegistration cred => exact applyStakeRegistration_pool accepted
  | stakeDeregistration cred => exact applyStakeDeregistration_pool accepted
  | stakeDelegation cred poolId => exact applyStakeDelegation_pool accepted
  | poolRegistration cert => exact applyPoolRegistration_pool accepted
  | poolRetirement poolId epoch => exact applyPoolRetirement_pool accepted
  | genesisKeyDelegation | mirTransfer =>
      cases accepted
      rfl

theorem applyConwayCert_pool {cert : ConwayCert} {env : ConwayCertEnv}
    {outcome : ConwayCertOutcome} (accepted : applyConwayCert state cert env = .ok outcome) :
    outcome.state.pool = cert.poolChange.apply state.pool := by
  cases cert with
  | accountRegistration | accountRegistrationDeposit | voteRegistrationDelegation =>
      obtain ⟨registered, applied, returned⟩ := bind_ok accepted
      cases returned
      exact applyStakeRegistration_pool applied
  | accountUnregistration | accountUnregistrationDeposit =>
      obtain ⟨removed, applied, returned⟩ := bind_ok accepted
      cases returned
      exact applyStakeDeregistration_pool applied
  | stakeDelegation | stakeVoteDelegation =>
      obtain ⟨delegated, applied, returned⟩ := bind_ok accepted
      cases returned
      exact applyStakeDelegation_pool applied
  | poolRegistration cert =>
      obtain ⟨registered, applied, returned⟩ := bind_ok accepted
      cases returned
      exact applyPoolRegistration_pool applied
  | poolRetirement poolId epoch =>
      obtain ⟨retired, applied, returned⟩ := bind_ok accepted
      cases returned
      exact applyPoolRetirement_pool applied
  | stakeRegistrationDelegation | stakeVoteRegistrationDelegation =>
      obtain ⟨registered, applied, rest⟩ := bind_ok accepted
      obtain ⟨delegated, delegating, returned⟩ := bind_ok rest
      cases returned
      exact (applyStakeDelegation_pool delegating).trans (applyStakeRegistration_pool applied)
  | removedInConway tag => cases accepted
  | voteDelegation | authCommitteeHot | resignCommitteeCold | drepRegistration
  | drepUnregistration | drepUpdate =>
      cases accepted
      rfl

theorem PoolChange.retires_eq_some {change : PoolChange} {poolId : PoolId} {epoch : EpochNo} :
    change.retires poolId = some epoch ↔ change = .retire poolId epoch := by
  cases change with
  | keep | register => simp [PoolChange.retires]
  | retire retired target => simp [PoolChange.retires]

theorem retiring_apply (pool : PoolState) (change : PoolChange) (poolId : PoolId) :
    (change.apply pool).retiring[poolId]? =
      if change.registers poolId then none
      else (change.retires poolId).or pool.retiring[poolId]? := by
  cases change with
  | keep => rfl
  | register cert =>
      have erased : ((PoolChange.register cert).apply pool).retiring =
          pool.retiring.erase cert.poolId := by
        unfold PoolChange.apply
        dsimp only
        split_ifs
        · rfl
        · rfl
      rw [erased, BTreeMap.getElem?_erase]
      simp [PoolChange.registers, PoolChange.retires]
  | retire retired epoch =>
      show (pool.retiring.insert retired epoch)[poolId]? = _
      rw [BTreeMap.getElem?_insert]
      by_cases same : retired = poolId
      · simp [PoolChange.registers, PoolChange.retires, same]
      · simp [PoolChange.registers, PoolChange.retires, same]

theorem mem_pools_apply {pool : PoolState} {change : PoolChange} {poolId : PoolId}
    (unregistered : change.registers poolId = false)
    (member : poolId ∈ (change.apply pool).pools) : poolId ∈ pool.pools := by
  cases change with
  | keep => exact member
  | register cert =>
      have other : cert.poolId ≠ poolId := of_decide_eq_false unregistered
      unfold PoolChange.apply at member
      dsimp only at member
      split_ifs at member with active
      · exact member
      · exact (BTreeMap.mem_insert.mp member).resolve_left other
  | retire retired epoch => exact member

/-! ## Reaping -/

theorem mem_retired {retiring : BTreeMap PoolId EpochNo} {entered : EpochNo} {poolId : PoolId} :
    poolId ∈ (retiring.toList.filter fun entry => entry.2 = entered).map Prod.fst ↔
      retiring[poolId]? = some entered := by
  rw [List.mem_map]
  constructor
  · rintro ⟨⟨listed, epoch⟩, member, rfl⟩
    obtain ⟨found, due⟩ := List.mem_filter.mp member
    rw [← show epoch = entered from of_decide_eq_true due]
    exact BTreeMap.mem_toList.mp found
  · intro found
    exact ⟨(poolId, entered), List.mem_filter.mpr
      ⟨BTreeMap.mem_toList.mpr found, decide_eq_true rfl⟩, rfl⟩

theorem applyPoolReap_retiring (state : CertState) (entered : EpochNo) (poolId : PoolId) :
    (applyPoolReap state entered).pool.retiring[poolId]? =
      if state.pool.retiring[poolId]? = some entered then none
      else state.pool.retiring[poolId]? := by
  unfold applyPoolReap
  dsimp only
  rw [BTreeMap.getElem?_foldl_erase]
  simp only [mem_retired]

theorem mem_pools_applyPoolReap {entered : EpochNo} {poolId : PoolId}
    (member : poolId ∈ (applyPoolReap state entered).pool.pools) :
    state.pool.retiring[poolId]? ≠ some entered ∧ poolId ∈ state.pool.pools := by
  obtain ⟨survives, adopted⟩ := BTreeMap.mem_foldl_erase.mp member
  exact ⟨fun due => survives (Iff.mpr mem_retired due), (mem_adoptPools _ _ _).mp adopted⟩

/-! ## Runs -/

variable {before after : EpochCerts} {action : EpochAction}

/-- A step is a certificate that changes the pools as it says, or the reaping at the next epoch. -/
theorem epochStep_cases (step : EpochStep before action after) :
    (after.epoch = before.epoch ∧
      after.cert.pool = action.poolChange.apply before.cert.pool) ∨
    (action.poolChange = .keep ∧ after.epoch.toNat = before.epoch.toNat + 1 ∧
      after.cert = applyPoolReap before.cert after.epoch) := by
  cases step with
  | shelley accepted => exact .inl ⟨rfl, applyCert_pool accepted⟩
  | conway accepted => exact .inl ⟨rfl, applyConwayCert_pool accepted⟩
  | boundary follows => exact .inr ⟨rfl, follows, rfl⟩

theorem timelyStep_noneOverdue (step : TimelyStep before action after)
    (noneOverdue : before.NoneOverdue) : after.NoneOverdue := by
  obtain ⟨taken, timely⟩ := step
  intro poolId epoch scheduled
  rcases epochStep_cases taken with ⟨sameEpoch, changed⟩ | ⟨-, follows, reaped⟩
  · rw [changed, retiring_apply] at scheduled
    rw [sameEpoch]
    split_ifs at scheduled
    rcases Option.or_eq_some_iff.mp scheduled with retires | ⟨-, kept⟩
    · exact timely poolId epoch (PoolChange.retires_eq_some.mp retires)
    · exact noneOverdue poolId epoch kept
  · rw [reaped, applyPoolReap_retiring] at scheduled
    split_ifs at scheduled with due
    have later := noneOverdue poolId epoch scheduled
    have other : epoch ≠ after.epoch := by
      rintro rfl
      exact due scheduled
    rw [UInt64.lt_iff_toNat_lt] at later ⊢
    have distinct : epoch.toNat ≠ after.epoch.toNat := fun same => other (UInt64.toNat.inj same)
    omega

/-- A pool that waits for its retirement epoch, or has left. -/
def Leaving (poolId : PoolId) (epoch : EpochNo) (state : EpochCerts) : Prop :=
  (state.cert.pool.retiring[poolId]? = some epoch ∧ state.epoch < epoch) ∨
    poolId ∉ state.cert.pool.pools

theorem epochStep_leaving {poolId : PoolId} {epoch : EpochNo} (step : EpochStep before action after)
    (unregistered : action.poolChange.registers poolId = false)
    (unscheduled : action.poolChange.retires poolId = none)
    (leaving : Leaving poolId epoch before) : Leaving poolId epoch after := by
  rcases epochStep_cases step with ⟨sameEpoch, changed⟩ | ⟨-, follows, reaped⟩
  · rcases leaving with ⟨scheduled, waits⟩ | gone
    · refine .inl ⟨?_, sameEpoch ▸ waits⟩
      rw [changed, retiring_apply, unregistered, unscheduled]
      exact scheduled
    · refine .inr fun member => gone ?_
      rw [changed] at member
      exact mem_pools_apply unregistered member
  · rcases leaving with ⟨scheduled, waits⟩ | gone
    · by_cases due : epoch = after.epoch
      · refine .inr fun member => ?_
        rw [reaped] at member
        exact (mem_pools_applyPoolReap member).1 (due ▸ scheduled)
      · refine .inl ⟨?_, ?_⟩
        · rw [reaped, applyPoolReap_retiring, scheduled, if_neg]
          exact fun same => due (Option.some.inj same)
        · have distinct : epoch.toNat ≠ after.epoch.toNat := fun same => due (UInt64.toNat.inj same)
          rw [UInt64.lt_iff_toNat_lt] at waits ⊢
          omega
    · refine .inr fun member => gone ?_
      rw [reaped] at member
      exact (mem_pools_applyPoolReap member).2

theorem run_leaving {poolId : PoolId} {epoch : EpochNo} {actions : List EpochAction}
    (run : Run TimelyStep before actions after)
    (untouched : ∀ action ∈ actions, action.poolChange.registers poolId = false ∧
      action.poolChange.retires poolId = none)
    (leaving : Leaving poolId epoch before) : Leaving poolId epoch after := by
  induction run with
  | nil => exact leaving
  | cons head tail ih =>
      obtain ⟨unregistered, unscheduled⟩ := untouched _ (List.mem_cons_self ..)
      apply ih fun action member => untouched action (List.mem_cons_of_mem _ member)
      exact epochStep_leaving head.1 unregistered unscheduled leaving

/-- In a run that schedules retirements for later epochs only, none is ever overdue, and a pool
whose retirement was not taken back is gone from its epoch on. -/
theorem retirements_take_effect {actions : List EpochAction}
    (unscheduled : before.cert.pool.retiring = ∅) (run : Run TimelyStep before actions after) :
    after.NoneOverdue ∧
      ∀ (earlier later : List EpochAction) (action : EpochAction) (poolId : PoolId) (epoch : EpochNo),
        actions = earlier ++ action :: later → action.poolChange = .retire poolId epoch →
        (∀ other ∈ later, other.poolChange.registers poolId = false ∧
          other.poolChange.retires poolId = none) →
        epoch ≤ after.epoch → poolId ∉ after.cert.pool.pools := by
  have initially : before.NoneOverdue := by
    intro poolId epoch scheduled
    rw [unscheduled, ExtTreeMap.getElem?_empty] at scheduled
    cases scheduled
  refine ⟨run.invariant (fun _ _ _ => timelyStep_noneOverdue) initially, ?_⟩
  intro earlier later action poolId epoch split retires untouched entered
  subst split
  obtain ⟨middle, first, rest⟩ := run.of_append
  cases rest with
  | cons head tail =>
      rename_i accepted
      have leaving : Leaving poolId epoch accepted := by
        rcases epochStep_cases head.1 with ⟨sameEpoch, changed⟩ | ⟨keep, -, -⟩
        · refine .inl ⟨?_, sameEpoch ▸ head.2 poolId epoch retires⟩
          rw [changed, retires]
          exact ExtTreeMap.getElem?_insert_self
        · rw [retires] at keep
          cases keep
      rcases run_leaving tail untouched leaving with ⟨-, waits⟩ | gone
      · exact absurd entered (UInt64.not_le.mpr waits)
      · exact gone

def registerAction : EpochAction := .conway (.poolRegistration samplePool) ⟨2, 0⟩

def retireAction : EpochAction := .conway (.poolRetirement samplePool.poolId 5) ⟨2, 1⟩

/-- One pool, to retire at epoch 5. -/
def sampleScheduled : CertState :=
  ⟨CertState.new.delegation, { samplePools with
    retiring := (∅ : BTreeMap PoolId EpochNo).insert samplePool.poolId 5 }⟩

def sampleRegistered : CertState := ⟨CertState.new.delegation, samplePools⟩

theorem registerStep (now : EpochNo) :
    EpochStep ⟨.new, now⟩ registerAction ⟨sampleRegistered, now⟩ := by
  have accepted : applyConwayCert .new (.poolRegistration samplePool) ⟨2, 0⟩ =
      .ok (plain sampleRegistered) := by rfl
  exact @EpochStep.conway ⟨.new, now⟩ _ _ _ accepted

theorem retireStep (now : EpochNo) :
    EpochStep ⟨sampleRegistered, now⟩ retireAction ⟨sampleScheduled, now⟩ := by
  have accepted : applyConwayCert sampleRegistered (.poolRetirement samplePool.poolId 5) ⟨2, 1⟩ =
      .ok (plain sampleScheduled) := by decide +kernel
  exact @EpochStep.conway ⟨sampleRegistered, now⟩ _ _ _ accepted

theorem retirements_take_effect_in_the_next_epoch :
    samplePool.poolId ∉ (applyPoolReap sampleScheduled 5).pool.pools := by
  have register : TimelyStep ⟨.new, 4⟩ registerAction ⟨sampleRegistered, 4⟩ :=
    ⟨registerStep 4, fun poolId epoch retires => by cases retires⟩
  have retire : TimelyStep ⟨sampleRegistered, 4⟩ retireAction ⟨sampleScheduled, 4⟩ := by
    refine ⟨retireStep 4, fun poolId epoch retires => ?_⟩
    cases retires
    decide
  have boundary : TimelyStep ⟨sampleScheduled, 4⟩ .boundary ⟨applyPoolReap sampleScheduled 5, 5⟩ :=
    ⟨.boundary rfl, fun poolId epoch retires => by cases retires⟩
  have run := Run.cons register (.cons retire (.cons boundary (.nil _)))
  apply (retirements_take_effect rfl run).2 [registerAction] [.boundary] retireAction
    samplePool.poolId 5 rfl rfl
  · intro other member
    rw [List.mem_singleton.mp member]
    exact ⟨rfl, rfl⟩
  · decide

/-- The same certificates one epoch later: the retirement is accepted in the epoch it is for, and
the pool never leaves. -/
theorem retirement_in_the_current_epoch_is_never_due :
    Run EpochStep ⟨.new, 5⟩ [registerAction, retireAction, .boundary]
        ⟨applyPoolReap sampleScheduled 6, 6⟩ ∧
      (applyPoolReap sampleScheduled 6).pool.retiring[samplePool.poolId]? = some 5 ∧
      samplePool.poolId ∈ (applyPoolReap sampleScheduled 6).pool.pools := by
  refine ⟨.cons (registerStep 5) (.cons (retireStep 5) (.cons (.boundary rfl) (.nil _))), ?_, ?_⟩
  · decide +kernel
  · decide +kernel

end Ade.Proof.Ledger
