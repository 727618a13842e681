import Ade.Library.Except
import Ade.Ledger.Delegation

namespace Ade.Proof.Ledger
open Std (ExtTreeMap)
open Library Ade.Ledger

variable {state next : CertState}

/-! ## What each effect does -/

theorem applyStakeRegistration_ok {cred : StakeCredential} {deposit : Coin} {certIndex : UInt16}
    (applied : applyStakeRegistration state cred deposit certIndex = .ok next) :
    cred ∉ state.delegation.registrations ∧
      next = { state with delegation := { state.delegation with
        registrations := state.delegation.registrations.insert cred deposit
        rewards := state.delegation.rewards.insert cred 0 } } := by
  unfold applyStakeRegistration at applied
  split_ifs at applied with registered
  cases applied
  exact ⟨fun member => registered (ExtTreeMap.contains_iff_mem.mpr member), rfl⟩

theorem applyStakeDeregistration_ok {cred : StakeCredential} {certIndex : UInt16}
    (applied : applyStakeDeregistration state cred certIndex = .ok next) :
    cred ∈ state.delegation.registrations ∧
      next = { state with delegation :=
        { registrations := state.delegation.registrations.erase cred
          delegations := state.delegation.delegations.erase cred
          rewards := state.delegation.rewards.erase cred } } := by
  unfold applyStakeDeregistration at applied
  split_ifs at applied with registered
  cases applied
  exact ⟨ExtTreeMap.contains_iff_mem.mp registered, rfl⟩

theorem applyStakeDelegation_ok {cred : StakeCredential} {poolId : PoolId} {certIndex : UInt16}
    (applied : applyStakeDelegation state cred poolId certIndex = .ok next) :
    cred ∈ state.delegation.registrations ∧ poolId ∈ state.pool.pools ∧
      next = { state with delegation := { state.delegation with
        delegations := state.delegation.delegations.insert cred poolId } } := by
  unfold applyStakeDelegation at applied
  split_ifs at applied with registered active
  cases applied
  exact ⟨ExtTreeMap.contains_iff_mem.mp registered, ExtTreeMap.contains_iff_mem.mp active, rfl⟩

theorem applyPoolRetirement_ok {poolId : PoolId} {epoch : EpochNo} {certIndex : UInt16}
    (applied : applyPoolRetirement state poolId epoch certIndex = .ok next) :
    poolId ∈ state.pool.pools ∧
      next = { state with pool := { state.pool with
        retiring := state.pool.retiring.insert poolId epoch } } := by
  unfold applyPoolRetirement at applied
  split_ifs at applied with active
  cases applied
  exact ⟨ExtTreeMap.contains_iff_mem.mp active, rfl⟩

/-! ## Each effect keeps the state well formed -/

theorem applyStakeRegistration_wellFormed (wellFormed : state.WellFormed) {cred : StakeCredential}
    {deposit : Coin} {certIndex : UInt16}
    (applied : applyStakeRegistration state cred deposit certIndex = .ok next) :
    next.WellFormed := by
  obtain ⟨-, rfl⟩ := applyStakeRegistration_ok applied
  constructor
  · intro other
    rw [BTreeMap.mem_insert, BTreeMap.mem_insert, wellFormed.rewarded]
  · intro other poolId delegated
    obtain ⟨registered, active⟩ := wellFormed.delegating other poolId delegated
    exact ⟨BTreeMap.mem_insert.mpr (.inr registered), active⟩
  · exact wellFormed.staged
  · exact wellFormed.retiring

theorem applyStakeDeregistration_wellFormed (wellFormed : state.WellFormed)
    {cred : StakeCredential} {certIndex : UInt16}
    (applied : applyStakeDeregistration state cred certIndex = .ok next) : next.WellFormed := by
  obtain ⟨-, rfl⟩ := applyStakeDeregistration_ok applied
  constructor
  · intro other
    rw [BTreeMap.mem_erase, BTreeMap.mem_erase, wellFormed.rewarded]
  · intro other poolId delegated
    rw [BTreeMap.getElem?_erase] at delegated
    split_ifs at delegated with same
    obtain ⟨registered, active⟩ := wellFormed.delegating other poolId delegated
    exact ⟨BTreeMap.mem_erase.mpr ⟨same, registered⟩, active⟩
  · exact wellFormed.staged
  · exact wellFormed.retiring

theorem applyStakeDelegation_wellFormed (wellFormed : state.WellFormed) {cred : StakeCredential}
    {poolId : PoolId} {certIndex : UInt16}
    (applied : applyStakeDelegation state cred poolId certIndex = .ok next) : next.WellFormed := by
  obtain ⟨registered, active, rfl⟩ := applyStakeDelegation_ok applied
  constructor
  · exact wellFormed.rewarded
  · intro other target delegated
    rw [BTreeMap.getElem?_insert] at delegated
    split_ifs at delegated with same
    · cases delegated
      exact ⟨same ▸ registered, active⟩
    · exact wellFormed.delegating other target delegated
  · exact wellFormed.staged
  · exact wellFormed.retiring

theorem applyPoolRegistration_wellFormed (wellFormed : state.WellFormed)
    {cert : PoolRegistrationCert} (applied : applyPoolRegistration state cert = .ok next) :
    next.WellFormed := by
  have kept : ∀ poolId ∈ state.pool.retiring.erase cert.poolId, poolId ∈ state.pool.pools := by
    intro poolId member
    exact wellFormed.retiring poolId (BTreeMap.mem_erase.mp member).2
  unfold applyPoolRegistration at applied
  dsimp only at applied
  split_ifs at applied with active
  · cases applied
    constructor
    · exact wellFormed.rewarded
    · exact wellFormed.delegating
    · intro poolId member
      rcases BTreeMap.mem_insert.mp member with rfl | staged
      · exact ExtTreeMap.contains_iff_mem.mp active
      · exact wellFormed.staged poolId staged
    · exact kept
  · cases applied
    constructor
    · exact wellFormed.rewarded
    · intro cred poolId delegated
      obtain ⟨registered, target⟩ := wellFormed.delegating cred poolId delegated
      exact ⟨registered, BTreeMap.mem_insert.mpr (.inr target)⟩
    · intro poolId member
      exact BTreeMap.mem_insert.mpr (.inr (wellFormed.staged poolId member))
    · intro poolId member
      exact BTreeMap.mem_insert.mpr (.inr (kept poolId member))

theorem applyPoolRetirement_wellFormed (wellFormed : state.WellFormed) {poolId : PoolId}
    {epoch : EpochNo} {certIndex : UInt16}
    (applied : applyPoolRetirement state poolId epoch certIndex = .ok next) : next.WellFormed := by
  obtain ⟨active, rfl⟩ := applyPoolRetirement_ok applied
  constructor
  · exact wellFormed.rewarded
  · exact wellFormed.delegating
  · exact wellFormed.staged
  · intro other member
    rcases BTreeMap.mem_insert.mp member with rfl | member
    · exact active
    · exact wellFormed.retiring other member

theorem applyConwayCert_wellFormed (wellFormed : state.WellFormed) {cert : ConwayCert}
    {env : ConwayCertEnv} {outcome : ConwayCertOutcome}
    (accepted : applyConwayCert state cert env = .ok outcome) : outcome.state.WellFormed := by
  cases cert with
  | accountRegistration credential =>
      obtain ⟨registered, applied, returned⟩ := bind_ok accepted
      cases returned
      exact applyStakeRegistration_wellFormed wellFormed applied
  | accountRegistrationDeposit credential deposit =>
      obtain ⟨registered, applied, returned⟩ := bind_ok accepted
      cases returned
      exact applyStakeRegistration_wellFormed wellFormed applied
  | accountUnregistration credential =>
      obtain ⟨removed, applied, returned⟩ := bind_ok accepted
      cases returned
      exact applyStakeDeregistration_wellFormed wellFormed applied
  | accountUnregistrationDeposit credential refund =>
      obtain ⟨removed, applied, returned⟩ := bind_ok accepted
      cases returned
      exact applyStakeDeregistration_wellFormed wellFormed applied
  | stakeDelegation credential poolId =>
      obtain ⟨delegated, applied, returned⟩ := bind_ok accepted
      cases returned
      exact applyStakeDelegation_wellFormed wellFormed applied
  | poolRegistration cert =>
      obtain ⟨registered, applied, returned⟩ := bind_ok accepted
      cases returned
      exact applyPoolRegistration_wellFormed wellFormed applied
  | poolRetirement poolId epoch =>
      obtain ⟨retired, applied, returned⟩ := bind_ok accepted
      cases returned
      exact applyPoolRetirement_wellFormed wellFormed applied
  | stakeRegistrationDelegation credential poolId deposit =>
      obtain ⟨registered, applied, rest⟩ := bind_ok accepted
      obtain ⟨delegated, delegating, returned⟩ := bind_ok rest
      cases returned
      exact applyStakeDelegation_wellFormed (applyStakeRegistration_wellFormed wellFormed applied)
        delegating
  | stakeVoteDelegation credential poolId drep =>
      obtain ⟨delegated, applied, returned⟩ := bind_ok accepted
      cases returned
      exact applyStakeDelegation_wellFormed wellFormed applied
  | voteRegistrationDelegation credential drep deposit =>
      obtain ⟨registered, applied, returned⟩ := bind_ok accepted
      cases returned
      exact applyStakeRegistration_wellFormed wellFormed applied
  | stakeVoteRegistrationDelegation credential poolId drep deposit =>
      obtain ⟨registered, applied, rest⟩ := bind_ok accepted
      obtain ⟨delegated, delegating, returned⟩ := bind_ok rest
      cases returned
      exact applyStakeDelegation_wellFormed (applyStakeRegistration_wellFormed wellFormed applied)
        delegating
  | removedInConway tag => cases accepted
  | voteDelegation | authCommitteeHot | resignCommitteeCold | drepRegistration
  | drepUnregistration | drepUpdate =>
      cases accepted
      exact wellFormed

/-! ## The epoch boundary -/

theorem mem_adoptPools (staged : List (PoolId × PoolParams)) (pools : BTreeMap PoolId PoolParams)
    (poolId : PoolId) : poolId ∈ staged.foldl adoptPool pools ↔ poolId ∈ pools := by
  induction staged generalizing pools with
  | nil => rfl
  | cons entry staged ih =>
      rw [List.foldl_cons, ih]
      unfold adoptPool
      split_ifs with active
      · rw [BTreeMap.mem_insert]
        constructor
        · rintro (rfl | member)
          · exact ExtTreeMap.contains_iff_mem.mp active
          · exact member
        · exact .inr
      · rfl

/-- A delegation survives the boundary only if its pool does. -/
theorem applyPoolReap_delegations {enteredEpoch : EpochNo} {cred : StakeCredential}
    {poolId : PoolId}
    (delegated : (applyPoolReap state enteredEpoch).delegation.delegations[cred]? = some poolId) :
    state.delegation.delegations[cred]? = some poolId ∧
      poolId ∉ (state.pool.retiring.toList.filter fun entry => entry.2 = enteredEpoch).map
        Prod.fst := by
  unfold applyPoolReap at delegated
  dsimp only at delegated
  split_ifs at delegated with none
  · rw [List.isEmpty_iff.mp none]
    exact ⟨delegated, List.not_mem_nil⟩
  · rw [ExtTreeMap.getElem?_filter', Option.filter_eq_some_iff] at delegated
    refine ⟨delegated.1, ?_⟩
    simpa using delegated.2

theorem applyPoolReap_wellFormed (wellFormed : state.WellFormed) (enteredEpoch : EpochNo) :
    (applyPoolReap state enteredEpoch).WellFormed := by
  constructor
  · exact wellFormed.rewarded
  · intro cred poolId delegated
    obtain ⟨before, survives⟩ := applyPoolReap_delegations delegated
    obtain ⟨registered, active⟩ := wellFormed.delegating cred poolId before
    refine ⟨registered, BTreeMap.mem_foldl_erase.mpr ⟨survives, ?_⟩⟩
    exact (mem_adoptPools _ _ poolId).mpr active
  · intro poolId member
    exact absurd member ExtTreeMap.not_mem_empty
  · intro poolId member
    obtain ⟨survives, retiring⟩ := BTreeMap.mem_foldl_erase.mp member
    refine BTreeMap.mem_foldl_erase.mpr ⟨survives, ?_⟩
    exact (mem_adoptPools _ _ poolId).mpr (wellFormed.retiring poolId retiring)

/-! ## Runs -/

theorem step_wellFormed {action : CertAction} (step : CertStep state action next)
    (wellFormed : state.WellFormed) : next.WellFormed := by
  cases step with
  | certificate accepted => exact applyConwayCert_wellFormed wellFormed accepted
  | reap enteredEpoch => exact applyPoolReap_wellFormed wellFormed enteredEpoch

theorem new_wellFormed : CertState.new.WellFormed := by
  constructor <;> simp [CertState.new]

/-- Every state that certificates and epoch boundaries lead to is well formed. The next certificate
either leads to another such state or is rejected with an error alone. -/
theorem certState_wellFormed (actions : List CertAction) (state : CertState)
    (run : Run CertStep .new actions state) :
    state.WellFormed ∧ ∀ cert env,
      (∃ outcome, applyConwayCert state cert env = .ok outcome ∧ outcome.state.WellFormed) ∨
        ∃ failure, applyConwayCert state cert env = .error failure := by
  have wellFormed : state.WellFormed := by
    apply run.invariant _ new_wellFormed
    intro before action after step
    exact step_wellFormed step
  refine ⟨wellFormed, fun cert env => ?_⟩
  cases result : applyConwayCert state cert env with
  | error failure => exact .inr ⟨failure, rfl⟩
  | ok outcome => exact .inl ⟨outcome, rfl, applyConwayCert_wellFormed wellFormed result⟩

def samplePool : PoolRegistrationCert where
  poolId := Vector.replicate 28 1
  vrfHash := Vector.replicate 32 2
  pledge := 0
  cost := 340
  margin := (0, 1)
  rewardAccount := []
  owners := []

def sampleCredential : StakeCredential := .keyHash (Vector.replicate 28 7)

def samplePools : PoolState :=
  ⟨(∅ : BTreeMap PoolId PoolParams).insert samplePool.poolId samplePool.params, ∅, ∅⟩

def sampleDelegation : DelegationState :=
  ⟨(∅ : BTreeMap StakeCredential Coin).insert sampleCredential 2,
    (∅ : BTreeMap StakeCredential PoolId).insert sampleCredential samplePool.poolId,
    (∅ : BTreeMap StakeCredential Coin).insert sampleCredential 0⟩

def sampleRetiring : CertState :=
  ⟨sampleDelegation, { samplePools with
    retiring := (∅ : BTreeMap PoolId EpochNo).insert samplePool.poolId 5 }⟩

/-- A pool and a credential delegated to it, up to the epoch at which the pool retires. -/
theorem certState_wellFormed_after_reap : (applyPoolReap sampleRetiring 5).WellFormed := by
  have poolStep := @CertStep.certificate .new (.poolRegistration samplePool) ⟨2, 0⟩
    (plain ⟨CertState.new.delegation, samplePools⟩) rfl
  have stakeStep := @CertStep.certificate ⟨CertState.new.delegation, samplePools⟩
    (.stakeRegistrationDelegation sampleCredential samplePool.poolId 2) ⟨2, 1⟩
    (plain ⟨sampleDelegation, samplePools⟩) (by decide +kernel)
  have retireStep := @CertStep.certificate ⟨sampleDelegation, samplePools⟩
    (.poolRetirement samplePool.poolId 5) ⟨2, 2⟩ (plain sampleRetiring) (by decide +kernel)
  have run := Run.cons poolStep (.cons stakeStep (.cons retireStep
    (.cons (.reap sampleRetiring 5) (.nil _))))
  exact (certState_wellFormed _ _ run).1

end Ade.Proof.Ledger
