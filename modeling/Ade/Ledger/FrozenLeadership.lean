import Ade.Ledger.EpochAccumulator

/-! The leadership distribution that a boundary freezes for the epoch after the next. -/

namespace Ade.Ledger
open Std Library

structure LeadershipPoolEntry where
  activeStake : UInt64
  vrfKeyhash : Hash32
deriving DecidableEq, Repr

/-- `sourceSlot` and `sourceHash` are the point that the distribution was frozen at. -/
structure FrozenLeadershipPoolDistr where
  targetLeadershipEpoch : EpochNo
  sourceSlot : SlotNo
  sourceHash : Hash32
  sourceCheckpointCommitment : Hash32
  totalActiveStake : UInt64
  pools : BTreeMap Hash28 LeadershipPoolEntry
deriving DecidableEq

/-- A pool without a registered key is left out. -/
def freezePool (markPoolStakes : BTreeMap PoolId Coin) (registeredPoolVrfs : BTreeMap PoolId Hash32)
    (pools : BTreeMap Hash28 LeadershipPoolEntry) (poolId : PoolId) :
    BTreeMap Hash28 LeadershipPoolEntry :=
  match registeredPoolVrfs[poolId]? with
  | some vrfKeyhash => pools.insert poolId ⟨amountOf markPoolStakes poolId, vrfKeyhash⟩
  | none => pools

def FrozenLeadershipPoolDistr.fromBoundarySnapshot (epoch : EpochNo) (sourceSlot : SlotNo)
    (sourceHash sourceCheckpointCommitment : Hash32) (delegatedPools : BTreeSet PoolId)
    (markPoolStakes : BTreeMap PoolId Coin) (registeredPoolVrfs : BTreeMap PoolId Hash32)
    (totalActiveStake : UInt64) : FrozenLeadershipPoolDistr where
  targetLeadershipEpoch := epoch
  sourceSlot := sourceSlot
  sourceHash := sourceHash
  sourceCheckpointCommitment := sourceCheckpointCommitment
  totalActiveStake := totalActiveStake
  pools := delegatedPools.toList.foldl (freezePool markPoolStakes registeredPoolVrfs) ∅

inductive EpochBoundaryEffect where
  | freezeLeadership (sourceEpoch targetLeadershipEpoch : EpochNo) (distr : FrozenLeadershipPoolDistr)
deriving DecidableEq

section
variable (ratifyFrozen : FrozenRatificationInput → Except GovernanceTerminal RatificationRecord)
  (commitments : SeedCommitments)

def crossEpochBoundaryWithEffect (acc : EpochAccumulator) (target : EpochNo) (ctx : SelectedBlockCtx)
    (markSourceSlot : SlotNo) (markSourceHash sourceCheckpointCommitment : Hash32) :
    Transition (EpochAccumulator × EpochBoundaryEffect) := do
  let (acc, inputs) ← crossEpochBoundaryTransition ratifyFrozen commitments acc target ctx
  let distr := FrozenLeadershipPoolDistr.fromBoundarySnapshot inputs.targetLeadershipEpoch
    markSourceSlot markSourceHash sourceCheckpointCommitment inputs.delegatedPools
    inputs.markPoolStakes inputs.registeredPoolVrfs inputs.totalActiveStake
  return (acc, .freezeLeadership inputs.sourceEpoch inputs.targetLeadershipEpoch distr)

end

/-! ## What is frozen -/

/-- The reward balances after the reward update, before pools are reaped and deposits are returned. -/
def rewardsAfterUpdate {Utxo : Type} (state : LedgerState Utxo) (activeSlotsPerEpoch : UInt64) :
    Boundary (BTreeMap StakeCredential Coin) := do
  let snaps ← orTerminal (state.epochState.snapshots.requireFull state.epochState.slot)
  let cert ← orTerminal (state.certState.requireFull state.epochState.slot)
  let pot ← rewardPot state activeSlotsPerEpoch
  let allocation ← (rewardInputs state snaps.go pot (registeredIn none cert)).allocate
  return (allocation.rewardDeltas.toList.foldl (Payout.applyRUpd (registeredIn none cert))
    ⟨cert.delegation.rewards, 0⟩).rewards

/-- The same at a boundary of the accumulator, with the rewards of a seed authority. -/
def EpochAccumulator.rewardsAfterUpdate (acc : EpochAccumulator) (commitments : SeedCommitments)
    (target : EpochNo) (ctx : SelectedBlockCtx) : Transition (BTreeMap StakeCredential Coin) := do
  let authority ← takeSeedAuthority acc.pendingRewardUpdate target
  let staged ← stageSeedReward commitments { acc with pendingRewardUpdate := none } authority
  orBoundaryFailure (Ledger.rewardsAfterUpdate (boundaryView staged.acc staged.inputs)
    ctx.activeSlotsPerEpoch)

/-- Base stake and reward balance. -/
def credentialStake (base rewards : BTreeMap StakeCredential Coin) (cred : StakeCredential) : Nat :=
  (amountOf base cred).toNat + (amountOf rewards cred).toNat

/-- The credentials that are delegated to a pool. -/
def delegatorsOf (delegations : BTreeMap StakeCredential PoolId) (poolId : PoolId) :
    List StakeCredential :=
  (delegations.toList.filter fun entry => entry.2 = poolId).map Prod.fst

/-- What all delegated credentials have. -/
def delegatedStake (delegations : BTreeMap StakeCredential PoolId)
    (base rewards : BTreeMap StakeCredential Coin) : Nat :=
  (delegations.toList.map fun entry => credentialStake base rewards entry.1).sum

/-- The part of the active stake that a pool has. -/
def FrozenLeadershipPoolDistr.relativeStake (distr : FrozenLeadershipPoolDistr)
    (entry : LeadershipPoolEntry) : ℚ :=
  entry.activeStake.toNat / distr.totalActiveStake.toNat

/-- The distribution of the stake over the pools that have a delegator in `cert`. -/
structure FrozenLeadershipPoolDistr.Distributes (distr : FrozenLeadershipPoolDistr) (cert : CertState)
    (base rewards : BTreeMap StakeCredential Coin) : Prop where
  pools : ∀ poolId : PoolId, poolId ∈ distr.pools ↔
    ∃ cred : StakeCredential, cert.delegation.delegations[cred]? = some poolId
  stakes : ∀ (poolId : PoolId) (entry : LeadershipPoolEntry), distr.pools[poolId]? = some entry →
    entry.activeStake.toNat =
      ((delegatorsOf cert.delegation.delegations poolId).map (credentialStake base rewards)).sum
  keys : ∀ (poolId : PoolId) (entry : LeadershipPoolEntry), distr.pools[poolId]? = some entry →
    ∃ params : PoolParams, cert.pool.pools[poolId]? = some params ∧ entry.vrfKeyhash = params.vrfHash
  total : (distr.pools.toList.map fun entry => entry.2.activeStake.toNat).sum =
    distr.totalActiveStake.toNat
  atMostOne : ∀ (poolId : PoolId) (entry : LeadershipPoolEntry),
    distr.pools[poolId]? = some entry → distr.relativeStake entry ≤ 1
  sumsToOne : distr.totalActiveStake ≠ 0 →
    (distr.pools.toList.map fun entry => distr.relativeStake entry.2).sum = 1

/-- Every delegation targets an active pool. -/
def CertState.DelegatesToPools (cert : CertState) : Prop :=
  ∀ (cred : StakeCredential) (poolId : PoolId),
    cert.delegation.delegations[cred]? = some poolId → poolId ∈ cert.pool.pools

end Ade.Ledger
