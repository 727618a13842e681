import Ade.Ledger.Governance

/-! The epoch boundary: rewards, snapshots, pool reaping and the pots. -/

namespace Ade.Ledger
open Std Library

/-- `overflow`: an unchecked operation left its machine type and the call panicked. -/
inductive BoundaryFailure where
  | terminal (reason : GovernanceTerminal)
  | overflow
deriving DecidableEq

abbrev Boundary := Except BoundaryFailure

def orOverflow {α : Type} : Option α → Boundary α
  | some value => .ok value
  | none => .error .overflow

def orTerminal {α : Type} : Except GovernanceTerminal α → Boundary α
  | .ok value => .ok value
  | .error reason => .error (.terminal reason)

def mulI128 (a b : Int) : Boundary Int := orOverflow (checkedMulI128 a b)

def addU64 (a b : UInt64) : Boundary UInt64 := orOverflow (checkedAdd a b)

def floorU64 (r : Rational) : UInt64 := asU64 (max r.floor 0)

/-! ## The reward pot -/

def eta (d : Rational) (totalBlocksProduced activeSlotsPerEpoch : UInt64) : Boundary Rational := do
  let threshold := (Rational.new 4 5).getD .one
  let decentralized ← mulI128 d.numerator threshold.denominator
  let required ← mulI128 threshold.numerator d.denominator
  if decentralized ≥ required then return .one
  else
    let oneMinusD := (Rational.one.checkedSub d).getD .one
    let epochSlots := Rational.fromInteger (asI128 activeSlotsPerEpoch)
    let expectedRat := (oneMinusD.checkedMul epochSlots).getD .one
    let expectedBlocks := asU64 (max expectedRat.floor 1)
    if totalBlocksProduced ≥ expectedBlocks then return .one
    else if expectedBlocks > 0 then
      return (Rational.new (asI128 totalBlocksProduced) (asI128 expectedBlocks)).getD .one
    else return .one

def deltaR1 (reserves : Coin) (rho eta : Rational) : UInt64 :=
  (((Rational.fromInteger (asI128 reserves)).checkedMul rho).bind fun r => r.checkedMul eta).elim 0
    floorU64

def treasuryDelta (totalReward : Coin) (tau : Rational) : UInt64 :=
  ((Rational.fromInteger (asI128 totalReward)).checkedMul tau).elim 0 floorU64

def totalStake (protocolMajor : UInt32) (totalActiveStake maxLovelaceSupply reserves : UInt64) :
    UInt64 :=
  if protocolMajor < 4 then totalActiveStake else saturatingSub maxLovelaceSupply reserves

/-! ## One pool -/

structure RewardInputs where
  protocolParams : ProtocolParameters
  go : StakeSnapshot
  blockProduction : BTreeMap PoolId UInt64
  totalBlocksProduced : UInt64
  totalActiveStake : UInt64
  totalStake : UInt64
  poolRewardPot : UInt64
  isCredRegistered : StakeCredential → Bool
  slot : SlotNo

structure Allocation where
  totalPoolRewards : UInt64
  totalMemberRewards : UInt64
  rewardedPoolCount : Nat
  rewardDeltas : BTreeMap StakeCredential Coin
deriving DecidableEq

namespace RewardInputs

variable (inputs : RewardInputs)

def performance (blocksProduced poolStake : UInt64) : Boundary Rational := do
  if inputs.totalBlocksProduced > 0 ∧ poolStake > 0 then
    let made ← mulI128 (asI128 blocksProduced) (asI128 inputs.totalActiveStake)
    let due ← mulI128 (asI128 inputs.totalBlocksProduced) (asI128 poolStake)
    return (Rational.new made due).getD .one
  else return .one

/-- `min x z` by cross multiplication. -/
def capAt (z x : Rational) : Boundary Rational := do
  let left ← mulI128 x.numerator z.denominator
  let right ← mulI128 z.numerator x.denominator
  return if left > right then z else x

def bracket (a0 z sigma s : Rational) : Option Rational := do
  let factor4 ← (← z.checkedSub sigma).checkedDiv z
  let factor3 ← (← sigma.checkedSub (← s.checkedMul factor4)).checkedDiv z
  let pledgeBonus ← (← s.checkedMul a0).checkedMul factor3
  sigma.checkedAdd pledgeBonus

/-- `pot * stake / total * 10 / 13` in `u128`. -/
def fallbackMaxPool (poolStake : UInt64) : Boundary UInt64 :=
  let share :=
    inputs.poolRewardPot.toNat * poolStake.toNat / inputs.totalStake.toNat * 10
  if share < 2 ^ 128 then .ok (UInt64.ofNat (share / 13)) else .error .overflow

def maxPool (params : SnapshotPoolParams) (poolStake : UInt64) : Boundary UInt64 := do
  let a0 := inputs.protocolParams.poolInfluence
  let z := (Rational.new 1 inputs.protocolParams.nOpt.toNat).getD .zero
  let sigma := (Rational.new (asI128 poolStake) (asI128 inputs.totalStake)).getD .zero
  let sigmaPrime ← capAt z sigma
  let s := (Rational.new (asI128 params.pledge) (asI128 inputs.totalStake)).getD .zero
  let sPrime ← capAt z s
  let onePlusA0 := (Rational.one.checkedAdd a0).getD .one
  let exactMax := do
    let br ← bracket a0 z sigmaPrime sPrime
    let pot := Rational.fromInteger (asI128 inputs.poolRewardPot)
    (← pot.checkedMul br).checkedDiv onePlusA0
  match exactMax with
  | some r => return floorU64 r
  | none => inputs.fallbackMaxPool poolStake

def poolMax (maxPool : UInt64) (performance : Rational) : UInt64 :=
  ((Rational.fromInteger (asI128 maxPool)).checkedMul performance).elim maxPool floorU64

def pledgeUnmet (poolId : PoolId) (params : SnapshotPoolParams) : Bool :=
  inputs.protocolParams.protocolMajor ≥ 4 ∧ params.pledge > 0 ∧
    params.pledge > inputs.go.selfDelegatedOwnerStake poolId params.selfDelegatedOwners

/-- Before Babbage a reward to an unregistered account is not computed. -/
def pvPrefilter : Bool := inputs.protocolParams.protocolMajor ≤ 6

def pays (cred : StakeCredential) : Bool := !inputs.pvPrefilter || inputs.isCredRegistered cred

def payOperator (params : SnapshotPoolParams) (amount : UInt64) (allocation : Allocation) :
    Allocation :=
  if inputs.pays params.rewardAccount then
    { allocation with
      rewardDeltas := credit allocation.rewardDeltas params.rewardAccount amount
      totalPoolRewards := saturatingAdd allocation.totalPoolRewards amount }
  else allocation

def useOwners : Bool := inputs.protocolParams.protocolMajor ≥ 4

/-- Before Mary this is the stake of the reward account, wherever it is delegated. -/
def ownerStake (poolId : PoolId) (params : SnapshotPoolParams) : UInt64 :=
  if inputs.useOwners then inputs.go.selfDelegatedOwnerStake poolId params.selfDelegatedOwners
  else (inputs.go.delegations[params.rewardAccount]?).elim 0 Prod.snd

def isOwner (params : SnapshotPoolParams) (cred : StakeCredential) : Bool :=
  if inputs.useOwners then
    match cred with
    | .keyHash hash => params.selfDelegatedOwners.contains hash
    | .scriptHash _ => false
  else params.rewardAccount = cred

def margin (params : SnapshotPoolParams) : Rational :=
  (Rational.new (asI128 params.margin.1) (asI128 params.margin.2)).getD .zero

def oneMinusMargin (params : SnapshotPoolParams) : Rational :=
  (Rational.one.checkedSub (margin params)).getD .one

def leaderReward (poolId : PoolId) (poolStake : UInt64) (params : SnapshotPoolParams)
    (fMinusC : UInt64) : Boundary UInt64 :=
  let opShare :=
    (Rational.new (asI128 (inputs.ownerStake poolId params)) (asI128 poolStake)).getD .zero
  let leaderTerm := ((margin params).checkedAdd
    (((oneMinusMargin params).checkedMul opShare).getD .zero)).getD (margin params)
  addU64 params.cost
    (((Rational.fromInteger (asI128 fMinusC)).checkedMul leaderTerm).elim 0 floorU64)

def memberReward (memberFactor : Rational) (stake poolStake : UInt64) : UInt64 :=
  let share := (Rational.new (asI128 stake) (asI128 poolStake)).getD .zero
  (memberFactor.checkedMul share).elim 0 floorU64

def payMember (params : SnapshotPoolParams) (poolStake : UInt64) (memberFactor : Rational)
    (paid : BTreeMap StakeCredential Coin × UInt64) (member : StakeCredential × Coin) :
    Boundary (BTreeMap StakeCredential Coin × UInt64) :=
  if inputs.isOwner params member.1 ∨ member.2 = 0 ∨ ¬ inputs.pays member.1 then .ok paid
  else
    let reward := memberReward memberFactor member.2 poolStake
    if reward > 0 then do
      let distributed ← addU64 paid.2 reward
      return (credit paid.1 member.1 reward, distributed)
    else .ok paid

def splitReward (poolId : PoolId) (poolStake : UInt64) (params : SnapshotPoolParams)
    (poolMax : UInt64) (allocation : Allocation) : Boundary Allocation := do
  let fMinusC := poolMax - params.cost
  let leaderReward ← inputs.leaderReward poolId poolStake params fMinusC
  let led := inputs.payOperator params leaderReward allocation
  let memberFactor :=
    ((Rational.fromInteger (asI128 fMinusC)).checkedMul (oneMinusMargin params)).getD .zero
  let paid ←
    if poolStake > 0 then
      (inputs.go.delegatorStakes poolId).foldlM (inputs.payMember params poolStake memberFactor)
        (led.rewardDeltas, 0)
    else pure (led.rewardDeltas, 0)
  return { led with
    rewardDeltas := paid.1
    totalMemberRewards := saturatingAdd led.totalMemberRewards paid.2
    rewardedPoolCount := led.rewardedPoolCount + 1 }

def rewardPool (allocation : Allocation) (entry : PoolId × Coin) : Boundary Allocation :=
  let blocksProduced := amountOf inputs.blockProduction entry.1
  if blocksProduced = 0 then .ok allocation
  else match inputs.go.poolParams[entry.1]? with
    | none => .error (.terminal (.rewardPoolParamsMissing entry.1 inputs.slot))
    | some params => do
        let performance ← inputs.performance blocksProduced entry.2
        let maxPool ← inputs.maxPool params entry.2
        if maxPool = 0 ∨ inputs.pledgeUnmet entry.1 params then return allocation
        else
          let poolMax := poolMax maxPool performance
          if poolMax = 0 then return allocation
          else if poolMax ≤ params.cost then
            let paid := inputs.payOperator params poolMax allocation
            return { paid with rewardedPoolCount := paid.rewardedPoolCount + 1 }
          else inputs.splitReward entry.1 entry.2 params poolMax allocation

def allocate : Boundary Allocation :=
  if inputs.totalStake > 0 ∧ inputs.totalActiveStake > 0 ∧ inputs.poolRewardPot > 0 then
    inputs.go.poolStakes.toList.foldlM inputs.rewardPool ⟨0, 0, 0, ∅⟩
  else return ⟨0, 0, 0, ∅⟩

end RewardInputs

/-! ## Payouts -/

/-- Reward balances, and what is owed to nobody so far. -/
structure Payout where
  rewards : BTreeMap StakeCredential Coin
  toTreasury : UInt64
deriving DecidableEq

namespace Payout

def pay (payout : Payout) (registered : Bool) (cred : StakeCredential) (amount : Coin) : Payout :=
  if registered then { payout with rewards := credit payout.rewards cred amount }
  else { payout with toTreasury := saturatingAdd payout.toTreasury amount }

def applyRUpd (isRegistered : StakeCredential → Bool) (payout : Payout)
    (delta : StakeCredential × Coin) : Payout :=
  payout.pay (isRegistered delta.1) delta.1 delta.2

/-- A pool without a well-formed reward account is refunded nowhere. -/
def refundPool (registrations : BTreeMap StakeCredential Coin) (pools : BTreeMap PoolId PoolParams)
    (poolDeposit : Coin) (payout : Payout) (poolId : PoolId) : Payout :=
  match (pools[poolId]?).bind fun params => rewardAccountCredential params.rewardAccount with
  | some cred => payout.pay (registrations.contains cred) cred poolDeposit
  | none => payout

def returnDeposit (payout : Payout) : DepositReturn → Payout
  | .toRewardAccount _ credential amount =>
      { payout with rewards := credit payout.rewards credential amount }
  | .toTreasury _ amount => { payout with toTreasury := saturatingAdd payout.toTreasury amount }
  | .noDeposit _ => payout

end Payout

/-! ## Pool reaping -/

def adoptedPools (pool : PoolState) : BTreeMap PoolId PoolParams :=
  pool.futurePools.toList.foldl adoptPool pool.pools

def retiredPools (pool : PoolState) (newEpoch : EpochNo) : List PoolId :=
  (pool.retiring.toList.filter fun entry => entry.2 = newEpoch).map Prod.fst

/-- The refunds are paid on top of `rewards`. -/
def refundPools (cert : CertState) (newEpoch : EpochNo) (poolDeposit : Coin)
    (rewards : BTreeMap StakeCredential Coin) : Payout :=
  (retiredPools cert.pool newEpoch).foldl
    (Payout.refundPool cert.delegation.registrations (adoptedPools cert.pool) poolDeposit)
    ⟨rewards, 0⟩

def clearDelegators (delegations : BTreeMap StakeCredential PoolId) (retired : List PoolId) :
    BTreeMap StakeCredential PoolId :=
  if retired.isEmpty then delegations
  else delegations.filter fun _ poolId => ¬ retired.contains poolId

def reapPools (pool : PoolState) (newEpoch : EpochNo) : PoolState :=
  let retired := retiredPools pool newEpoch
  { pools := retired.foldl (fun table poolId => table.erase poolId) (adoptedPools pool)
    futurePools := ∅
    retiring := retired.foldl (fun table poolId => table.erase poolId) pool.retiring }

/-! ## The boundary -/

structure EpochBoundaryAccounting where
  deltaR1 : UInt64
  deltaR2 : UInt64
  deltaT1 : UInt64
  deltaT2 : UInt64
  totalReward : UInt64
  poolRewardPot : UInt64
  sumRewards : UInt64
  rewardedPoolCount : UInt64
  etaNumerator : UInt64
  etaDenominator : UInt64
  epochFees : UInt64
  mirReservesToTreasury : UInt64
  mirReservesToAccounts : UInt64
  mirTreasuryToAccounts : UInt64
deriving DecidableEq, Repr

/-- What freezing the next ratification reads from the state after the boundary. -/
structure FrozenRatificationInput where
  mark : StakeSnapshot
  delegatedAtSnap : BTreeSet PoolId
  utxoStake : BTreeMap StakeCredential Coin
  delegation : DelegationState
  gov : ConwayGovState
  pparams : ProtocolParameters
  epoch : EpochNo

section Boundary

variable {Utxo : Type}

def FrozenRatificationInput.atBoundary (next : LedgerState Utxo) (base : BoundaryBaseStake)
    (delegatedAtSnap : BTreeSet PoolId) :
    Except GovernanceTerminal (Option FrozenRatificationInput) := do
  let point := next.epochState.slot
  let snaps ← next.epochState.snapshots.requireFull point
  let cert ← next.certState.requireFull point
  let gov ← next.govState.requireFull point
  return gov.map fun gov =>
    { mark := snaps.mark, delegatedAtSnap, utxoStake := base.canonicalCredentialStake
      delegation := cert.delegation, gov, pparams := next.protocolParams
      epoch := next.epochState.epoch }

def governancePlan (era : CardanoEra) (gov : Option ConwayGovState) (cert : CertState)
    (newEpoch : EpochNo) : Except GovernanceTerminal (Option ConwayGovernanceEpochPlan) :=
  if era = .conway then
    match gov with
    | some gov =>
        match gov.ratification with
        | .recorded record => do
            return some (← applyRatificationRecord record newEpoch gov.proposals
              fun cred => cert.delegation.registrations.contains cred)
        | .unversioned => .error (.ratificationRecordAbsent newEpoch)
    | none => .ok none
  else .ok none

def boundaryMark (era : CardanoEra) (slot : SlotNo) (base : Option BoundaryBaseStake)
    (delegation : DelegationState) (pools : BTreeMap PoolId PoolParams) :
    Except GovernanceTerminal StakeSnapshot :=
  match base with
  | some base => .ok (buildBoundaryMarkSnapshot base delegation pools)
  | none =>
      if era = .conway then .error (.boundaryBaseStakeRequired slot)
      else .ok (rewardOnlyMark delegation pools)

structure RewardPot where
  totalBlocksProduced : UInt64
  eta : Rational
  deltaR1 : UInt64
  totalReward : UInt64
  treasuryDelta : UInt64
  poolRewardPot : UInt64

def rewardPot (state : LedgerState Utxo) (activeSlotsPerEpoch : UInt64) : Boundary RewardPot := do
  let params := state.protocolParams
  let totalBlocksProduced ←
    (state.epochState.blockProduction.toList.map Prod.snd).foldlM addU64 0
  let eta ← eta params.decentralization totalBlocksProduced activeSlotsPerEpoch
  let deltaR1 := deltaR1 state.epochState.reserves params.monetaryExpansion eta
  let totalReward := saturatingAdd deltaR1 state.epochState.epochFees
  let treasuryDelta := treasuryDelta totalReward params.treasuryGrowth
  return { totalBlocksProduced, eta, deltaR1, totalReward, treasuryDelta
           poolRewardPot := saturatingSub totalReward treasuryDelta }

def totalActiveStake (go : StakeSnapshot) : UInt64 :=
  (go.poolStakes.toList.map Prod.snd).foldl saturatingAdd 0

def rewardInputs (state : LedgerState Utxo) (go : StakeSnapshot) (pot : RewardPot)
    (isCredRegistered : StakeCredential → Bool) : RewardInputs where
  protocolParams := state.protocolParams
  go := go
  blockProduction := state.epochState.blockProduction
  totalBlocksProduced := pot.totalBlocksProduced
  totalActiveStake := totalActiveStake go
  totalStake := totalStake state.protocolParams.protocolMajor (totalActiveStake go)
    state.maxLovelaceSupply state.epochState.reserves
  poolRewardPot := pot.poolRewardPot
  isCredRegistered := isCredRegistered
  slot := state.epochState.slot

def applyPlan (gov : Option ConwayGovState) (plan : Option ConwayGovernanceEpochPlan) :
    Option ConwayGovState :=
  match gov, plan with
  | some gov, some plan => some { gov with
      proposals := plan.proposals
      prevPparamAction := match plan.prevPparamAction with
        | .set actionId => .enacted actionId
        | .unchanged => gov.prevPparamAction }
  | gov, _ => gov

def depositReturns (gov : Option ConwayGovState) (plan : Option ConwayGovernanceEpochPlan) :
    List DepositReturn :=
  match gov, plan with
  | some _, some plan => plan.depositReturns
  | _, _ => []

def enactedParams (current : ProtocolParameters) :
    Option ConwayGovernanceEpochPlan → ProtocolParameters
  | some plan => match plan.pparams with
      | .set pparams => pparams
      | .unchanged => current
  | none => current

/-- Replaces the consumed record by the one frozen over the new state. -/
def freezeRatification
    (ratifyFrozen : FrozenRatificationInput → Except GovernanceTerminal RatificationRecord)
    (next : LedgerState Utxo) (base : Option BoundaryBaseStake)
    (delegatedAtSnap : BTreeSet PoolId) : Except GovernanceTerminal (LedgerState Utxo) :=
  if next.era = .conway then
    match base with
    | none => .error (.boundaryBaseStakeRequired next.epochState.slot)
    | some base => do
        match ← FrozenRatificationInput.atBoundary next base delegatedAtSnap with
        | none => return next
        | some input =>
            let record ← ratifyFrozen input
            match next.govState with
            | .authoritative (some gov) => return { next with
                govState := .authoritative (some { gov with ratification := .recorded record }) }
            | _ => return next
  else .ok next

def registeredIn (registrationOverride : Option (BTreeMap StakeCredential Unit))
    (cert : CertState) (cred : StakeCredential) : Bool :=
  match registrationOverride with
  | some registrations => registrations.contains cred
  | none => cert.delegation.registrations.contains cred

/-- The three payouts of a boundary, each on the balances the one before it left. -/
structure Payouts where
  updated : Payout
  refunded : Payout
  returned : Payout

def payouts (cert : CertState) (isCredRegistered : StakeCredential → Bool)
    (rewardDeltas : BTreeMap StakeCredential Coin) (newEpoch : EpochNo) (poolDeposit : Coin)
    (returns : List DepositReturn) : Payouts :=
  let updated := rewardDeltas.toList.foldl (Payout.applyRUpd isCredRegistered)
    ⟨cert.delegation.rewards, 0⟩
  let refunded := refundPools cert newEpoch poolDeposit updated.rewards
  let returned := returns.foldl Payout.returnDeposit ⟨refunded.rewards, 0⟩
  ⟨updated, refunded, returned⟩

def newReserves (reserves deltaR1 deltaR2 : UInt64) : UInt64 :=
  saturatingAdd (saturatingSub reserves deltaR1) deltaR2

/-- The donations are the last thing added to the treasury. -/
def newTreasury (treasury treasuryDelta : UInt64) (paid : Payouts) (donationPot : Coin)
    (newEpoch : EpochNo) : Except GovernanceTerminal UInt64 :=
  let undonated := saturatingAdd (saturatingAdd (saturatingAdd
    (saturatingAdd treasury treasuryDelta) paid.updated.toTreasury)
    paid.refunded.toTreasury) paid.returned.toTreasury
  match checkedAdd undonated donationPot with
  | some treasury => .ok treasury
  | none => .error (.treasuryOverflow newEpoch)

def applyEpochBoundaryWithRegistrations
    (ratifyFrozen : FrozenRatificationInput → Except GovernanceTerminal RatificationRecord)
    (state : LedgerState Utxo) (newEpoch : EpochNo)
    (registrationOverride : Option (BTreeMap StakeCredential Unit))
    (boundaryBaseStake : Option BoundaryBaseStake) (activeSlotsPerEpoch : UInt64) :
    Boundary (LedgerState Utxo × EpochBoundaryAccounting) := do
  let slot := state.epochState.slot
  let snaps ← orTerminal (state.epochState.snapshots.requireFull slot)
  let cert ← orTerminal (state.certState.requireFull slot)
  let gov ← orTerminal (state.govState.requireFull slot)
  let plan ← orTerminal (governancePlan state.era gov cert newEpoch)
  let pot ← rewardPot state activeSlotsPerEpoch
  let isCredRegistered := registeredIn registrationOverride cert
  let allocation ← (rewardInputs state snaps.go pot isCredRegistered).allocate
  let paid := payouts cert isCredRegistered allocation.rewardDeltas newEpoch
    state.protocolParams.poolDeposit (depositReturns gov plan)
  let delegation := { cert.delegation with rewards := paid.updated.rewards }
  let newMark ← orTerminal
    (boundaryMark state.era slot boundaryBaseStake delegation cert.pool.pools)
  let delegatedAtSnap := ExtTreeSet.ofList (delegation.delegations.toList.map Prod.snd)
  let sumRewards := saturatingAdd allocation.totalPoolRewards allocation.totalMemberRewards
  let deltaR2 := saturatingSub pot.poolRewardPot sumRewards
  let treasury ← orTerminal (newTreasury state.epochState.treasury pot.treasuryDelta paid
    state.epochState.donationPot newEpoch)
  let accounting : EpochBoundaryAccounting := {
    deltaR1 := pot.deltaR1, deltaR2, deltaT1 := pot.treasuryDelta, deltaT2 := paid.updated.toTreasury
    totalReward := pot.totalReward, poolRewardPot := pot.poolRewardPot, sumRewards
    rewardedPoolCount := UInt64.ofNat allocation.rewardedPoolCount
    etaNumerator := UInt64.ofNat pot.eta.numerator.natAbs
    etaDenominator := max (UInt64.ofNat pot.eta.denominator.natAbs) 1
    epochFees := state.epochState.epochFees
    mirReservesToTreasury := 0, mirReservesToAccounts := 0, mirTreasuryToAccounts := 0 }
  let next : LedgerState Utxo := { state with
    epochState := {
      epoch := newEpoch
      slot
      snapshots := .authoritative (rotateSnapshots snaps newMark)
      reserves := newReserves state.epochState.reserves pot.deltaR1 deltaR2
      treasury
      blockProduction := ∅
      epochFees := 0
      donationPot := 0 }
    protocolParams := enactedParams state.protocolParams plan
    certState := .authoritative {
      delegation := { delegation with
        delegations := clearDelegators delegation.delegations (retiredPools cert.pool newEpoch)
        rewards := paid.returned.rewards }
      pool := reapPools cert.pool newEpoch }
    govState := .authoritative (applyPlan gov plan) }
  let frozen ← orTerminal
    (freezeRatification ratifyFrozen next boundaryBaseStake delegatedAtSnap)
  return (frozen, accounting)

/-! ## What goes in and what comes out -/

/-- Every pool's stake is the sum of its delegators' stakes. -/
def StakeSnapshot.Consistent (snapshot : StakeSnapshot) : Prop :=
  ∀ (poolId : PoolId) (stake : Coin), snapshot.poolStakes[poolId]? = some stake →
    stake.toNat = ((snapshot.delegatorStakes poolId).map fun entry => entry.2.toNat).sum

def rewardBalances (state : LedgerState Utxo) : Nat :=
  match state.certState with
  | .authoritative cert => total cert.delegation.rewards
  | .reducedUnavailable => 0

/-- The active pools that this boundary removes. -/
def reapedPools (pool : PoolState) (newEpoch : EpochNo) : List PoolId :=
  (retiredPools pool newEpoch).filter fun poolId => pool.pools.contains poolId

def reapedCount (state : LedgerState Utxo) (newEpoch : EpochNo) : Nat :=
  match state.certState with
  | .authoritative cert => (reapedPools cert.pool newEpoch).length
  | .reducedUnavailable => 0

def DepositReturn.amount : DepositReturn → Nat
  | toRewardAccount _ _ amount => amount.toNat
  | toTreasury _ amount => amount.toNat
  | noDeposit _ => 0

def governanceReturns (state : LedgerState Utxo) (newEpoch : EpochNo) : Nat :=
  match state.govState, state.certState with
  | .authoritative gov, .authoritative cert =>
      match governancePlan state.era gov cert newEpoch with
      | .ok plan => ((depositReturns gov plan).map DepositReturn.amount).sum
      | .error _ => 0
  | _, _ => 0

def boundaryInflow (state : LedgerState Utxo) (newEpoch : EpochNo) : Nat :=
  state.epochState.reserves.toNat + state.epochState.treasury.toNat + rewardBalances state +
    state.epochState.epochFees.toNat + state.epochState.donationPot.toNat +
    state.protocolParams.poolDeposit.toNat * reapedCount state newEpoch +
    governanceReturns state newEpoch

structure BoundaryPremises (state : LedgerState Utxo) (newEpoch : EpochNo) : Prop where
  consistent : ∀ snaps, state.epochState.snapshots = .authoritative snaps → snaps.go.Consistent
  margins : ∀ snaps, state.epochState.snapshots = .authoritative snaps →
    ∀ (poolId : PoolId) (params : SnapshotPoolParams),
      snaps.go.poolParams[poolId]? = some params → (RewardInputs.margin params).value ≤ 1
  active : ∀ snaps, state.epochState.snapshots = .authoritative snaps →
    totalActiveStake snaps.go ≤ totalStake state.protocolParams.protocolMajor
      (totalActiveStake snaps.go) state.maxLovelaceSupply state.epochState.reserves
  expansion : 0 ≤ state.protocolParams.monetaryExpansion.value ∧
    state.protocolParams.monetaryExpansion.value ≤ 1
  growth : 0 ≤ state.protocolParams.treasuryGrowth.value ∧
    state.protocolParams.treasuryGrowth.value ≤ 1
  influence : 0 ≤ state.protocolParams.poolInfluence.value
  desired : 0 < state.protocolParams.nOpt
  accounts : ∀ cert, state.certState = .authoritative cert →
    ∀ poolId ∈ reapedPools cert.pool newEpoch, ∀ params,
      (adoptedPools cert.pool)[poolId]? = some params → params.rewardAccount.length = 29
  pots : boundaryInflow state newEpoch < 2 ^ 64

/-- The reward account of every pool that made blocks is delegated to that pool, if it has stake. -/
def LeadersDelegateHome (state : LedgerState Utxo) : Prop :=
  ∀ snaps, state.epochState.snapshots = .authoritative snaps →
    ∀ (poolId : PoolId) (params : SnapshotPoolParams), poolId ∈ snaps.go.poolStakes →
      amountOf state.epochState.blockProduction poolId ≠ 0 →
      snaps.go.poolParams[poolId]? = some params →
      ∀ (home : PoolId) (stake : Coin),
        snaps.go.delegations[params.rewardAccount]? = some (home, stake) →
          home = poolId ∨ stake = 0

end Boundary

end Ade.Ledger
