import Ade.Ledger.EpochBoundary
import Ade.Ledger.TxEffect

/-! The epoch accumulator: the ledger without its UTxO, and how it crosses an epoch boundary. -/

namespace Ade.Ledger
open Std Library

/-! ## The seed reward -/

structure BootstrapRewardUpdate where
  manifestCommitment : Hash32
  sourcePointSlot : SlotNo
  sourcePointHash : Hash32
  targetEpoch : EpochNo
  deltaTreasury : Coin
  deltaReserves : Coin
  deltaFees : Coin
  rewardDelta : BTreeMap StakeCredential Coin
  canonicalCommitment : Hash32
deriving DecidableEq

structure NativeSeedReward where
  manifestCommitment : Hash32
  sourcePointSlot : SlotNo
  sourcePointHash : Hash32
  targetEpoch : EpochNo
  feeSs : Coin
  canonicalCommitment : Hash32
deriving DecidableEq

/-- Who owns the reward of the first boundary after a bootstrap: the snapshot, or the native
calculation. -/
inductive SeedRewardAuthority where
  | imported (update : BootstrapRewardUpdate)
  | native (reward : NativeSeedReward)
deriving DecidableEq

def SeedRewardAuthority.targetEpoch : SeedRewardAuthority → EpochNo
  | imported update => update.targetEpoch
  | native reward => reward.targetEpoch

/-- The commitments over everything in a record but its own commitment. -/
structure SeedCommitments where
  bootstrapRupdCommitment : Hash32 → SlotNo → Hash32 → EpochNo → Coin → Coin → Coin →
    BTreeMap StakeCredential Coin → Hash32
  nativeSeedRewardCommitment : Hash32 → SlotNo → Hash32 → EpochNo → Coin → Hash32

def SeedCommitments.ofUpdate (commitments : SeedCommitments) (update : BootstrapRewardUpdate) :
    Hash32 :=
  commitments.bootstrapRupdCommitment update.manifestCommitment update.sourcePointSlot
    update.sourcePointHash update.targetEpoch update.deltaTreasury update.deltaReserves
    update.deltaFees update.rewardDelta

def SeedCommitments.ofNative (commitments : SeedCommitments) (reward : NativeSeedReward) : Hash32 :=
  commitments.nativeSeedRewardCommitment reward.manifestCommitment reward.sourcePointSlot
    reward.sourcePointHash reward.targetEpoch reward.feeSs

/-! ## The accumulator -/

/-- `epochState.blockProduction` counts the current epoch, `prevBlockProduction` the one before it;
likewise the fees. -/
structure EpochAccumulator where
  epochState : EpochState
  prevBlockProduction : BTreeMap PoolId UInt64
  prevEpochFees : Coin
  certState : CertState
  protocolParams : ProtocolParameters
  govState : Option ConwayGovState
  conwayDepositParams : Option ConwayOnlyDepositParams
  maxLovelaceSupply : UInt64
  era : CardanoEra
  pendingRewardUpdate : Option SeedRewardAuthority
deriving DecidableEq

def EpochAccumulator.asLedgerView (acc : EpochAccumulator) : LedgerState Unit where
  utxoState := ()
  epochState := acc.epochState
  protocolParams := acc.protocolParams
  era := acc.era
  trackUtxo := false
  certState := .authoritative acc.certState
  maxLovelaceSupply := acc.maxLovelaceSupply
  govState := .authoritative acc.govState
  conwayDepositParams := acc.conwayDepositParams

structure SelectedBlockCtx where
  era : CardanoEra
  blockEpoch : EpochNo
  blockSlot : SlotNo
  issuerPool : PoolId
  boundaryMark : Option (BTreeMap StakeCredential Coin)
  activeSlotsPerEpoch : UInt64
deriving DecidableEq

inductive CollateralBalanceError where
  | unresolvedCollateralInput (txIndex : UInt64) (txin : TxIn)
  | arithmeticOverflow (txIndex : UInt64)
  | returnExceedsCollateral (txIndex collateral returned : UInt64)
deriving DecidableEq, Repr

/-- `panicked`: an unchecked operation of the boundary left its machine type. -/
inductive LedgerTransitionError where
  | malformedBlock
  | eraNotSupported (eraTag : UInt64)
  | eraMismatch (ctx block : UInt64)
  | boundaryGap (priorEpoch blockEpoch : UInt64)
  | missingBoundaryStake (epoch : UInt64)
  | certApply (failure : LedgerError)
  | arithmeticOverflow
  | invalidTxCollateralNeedsUtxo (txIndex : UInt64)
  | collateralBalance (failure : CollateralBalanceError)
  | bootstrapRupdWrongBoundary (rupdTarget boundary : UInt64)
  | bootstrapRupdCommitmentMismatch
  | bootstrapRupdReservesUnderflow
  | bootstrapRupdFeesUnderflow
  | seedBoundaryZeroRewardPot (boundary prevBlocks : UInt64)
  | malformedGovernanceField (txIndex : UInt64)
  | govActionLifetimeUnproven (txIndex : UInt64)
  | governanceEpochTerminal (reason : GovernanceTerminal)
  | boundaryLeadershipSnapshotUnavailable (target : UInt64)
  | leadershipEpochOverflow (boundaryIntoEpoch : UInt64)
  | panicked
deriving DecidableEq

abbrev Transition := Except LedgerTransitionError

def orError {α : Type} (failure : LedgerTransitionError) : Option α → Transition α
  | some value => .ok value
  | none => .error failure

def orEpochTerminal {α : Type} : Except GovernanceTerminal α → Transition α
  | .ok value => .ok value
  | .error reason => .error (.governanceEpochTerminal reason)

def orBoundaryFailure {α : Type} : Boundary α → Transition α
  | .ok value => .ok value
  | .error (.terminal reason) => .error (.governanceEpochTerminal reason)
  | .error .overflow => .error .panicked

/-! ## The reward inputs of a boundary -/

inductive SeedBoundaryRewardInputs where
  | ordinary
  | importedResultApplied
  | nativeFromSnapshot (feeSs : Coin)
deriving DecidableEq, Repr

/-- Without the stake of the boundary there is no mark, without its slots no expansion. -/
def requireBoundaryStake (ctx : SelectedBlockCtx) (target : EpochNo) :
    Transition (BTreeMap StakeCredential Coin) :=
  match ctx.boundaryMark with
  | none => .error (.missingBoundaryStake target)
  | some base =>
      if ctx.activeSlotsPerEpoch = 0 then .error (.missingBoundaryStake target) else .ok base

/-- A pending authority must not be carried past its boundary. -/
def takeSeedAuthority (pending : Option SeedRewardAuthority) (target : EpochNo) :
    Transition (Option SeedRewardAuthority) :=
  match pending with
  | none => .ok none
  | some authority =>
      if checkedAdd authority.targetEpoch 1 = some target then .ok (some authority)
      else .error (.bootstrapRupdWrongBoundary authority.targetEpoch target)

def applyBootstrapRewardDeltas (delegation : DelegationState)
    (delta : BTreeMap StakeCredential Coin) : Option DelegationState := do
  let rewards ← delta.toList.foldlM (fun rewards entry => do
    return rewards.insert entry.1 (← checkedAdd (amountOf rewards entry.1) entry.2))
    delegation.rewards
  return { delegation with rewards }

def reduceEpochFees (acc : EpochAccumulator) (amount : Coin) : Transition EpochAccumulator := do
  let epochFees ← orError .bootstrapRupdFeesUnderflow (checkedSub acc.epochState.epochFees amount)
  return { acc with epochState := { acc.epochState with epochFees } }

/-- What the boundary starts from: the reward inputs, and the pots to add afterwards. -/
structure StagedReward where
  acc : EpochAccumulator
  inputs : SeedBoundaryRewardInputs
  bootstrapPots : Option (Coin × Coin)

def stageSeedReward (commitments : SeedCommitments) (acc : EpochAccumulator) :
    Option SeedRewardAuthority → Transition StagedReward
  | none => .ok ⟨acc, .ordinary, none⟩
  | some (.imported update) => do
      if commitments.ofUpdate update ≠ update.canonicalCommitment then
        throw .bootstrapRupdCommitmentMismatch
      let delegation ← orError .arithmeticOverflow
        (applyBootstrapRewardDeltas acc.certState.delegation update.rewardDelta)
      let reduced ← reduceEpochFees { acc with certState := { acc.certState with delegation } }
        update.deltaFees
      return ⟨reduced, .importedResultApplied, some (update.deltaReserves, update.deltaTreasury)⟩
  | some (.native reward) => do
      if commitments.ofNative reward ≠ reward.canonicalCommitment then
        throw .bootstrapRupdCommitmentMismatch
      let reduced ← reduceEpochFees acc reward.feeSs
      return ⟨reduced, .nativeFromSnapshot reward.feeSs, none⟩

/-- The state that the boundary is computed on: the counts and fees of the epoch to be rewarded stand
in the place of the current ones. -/
def boundaryView (acc : EpochAccumulator) (inputs : SeedBoundaryRewardInputs) : LedgerState Unit :=
  let fed := fun blockProduction epochFees => { acc.asLedgerView with
    epochState := { acc.epochState with blockProduction, epochFees } }
  match inputs with
  | .importedResultApplied => fed ∅ 0
  | .nativeFromSnapshot feeSs => fed acc.prevBlockProduction feeSs
  | .ordinary => fed acc.prevBlockProduction acc.prevEpochFees

/-! ## Crossing -/

/-- What freezing the leadership of the next epoch needs. -/
structure BoundaryFreezeInputs where
  sourceEpoch : EpochNo
  targetLeadershipEpoch : EpochNo
  delegatedPools : BTreeSet PoolId
  registeredPoolVrfs : BTreeMap PoolId Hash32
  markPoolStakes : BTreeMap PoolId Coin
  totalActiveStake : UInt64

def StakeSnapshot.totalActiveStake (snapshot : StakeSnapshot) : UInt64 :=
  (snapshot.delegations.toList.map fun entry => entry.2.2).foldl saturatingAdd 0

/-- Blocks were made, so a reward is owed. -/
def requireRewardPot (inputs : SeedBoundaryRewardInputs) (prevBlockProduction : BTreeMap PoolId UInt64)
    (target : EpochNo) (accounting : EpochBoundaryAccounting) : Transition Unit :=
  match inputs with
  | .nativeFromSnapshot _ =>
      let prevBlocks := (prevBlockProduction.toList.map Prod.snd).foldl saturatingAdd 0
      if prevBlocks > 0 ∧ accounting.poolRewardPot = 0 then
        .error (.seedBoundaryZeroRewardPot target prevBlocks)
      else .ok ()
  | .ordinary | .importedResultApplied => .ok ()

def applyBootstrapPots (acc : EpochAccumulator) : Option (Coin × Coin) → Transition EpochAccumulator
  | none => .ok acc
  | some (deltaReserves, deltaTreasury) => do
      let reserves ← orError .bootstrapRupdReservesUnderflow
        (checkedSub acc.epochState.reserves deltaReserves)
      let treasury ← orError .arithmeticOverflow (checkedAdd acc.epochState.treasury deltaTreasury)
      return { acc with epochState := { acc.epochState with reserves, treasury } }

def rotatedMark (acc : EpochAccumulator) (target : EpochNo) : Transition StakeSnapshot :=
  match acc.epochState.snapshots with
  | .authoritative snaps => .ok snaps.mark
  | .reducedUnavailable => .error (.boundaryLeadershipSnapshotUnavailable target)

section
variable (ratifyFrozen : FrozenRatificationInput → Except GovernanceTerminal RatificationRecord)
  (commitments : SeedCommitments)

def boundaryBase (ctx : SelectedBlockCtx) (base : BTreeMap StakeCredential Coin) :
    BoundaryBaseStake where
  boundaryPoint := ctx.blockSlot
  canonicalCredentialStake := base

def crossEpochBoundaryTransition (acc : EpochAccumulator) (target : EpochNo)
    (ctx : SelectedBlockCtx) : Transition (EpochAccumulator × BoundaryFreezeInputs) := do
  let registeredPoolVrfs := acc.certState.pool.pools.map fun _ params => params.vrfHash
  let delegatedPools :=
    ExtTreeSet.ofList (acc.certState.delegation.delegations.toList.map Prod.snd)
  let base ← requireBoundaryStake ctx target
  let authority ← takeSeedAuthority acc.pendingRewardUpdate target
  let staged ← stageSeedReward commitments { acc with pendingRewardUpdate := none } authority
  let result ← orBoundaryFailure (applyEpochBoundaryWithRegistrations ratifyFrozen
    (boundaryView staged.acc staged.inputs) target none (some (boundaryBase ctx base))
    ctx.activeSlotsPerEpoch)
  let newView := result.1
  let _ ← requireRewardPot staged.inputs staged.acc.prevBlockProduction target result.2
  let certState ← orEpochTerminal (newView.certState.requireFull newView.epochState.slot)
  let govState ← orEpochTerminal (newView.govState.requireFull newView.epochState.slot)
  let rotated := { staged.acc with
    certState, govState
    epochState := newView.epochState
    prevBlockProduction := staged.acc.epochState.blockProduction
    prevEpochFees := staged.acc.epochState.epochFees }
  let crossed ← applyBootstrapPots rotated staged.bootstrapPots
  let targetLeadershipEpoch ← orError (.leadershipEpochOverflow target) (checkedAdd target 1)
  let mark ← rotatedMark crossed target
  return (crossed, {
    sourceEpoch := target, targetLeadershipEpoch, delegatedPools, registeredPoolVrfs
    markPoolStakes := mark.poolStakes
    totalActiveStake := mark.totalActiveStake })

def crossEpochBoundary (acc : EpochAccumulator) (target : EpochNo) (ctx : SelectedBlockCtx) :
    Transition EpochAccumulator := do
  return (← crossEpochBoundaryTransition ratifyFrozen commitments acc target ctx).1

end

end Ade.Ledger
