import Ade.Proof.Ledger.EpochBoundary
import Ade.Proof.Ledger.Governance

/-! Where the terminals about the ratification record can come from. -/

namespace Ade.Proof.Ledger
open Std (ExtTreeMap ExtTreeSet)
open Library Ade.Ledger

def AllowsRecord (reason : GovernanceTerminal) : Prop := ¬ reason.DeniesRecord

def KeepsRecord (failure : BoundaryFailure) : Prop :=
  ∀ reason, failure = .terminal reason → AllowsRecord reason

theorem keepsRecord_overflow : KeepsRecord .overflow := by
  intro reason same
  cases same

theorem raises_orOverflow {α : Type} (x : Option α) : Raises KeepsRecord (orOverflow x) := by
  cases x with
  | none => exact .error keepsRecord_overflow
  | some value => exact .ok value

theorem raises_orTerminal {α : Type} {x : Except GovernanceTerminal α}
    (raised : Raises AllowsRecord x) :
    Raises KeepsRecord (orTerminal x) := by
  cases x with
  | ok value => exact .ok value
  | error reason =>
      apply Raises.error
      intro other same
      cases same
      exact raised reason rfl

theorem requireFull_raises {α : Type} (projection : Projection α) (slot : SlotNo) :
    Raises AllowsRecord (projection.requireFull slot) := by
  cases projection with
  | authoritative value => exact .ok value
  | reducedUnavailable => exact .error id

/-! ## Rewards -/

theorem eta_raises (d : Rational) (produced slots : UInt64) :
    Raises KeepsRecord (eta d produced slots) := by
  refine Raises.bind (raises_orOverflow _) fun decentralized => ?_
  refine Raises.bind (raises_orOverflow _) fun required => ?_
  dsimp only
  split_ifs <;> exact .ok _

section
variable (inputs : RewardInputs)

theorem performance_raises (produced stake : UInt64) :
    Raises KeepsRecord (inputs.performance produced stake) := by
  unfold RewardInputs.performance
  split_ifs
  · refine Raises.bind (raises_orOverflow _) fun made => ?_
    exact Raises.bind (raises_orOverflow _) fun due => .ok _
  · exact .ok _

theorem capAt_raises (z x : Rational) : Raises KeepsRecord (RewardInputs.capAt z x) :=
  Raises.bind (raises_orOverflow _) fun _ => Raises.bind (raises_orOverflow _) fun _ => .ok _

theorem maxPool_raises (params : SnapshotPoolParams) (stake : UInt64) :
    Raises KeepsRecord (inputs.maxPool params stake) := by
  refine Raises.bind (capAt_raises _ _) fun sigma => ?_
  refine Raises.bind (capAt_raises _ _) fun s => ?_
  dsimp only
  split
  · exact .ok _
  · unfold RewardInputs.fallbackMaxPool
    dsimp only
    split_ifs
    · exact .ok _
    · exact .error keepsRecord_overflow

theorem payMember_raises (params : SnapshotPoolParams) (poolStake : UInt64) (factor : Rational)
    (paid : BTreeMap StakeCredential Coin × UInt64) (member : StakeCredential × Coin) :
    Raises KeepsRecord (inputs.payMember params poolStake factor paid member) := by
  unfold RewardInputs.payMember
  dsimp only
  split_ifs
  · exact .ok _
  · exact Raises.bind (raises_orOverflow _) fun distributed => .ok _
  · exact .ok _

theorem splitReward_raises (poolId : PoolId) (poolStake : UInt64) (params : SnapshotPoolParams)
    (poolMax : UInt64) (allocation : Allocation) :
    Raises KeepsRecord (inputs.splitReward poolId poolStake params poolMax allocation) := by
  refine Raises.bind (raises_orOverflow _) fun leaderReward => ?_
  dsimp only
  split_ifs
  · exact Raises.bind (.foldlM _ (payMember_raises inputs params poolStake _) _) fun paid => .ok _
  · exact Raises.bind (.ok _) fun paid => .ok _

theorem rewardPool_raises (allocation : Allocation) (entry : PoolId × Coin) :
    Raises KeepsRecord (inputs.rewardPool allocation entry) := by
  unfold RewardInputs.rewardPool
  dsimp only
  split_ifs
  · exact .ok _
  · split
    · apply Raises.error
      intro reason same
      cases same
      exact id
    · refine Raises.bind (performance_raises inputs _ _) fun performance => ?_
      refine Raises.bind (maxPool_raises inputs _ _) fun maxPool => ?_
      split_ifs
      · exact .ok _
      · exact .ok _
      · exact .ok _
      · exact splitReward_raises inputs _ _ _ _ _

theorem allocate_raises : Raises KeepsRecord inputs.allocate := by
  unfold RewardInputs.allocate
  split_ifs
  · exact .foldlM _ (rewardPool_raises inputs) _
  · exact .ok _

end

section
variable {Utxo : Type}

theorem rewardPot_raises (state : LedgerState Utxo) (slots : UInt64) :
    Raises KeepsRecord (rewardPot state slots) := by
  refine Raises.bind (.foldlM _ (fun total blocks => raises_orOverflow _) _) fun produced => ?_
  exact Raises.bind (eta_raises _ _ _) fun eta => .ok _

/-! ## Freezing the next record -/

theorem depositsByReturnCredential_raises (proposals : List GovActionState) :
    Raises AllowsRecord (depositsByReturnCredential proposals) := by
  apply Raises.foldlM
  intro deposits p
  split
  · exact .error id
  · exact .ok _

theorem addVoter_raises (input : FrozenRatificationInput) (deposits : BTreeMap StakeCredential Coin)
    (distribution : BTreeMap DRep Coin) (voter : StakeCredential × DRep) :
    Raises AllowsRecord (addVoter input deposits distribution voter) := by
  unfold addVoter
  by_cases registered : ¬ input.delegation.registrations.contains voter.1
  · rw [if_pos registered]
    exact .error id
  · rw [if_neg registered]
    split_ifs
    · exact .error id
    · exact .ok _

section
variable (rules : RatificationRules)

theorem scanProposal_raises (input : FrozenRatificationInput) (accepted : GovActionState → Bool)
    (scan : RatificationScan) (p : GovActionState) :
    Raises AllowsRecord (scanProposal input accepted scan p) := by
  unfold scanProposal
  by_cases skipped : p.govAction = .infoAction ∨ ¬ accepted p
  · rw [if_pos skipped]
    exact .ok _
  · rw [if_neg skipped]
    split
    · by_cases unversioned : input.gov.prevPparamAction = .unversioned ∨
          input.pparams.maxBlockExUnits = .unversioned
      · rw [if_pos unversioned]
        exact .error id
      · rw [if_neg unversioned]
        exact .ok _
    · exact .error id

theorem checkBlockSteps_raises (winner : GovActionId) (current : MaxBlockExUnits) (units : ExUnits) :
    Raises AllowsRecord (checkBlockSteps winner current units) := by
  unfold checkBlockSteps
  split
  · exact .error id
  · split_ifs
    · exact .error id
    · exact .ok _

theorem buildParameterChangeEnactment_raises (winner : GovActionState)
    (current : ProtocolParameters) :
    Raises AllowsRecord (buildParameterChangeEnactment rules winner current) := by
  unfold buildParameterChangeEnactment
  dsimp only
  split
  · split
    · exact .error id
    · split
      · exact .error id
      · split
        · exact .error id
        · split_ifs
          · exact .error id
          · exact .error id
          · exact Raises.bind (.forM _ (checkBlockSteps_raises _ _)) fun _ => .ok _
  · exact .error id

theorem selectEnacted_raises (current : ProtocolParameters) (candidates : List GovActionState) :
    Raises AllowsRecord (selectEnacted rules current candidates) := by
  unfold selectEnacted
  split
  · exact .ok _
  · exact Raises.bind (buildParameterChangeEnactment_raises rules _ current) fun _ => .ok _
  · exact .error id

theorem checkUnchained_raises (enacted : EnactedParameterChange) (passing : BTreeSet GovActionId)
    (p : GovActionState) : Raises AllowsRecord (checkUnchained enacted passing p) := by
  unfold checkUnchained
  split
  · split_ifs
    · exact .error id
    · exact .ok _
  · exact .ok _

theorem decideRatification_raises (input : FrozenRatificationInput) (dreps : BTreeMap DRep Coin)
    (pools : BTreeMap PoolId Coin) :
    Raises AllowsRecord (decideRatification rules input dreps pools) := by
  unfold decideRatification
  dsimp only
  split_ifs
  · exact .error id
  · refine Raises.bind (.foldlM _ (scanProposal_raises input _) _) fun scan => ?_
    refine Raises.bind (selectEnacted_raises rules _ _) fun enacted => ?_
    refine Raises.bind (.forM _ fun winner => .forM _ (checkUnchained_raises _ _)) fun _ => .ok _

theorem recordedOutcome_raises {result : Except GovernanceTerminal RatificationDecision}
    (raised : Raises AllowsRecord result) : Raises AllowsRecord (recordedOutcome result) := by
  cases result with
  | ok decision => exact .ok _
  | error terminal =>
      have permitted := raised terminal rfl
      refine Raises.bind ?_ fun reason => .ok _
      unfold UnenactableReason.fromTerminal
      split
      · exact .ok _
      · exact .ok _
      · exact .ok _
      · exact .error permitted

theorem ratifyFrozen_raises (input : FrozenRatificationInput) :
    Raises AllowsRecord (ratifyFrozen rules input) := by
  refine Raises.bind ?_ fun dreps => Raises.bind ?_ fun pools => ?_
  · exact Raises.bind (depositsByReturnCredential_raises _) fun deposits =>
      .foldlM _ (addVoter_raises input deposits) _
  · exact Raises.bind (depositsByReturnCredential_raises _) fun deposits => .ok _
  · exact Raises.bind (recordedOutcome_raises (decideRatification_raises rules input dreps pools))
      fun outcome => .ok _

theorem freezeRatification_raises (next : LedgerState Utxo) (base : Option BoundaryBaseStake)
    (delegatedAtSnap : BTreeSet PoolId) :
    Raises AllowsRecord (freezeRatification (ratifyFrozen rules) next base delegatedAtSnap) := by
  unfold freezeRatification
  split_ifs
  · cases base with
    | none => exact .error id
    | some base =>
        refine Raises.bind ?_ fun read => ?_
        · refine Raises.bind (requireFull_raises _ _) fun snaps => ?_
          refine Raises.bind (requireFull_raises _ _) fun cert => ?_
          exact Raises.bind (requireFull_raises _ _) fun gov => .ok _
        · cases read with
          | none => exact .ok _
          | some input =>
              refine Raises.bind (ratifyFrozen_raises rules input) fun record => ?_
              split
              · exact .ok _
              · exact .ok _
  · exact .ok _

/-- Of a boundary, only the plan can find the record wrong. -/
theorem boundary_raises {ledger : LedgerState Utxo} {newEpoch : EpochNo}
    (planned : Raises AllowsRecord (boundaryPlan ledger newEpoch))
    (registrationOverride : Option (BTreeMap StakeCredential Unit))
    (boundaryBaseStake : Option BoundaryBaseStake) (activeSlotsPerEpoch : UInt64) :
    Raises KeepsRecord (applyEpochBoundaryWithRegistrations (ratifyFrozen rules) ledger newEpoch
      registrationOverride boundaryBaseStake activeSlotsPerEpoch) := by
  refine Raises.bind (raises_orTerminal (requireFull_raises _ _)) fun snaps => ?_
  refine Raises.bind_of_ok (raises_orTerminal (requireFull_raises _ _)) fun cert certRan => ?_
  refine Raises.bind_of_ok (raises_orTerminal (requireFull_raises _ _)) fun gov govRan => ?_
  have plan : boundaryPlan ledger newEpoch = governancePlan ledger.era gov cert newEpoch := by
    unfold boundaryPlan
    rw [orTerminal_ok certRan, orTerminal_ok govRan]
    rfl
  refine Raises.bind (raises_orTerminal (plan ▸ planned)) fun plan => ?_
  refine Raises.bind (rewardPot_raises ledger activeSlotsPerEpoch) fun pot => ?_
  refine Raises.bind (allocate_raises _) fun allocation => ?_
  refine Raises.bind (raises_orTerminal ?_) fun mark => ?_
  · unfold boundaryMark
    split
    · exact .ok _
    · split_ifs
      · exact .error id
      · exact .ok _
  refine Raises.bind (raises_orTerminal ?_) fun treasury => ?_
  · unfold newTreasury
    dsimp only
    split
    · exact .ok _
    · exact .error id
  exact Raises.bind (raises_orTerminal (freezeRatification_raises rules _ _ _)) fun frozen => .ok _

end

end

end Ade.Proof.Ledger
