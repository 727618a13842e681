import Ade.Ledger.SelectedBlock
import Ade.Proof.Ledger.GovernanceRun
import Ade.Proof.Ledger.TxEffect

namespace Ade.Proof.Ledger
open Std (ExtTreeMap ExtTreeSet)
open Library Ade.Ledger

/-! ## What a boundary returns -/

section
variable {Utxo : Type} {state next : LedgerState Utxo} {newEpoch : EpochNo}

/-- The state after a boundary, as far as the accumulator and the plan of governance say. -/
structure BoundaryReturns (state next : LedgerState Utxo) (newEpoch : EpochNo) : Prop where
  plan : ∃ cert gov plan, state.certState = .authoritative cert ∧
    state.govState = .authoritative gov ∧ governancePlan state.era gov cert newEpoch = .ok plan ∧
    next.protocolParams = enactedParams state.protocolParams plan ∧
    ∃ frozenGov, next.govState = .authoritative frozenGov ∧
      ∀ planned, applyPlan gov plan = some planned →
        ∃ ratification, frozenGov = some { planned with ratification }
  certState : ∃ cert, next.certState = .authoritative cert
  snapshots : ∃ snaps, next.epochState.snapshots = .authoritative snaps
  epoch : next.epochState.epoch = newEpoch
  blockProduction : next.epochState.blockProduction = ∅
  epochFees : next.epochState.epochFees = 0
  donationPot : next.epochState.donationPot = 0

theorem boundary_returns
    {ratifyFrozen : FrozenRatificationInput → Except GovernanceTerminal RatificationRecord}
    {registrationOverride : Option (BTreeMap StakeCredential Unit)}
    {base : Option BoundaryBaseStake} {slots : UInt64} {accounting : EpochBoundaryAccounting}
    (ran : applyEpochBoundaryWithRegistrations ratifyFrozen state newEpoch registrationOverride base
      slots = .ok (next, accounting)) : BoundaryReturns state next newEpoch := by
  obtain ⟨snaps, -, ran⟩ := bind_ok ran
  obtain ⟨cert, certRan, ran⟩ := bind_ok ran
  obtain ⟨gov, govRan, ran⟩ := bind_ok ran
  obtain ⟨plan, planRan, ran⟩ := bind_ok ran
  obtain ⟨pot, -, ran⟩ := bind_ok ran
  obtain ⟨allocation, -, ran⟩ := bind_ok ran
  obtain ⟨mark, -, ran⟩ := bind_ok ran
  obtain ⟨treasury, -, ran⟩ := bind_ok ran
  obtain ⟨frozen, frozenRan, ran⟩ := bind_ok ran
  obtain ⟨epochKept, certKept, paramsKept, govKept⟩ :=
    freezeRatification_keeps (orTerminal_ok frozenRan)
  cases ran
  refine ⟨⟨cert, gov, plan, requireFull_ok (orTerminal_ok certRan),
    requireFull_ok (orTerminal_ok govRan), orTerminal_ok planRan, paramsKept, govKept _ rfl⟩,
    ⟨_, certKept⟩, ?_, ?_, ?_, ?_, ?_⟩
  · rw [epochKept]
    exact ⟨_, rfl⟩
  all_goals rw [epochKept]

end

/-! ## Crossing without a seed reward -/

theorem orEpochTerminal_ok {α : Type} {x : Except GovernanceTerminal α} {value : α}
    (ran : orEpochTerminal x = .ok value) : x = .ok value := by
  cases x with
  | error reason => cases ran
  | ok found =>
      cases ran
      rfl

theorem orBoundaryFailure_ok {α : Type} {x : Boundary α} {value : α}
    (ran : orBoundaryFailure x = .ok value) : x = .ok value := by
  cases x with
  | error failure => cases failure <;> cases ran
  | ok found =>
      cases ran
      rfl

theorem orError_ok {α : Type} {failure : LedgerTransitionError} {x : Option α} {value : α}
    (ran : orError failure x = .ok value) : x = some value := by
  cases x with
  | none => cases ran
  | some found =>
      cases ran
      rfl

theorem requireBoundaryStake_ok {ctx : SelectedBlockCtx} {target : EpochNo}
    {base : BTreeMap StakeCredential Coin} (ran : requireBoundaryStake ctx target = .ok base) :
    ctx.boundaryMark = some base := by
  unfold requireBoundaryStake at ran
  split at ran
  · cases ran
  · next found =>
      split_ifs at ran
      cases ran
      exact found

section
variable {ratifyFrozen : FrozenRatificationInput → Except GovernanceTerminal RatificationRecord}
  {commitments : SeedCommitments} {acc after : EpochAccumulator} {target : EpochNo}
  {ctx : SelectedBlockCtx}

/-- The accumulator after a boundary that computed `result`. -/
structure Rotates (acc after : EpochAccumulator) (result : LedgerState Unit) : Prop where
  certState : result.certState = .authoritative after.certState
  govState : result.govState = .authoritative after.govState
  rest : after = { acc with
    certState := after.certState
    govState := after.govState
    epochState := result.epochState
    prevBlockProduction := acc.epochState.blockProduction
    prevEpochFees := acc.epochState.epochFees }

theorem crossEpochBoundary_ordinary (quiet : acc.pendingRewardUpdate = none)
    (crossed : crossEpochBoundary ratifyFrozen commitments acc target ctx = .ok after) :
    ∃ base result accounting, ctx.boundaryMark = some base ∧
      applyEpochBoundaryWithRegistrations ratifyFrozen (boundaryView acc .ordinary) target none
        (some (boundaryBase ctx base)) ctx.activeSlotsPerEpoch = .ok (result, accounting) ∧
      Rotates acc after result := by
  obtain ⟨pair, ran, returned⟩ := bind_ok crossed
  cases returned
  obtain ⟨base, marked, ran⟩ := bind_ok ran
  obtain ⟨authority, taken, ran⟩ := bind_ok ran
  rw [quiet] at taken
  cases taken
  obtain ⟨staged, stagedRan, ran⟩ := bind_ok ran
  cases stagedRan
  obtain ⟨result, computed, ran⟩ := bind_ok ran
  obtain ⟨-, -, ran⟩ := bind_ok ran
  obtain ⟨cert, certRan, ran⟩ := bind_ok ran
  obtain ⟨gov, govRan, ran⟩ := bind_ok ran
  obtain ⟨rotated, pots, ran⟩ := bind_ok ran
  cases pots
  obtain ⟨leadership, -, ran⟩ := bind_ok ran
  obtain ⟨mark, -, returned⟩ := bind_ok ran
  cases returned
  refine ⟨base, result.1, result.2, requireBoundaryStake_ok marked, orBoundaryFailure_ok computed,
    requireFull_ok (orEpochTerminal_ok certRan), requireFull_ok (orEpochTerminal_ok govRan), ?_⟩
  rw [← quiet]

end

section
variable {ratifyFrozen : FrozenRatificationInput → Except GovernanceTerminal RatificationRecord}
  {commitments : SeedCommitments} {acc : EpochAccumulator} {target : EpochNo}
  {ctx : SelectedBlockCtx}

/-- Nothing but the boundary function itself can fail. -/
theorem crossEpochBoundary_total (quiet : acc.pendingRewardUpdate = none)
    {base : BTreeMap StakeCredential Coin} (marked : ctx.boundaryMark = some base)
    (slots : ctx.activeSlotsPerEpoch ≠ 0) {leadership : EpochNo}
    (next : checkedAdd target 1 = some leadership)
    {result : LedgerState Unit} {accounting : EpochBoundaryAccounting}
    (computed : applyEpochBoundaryWithRegistrations ratifyFrozen (boundaryView acc .ordinary) target
      none (some (boundaryBase ctx base)) ctx.activeSlotsPerEpoch = .ok (result, accounting)) :
    ∃ after, crossEpochBoundary ratifyFrozen commitments acc target ctx = .ok after := by
  obtain ⟨⟨_, _, _, -, -, -, -, gov, fullGov, -⟩, ⟨cert, fullCert⟩, ⟨snaps, fullSnaps⟩, -, -, -, -⟩ :=
    boundary_returns computed
  have stake : requireBoundaryStake ctx target = .ok base := by
    unfold requireBoundaryStake
    rw [marked]
    exact if_neg slots
  have computed' : orBoundaryFailure (applyEpochBoundaryWithRegistrations ratifyFrozen
      (boundaryView { acc with pendingRewardUpdate := none } .ordinary) target none
      (some (boundaryBase ctx base)) ctx.activeSlotsPerEpoch) = .ok (result, accounting) :=
    congrArg orBoundaryFailure computed
  refine ⟨{ acc with
    certState := cert
    govState := gov
    epochState := result.epochState
    prevBlockProduction := acc.epochState.blockProduction
    prevEpochFees := acc.epochState.epochFees
    pendingRewardUpdate := none }, ?_⟩
  unfold crossEpochBoundary crossEpochBoundaryTransition
  rw [stake, quiet]
  show ((orBoundaryFailure (applyEpochBoundaryWithRegistrations ratifyFrozen
      (boundaryView { acc with pendingRewardUpdate := none } .ordinary) target none
      (some (boundaryBase ctx base)) ctx.activeSlotsPerEpoch) >>= fun _ => _) >>= fun _ => _) = _
  rw [computed']
  show ((orEpochTerminal (result.certState.requireFull result.epochState.slot) >>= fun _ => _) >>=
    fun _ => _) = _
  rw [fullCert]
  show ((orEpochTerminal (result.govState.requireFull result.epochState.slot) >>= fun _ => _) >>=
    fun _ => _) = _
  rw [fullGov]
  show ((orError _ (checkedAdd target 1) >>= fun _ => rotatedMark _ target >>= fun _ => _) >>=
    fun _ => _) = _
  rw [next]
  unfold rotatedMark
  dsimp only
  rw [fullSnaps]
  rfl

end

/-! ## What the plan enacts -/

theorem applyRatificationRecord_decided {record : RatificationRecord} {newEpoch : EpochNo}
    {proposals : List GovActionState} {isRegistered : StakeCredential → Bool}
    {plan : ConwayGovernanceEpochPlan}
    (applied : applyRatificationRecord record newEpoch proposals isRegistered = .ok plan) :
    ∃ decision, record.outcome = .decided decision ∧
      plan.pparams = decision.enacted.elim .unchanged (fun enacted => .set enacted.pparams) ∧
      plan.prevPparamAction =
        decision.enacted.elim .unchanged fun enacted => .set enacted.actionId := by
  unfold applyRatificationRecord at applied
  split_ifs at applied with mismatch
  split at applied
  · next decision decided =>
      obtain ⟨-, -, applied⟩ := bind_ok applied
      obtain ⟨returns, -, applied⟩ := bind_ok applied
      cases applied
      exact ⟨decision, decided, rfl, rfl⟩
  · cases applied

/-- The plan enacts what the record has frozen. -/
theorem governancePlan_enacts {acc : EpochAccumulator} {cert : CertState} {target : EpochNo}
    {plan : Option ConwayGovernanceEpochPlan}
    (planned : governancePlan acc.era acc.govState cert target = .ok plan) :
    enactedParams acc.protocolParams plan =
        acc.frozenEnactment.elim acc.protocolParams EnactedParameterChange.pparams ∧
      ∀ change, acc.frozenEnactment = some change → ∃ gov, applyPlan acc.govState plan = some gov ∧
        gov.prevPparamAction = .enacted change.actionId := by
  unfold governancePlan at planned
  unfold EpochAccumulator.frozenEnactment
  split_ifs at planned ⊢ with conway
  · cases held : acc.govState with
    | none =>
        rw [held] at planned
        cases planned
        simp [enactedParams]
    | some gov =>
        rw [held] at planned
        cases recorded : gov.ratification with
        | unversioned => simp [recorded] at planned
        | recorded record =>
            simp only [recorded] at planned
            obtain ⟨full, applied, returned⟩ := bind_ok planned
            cases returned
            obtain ⟨decision, decided, params, action⟩ := applyRatificationRecord_decided applied
            simp only [Option.map_some, recorded, decided]
            cases enacted : decision.enacted with
            | none => simp [enactedParams, params, enacted]
            | some change => simp [enactedParams, applyPlan, params, action, enacted]
  · cases planned
    simp [enactedParams]

/-! ## The parameters are not read back -/

section
variable {ratifyFrozen : FrozenRatificationInput → Except GovernanceTerminal RatificationRecord}
  {commitments : SeedCommitments} {acc after : EpochAccumulator} {target : EpochNo}
  {ctx : SelectedBlockCtx}

theorem boundary_enacts {result : LedgerState Unit} {accounting : EpochBoundaryAccounting}
    {base : BoundaryBaseStake} {slots : UInt64}
    (computed : applyEpochBoundaryWithRegistrations ratifyFrozen (boundaryView acc .ordinary) target
      none (some base) slots = .ok (result, accounting)) :
    result.protocolParams =
        acc.frozenEnactment.elim acc.protocolParams EnactedParameterChange.pparams ∧
      ∀ change, acc.frozenEnactment = some change → ∃ gov,
        result.govState = .authoritative (some gov) ∧
        gov.prevPparamAction = .enacted change.actionId := by
  obtain ⟨cert, gov, plan, -, fullGov, planned, params, frozenGov, full, frozen⟩ :=
    (boundary_returns computed).plan
  cases fullGov
  obtain ⟨enacts, advances⟩ := governancePlan_enacts planned
  refine ⟨params.trans enacts, fun change enacted => ?_⟩
  obtain ⟨next, applied, advanced⟩ := advances change enacted
  obtain ⟨ratification, rfl⟩ := frozen next applied
  exact ⟨_, full, advanced⟩

theorem keepsResult_iff {result : LedgerState Unit} (rotates : Rotates acc after result)
    (params : result.protocolParams =
      acc.frozenEnactment.elim acc.protocolParams EnactedParameterChange.pparams) :
    (Crossing.mk target ctx acc after).KeepsResult result ↔ acc.EnactsNothingNew := by
  have stale : after.protocolParams = acc.protocolParams := by rw [rotates.rest]
  unfold EpochAccumulator.EnactsNothingNew
  constructor
  · intro kept change enacted
    have carried := kept.protocolParams
    rw [params, Option.mem_def.mp enacted] at carried
    exact carried.trans stale
  · intro nothing
    refine ⟨rotates.certState, rotates.govState, ?_, ?_, ?_, ?_⟩
    · rw [rotates.rest]
    · show result.protocolParams = after.protocolParams
      rw [params, stale]
      cases enacted : acc.frozenEnactment with
      | none => rfl
      | some change => exact nothing change enacted
    · show after.prevBlockProduction = _
      rw [rotates.rest]
    · show after.prevEpochFees = _
      rw [rotates.rest]

end

/-! ## Runs -/

section
variable {env : AccumulatorEnv}

/-- What a block that is applied has passed. -/
structure BlockApplied (env : AccumulatorEnv) (prior : EpochAccumulator) (block : SelectedBlock)
    (decoded : CardanoEra × ShelleyBlock) (crossed applied after : EpochAccumulator) : Prop where
  decodes : decodeSelectedBlock env block.bytes = .ok decoded
  epoch : prior.epochState.epoch ≤ block.ctx.blockEpoch
  crosses : crossBoundaries env prior (boundaries prior.epochState.epoch block.ctx.blockEpoch)
    block.ctx = .ok crossed
  applies : applyWithinEpoch env crossed decoded.2 decoded.1 block.ctx = .ok applied
  slotted : after = { applied with epochState := { applied.epochState with slot := block.ctx.blockSlot } }

theorem blockApplied_of_step {prior after : EpochAccumulator} {block : SelectedBlock}
    (step : AccumulatorStep env prior block after) :
    ∃ decoded crossed applied, BlockApplied env prior block decoded crossed applied after := by
  obtain ⟨decoded, decodes, ran⟩ := bind_ok step
  obtain ⟨-, -, ran⟩ := bind_ok ran
  obtain ⟨_, epoch, ran⟩ := bind_ok ran
  obtain ⟨crossed, crosses, ran⟩ := bind_ok ran
  obtain ⟨applied, applies, ran⟩ := bind_ok ran
  cases ran
  refine ⟨decoded, crossed, applied, decodes, ?_, crosses, applies, rfl⟩
  unfold requireEpoch at epoch
  split_ifs at epoch with gap
  exact UInt64.not_lt.mp gap

variable {holds : EpochAccumulator → Prop} {fact : Crossing → Prop}

theorem blockCrossings_invariant {ctx : SelectedBlockCtx} {targets : List EpochNo}
    {before last : EpochAccumulator}
    (boundary : ∀ crossing : Crossing, holds crossing.before →
      crossEpochBoundary env.ratifyFrozen env.commitments crossing.before crossing.target crossing.ctx =
        .ok crossing.after → holds crossing.after ∧ fact crossing)
    (crossed : crossBoundaries env before targets ctx = .ok last) (initially : holds before) :
    holds last ∧ ∀ crossing ∈ blockCrossings env ctx before targets, fact crossing := by
  induction targets generalizing before with
  | nil =>
      cases crossed
      exact ⟨initially, by simp [blockCrossings]⟩
  | cons target targets ih =>
      unfold crossBoundaries at crossed
      rw [List.foldlM_cons] at crossed
      obtain ⟨after, first, rest⟩ := bind_ok crossed
      obtain ⟨held, known⟩ := boundary ⟨target, ctx, before, after⟩ initially first
      obtain ⟨finally_, others⟩ := ih rest held
      simp only [blockCrossings, first, List.forall_mem_cons]
      exact ⟨finally_, known, others⟩

/-- What boundaries and blocks preserve holds along a run, and what a boundary establishes holds of
every crossing. -/
theorem crossings_invariant {start last : EpochAccumulator} {blocks : List SelectedBlock}
    (boundary : ∀ crossing : Crossing, holds crossing.before →
      crossEpochBoundary env.ratifyFrozen env.commitments crossing.before crossing.target crossing.ctx =
        .ok crossing.after → holds crossing.after ∧ fact crossing)
    (within_ : ∀ before block era ctx applied, holds before →
      applyWithinEpoch env before block era ctx = .ok applied →
        holds { applied with epochState := { applied.epochState with slot := ctx.blockSlot } })
    (run : Run (AccumulatorStep env) start blocks last) (initially : holds start) :
    holds last ∧ ∀ crossing ∈ crossings env start blocks, fact crossing := by
  induction run with
  | nil => exact ⟨initially, by simp [crossings]⟩
  | @cons before middle after block blocks head tail ih =>
      obtain ⟨decoded, crossed, applied, facts⟩ := blockApplied_of_step head
      obtain ⟨held, known⟩ := blockCrossings_invariant boundary facts.crosses initially
      have next := within_ _ _ _ _ _ held facts.applies
      rw [← facts.slotted] at next
      obtain ⟨finally_, others⟩ := ih next
      refine ⟨finally_, fun crossing member => ?_⟩
      rw [crossings, show applySelectedBlock env before block.bytes block.ctx = .ok middle from head]
        at member
      rcases List.mem_append.mp member with member | member
      · exact known crossing member
      · exact others crossing member

end

/-! ## Enactment along a run -/

section
variable {env : AccumulatorEnv}

/-- The accumulator with the boundary it came from: nothing pending, and its first parameters. -/
structure Plain (params : ProtocolParameters) (acc : EpochAccumulator) : Prop where
  quiet : acc.pendingRewardUpdate = none
  params : acc.protocolParams = params

theorem applyWithinEpoch_plain {params : ProtocolParameters} {acc applied : EpochAccumulator}
    {block : ShelleyBlock} {era : CardanoEra} {ctx : SelectedBlockCtx} {slot : SlotNo}
    (ran : applyWithinEpoch env acc block era ctx = .ok applied) (plain : Plain params acc) :
    Plain params { applied with epochState := { applied.epochState with slot } } := by
  obtain ⟨invalid, -, ran⟩ := bind_ok ran
  obtain ⟨effects, -, ran⟩ := bind_ok ran
  obtain ⟨ledger, -, ran⟩ := bind_ok ran
  obtain ⟨gov, -, ran⟩ := bind_ok ran
  obtain ⟨blocks, -, ran⟩ := bind_ok ran
  obtain ⟨fees, -, ran⟩ := bind_ok ran
  obtain ⟨donations, -, ran⟩ := bind_ok ran
  cases ran
  exact ⟨plain.quiet, plain.params⟩

theorem crossing_plain {params : ProtocolParameters} {crossing : Crossing}
    (plain : Plain params crossing.before)
    (crossed : crossEpochBoundary env.ratifyFrozen env.commitments crossing.before crossing.target
      crossing.ctx = .ok crossing.after) :
    Plain params crossing.after ∧ crossing.after.protocolParams = params ∧
      crossing.before.protocolParams = params ∧
      ∀ change, crossing.before.frozenEnactment = some change → crossing.Advances change := by
  obtain ⟨base, result, accounting, -, computed, rotates⟩ :=
    crossEpochBoundary_ordinary plain.quiet crossed
  have carried : crossing.after.protocolParams = params := by
    rw [rotates.rest]
    exact plain.params
  refine ⟨⟨?_, carried⟩, carried, plain.params, fun change enacted => ⟨enacted, ?_⟩⟩
  · rw [rotates.rest]
    exact plain.quiet
  · obtain ⟨gov, full, advanced⟩ := (boundary_enacts computed).2 change enacted
    have held := rotates.govState.symm.trans full
    exact ⟨gov, Projection.authoritative.inj held, advanced⟩

/-- No crossing of the run changes the parameters. -/
theorem crossings_plain {start last : EpochAccumulator} {blocks : List SelectedBlock}
    (quiet : start.pendingRewardUpdate = none) (run : Run (AccumulatorStep env) start blocks last) :
    Plain start.protocolParams last ∧ ∀ crossing ∈ crossings env start blocks,
      crossing.after.protocolParams = start.protocolParams ∧
      crossing.before.protocolParams = start.protocolParams ∧
      ∀ change, crossing.before.frozenEnactment = some change → crossing.Advances change :=
  crossings_invariant (fun _ plain crossed => crossing_plain plain crossed)
    (fun _ _ _ _ _ plain ran => applyWithinEpoch_plain ran plain) run ⟨quiet, rfl⟩

theorem inForce_append (params : ProtocolParameters) (crossed : List Crossing) (crossing : Crossing) :
    inForce params (crossed ++ [crossing]) =
      crossing.before.frozenEnactment.elim (inForce params crossed)
        EnactedParameterChange.pparams := by
  unfold inForce
  rw [List.foldl_append]
  rfl

theorem inForce_nothing {params : ProtocolParameters} {crossed : List Crossing}
    (nothing : ∀ crossing ∈ crossed, ∀ change ∈ crossing.before.frozenEnactment,
      change.pparams = params) : inForce params crossed = params := by
  induction crossed using List.reverseRecOn with
  | nil => rfl
  | append_singleton crossed crossing ih =>
      rw [inForce_append, ih fun other member => nothing other (List.mem_append_left _ member)]
      cases enacted : crossing.before.frozenEnactment with
      | none => rfl
      | some change => exact nothing crossing (by simp) change enacted

theorem carries_iff {start last : EpochAccumulator} {blocks : List SelectedBlock}
    (quiet : start.pendingRewardUpdate = none) (run : Run (AccumulatorStep env) start blocks last) :
    CarriesEnactments start (crossings env start blocks) last ↔
      ∀ crossing ∈ crossings env start blocks, crossing.before.EnactsNothingNew := by
  obtain ⟨plain, each⟩ := crossings_plain quiet run
  constructor
  · intro carries crossing member change enacted
    obtain ⟨earlier, later, split⟩ := List.append_of_mem member
    have carried := carries.crossing earlier crossing later split
    rw [inForce_append, Option.mem_def.mp enacted, (each crossing member).1] at carried
    rw [(each crossing member).2.1]
    exact carried.symm
  · intro nothing
    have unchanged : ∀ crossing ∈ crossings env start blocks,
        ∀ change ∈ crossing.before.frozenEnactment, change.pparams = start.protocolParams := by
      intro crossing member change enacted
      rw [nothing crossing member change enacted, (each crossing member).2.1]
    constructor
    · intro earlier crossing later split
      have within_ : ∀ other ∈ earlier ++ [crossing], other ∈ crossings env start blocks := by
        intro other member
        rw [split]
        rcases List.mem_append.mp member with member | member
        · exact List.mem_append_left _ member
        · rw [List.mem_singleton.mp member]
          exact List.mem_append_right _ (List.mem_cons_self ..)
      rw [inForce_nothing fun other member => unchanged other (within_ other member)]
      exact (each crossing (within_ crossing (by simp))).1
    · rw [inForce_nothing unchanged]
      exact plain.params

/-- A boundary reaches the accumulator whole exactly if it enacts no new parameters, and a run whose
boundaries enact none carries all that was enacted. -/
theorem accumulator_keeps_boundary_iff :
    (∀ crossing : Crossing, crossing.before.pendingRewardUpdate = none →
      crossEpochBoundary env.ratifyFrozen env.commitments crossing.before crossing.target
        crossing.ctx = .ok crossing.after →
      ∃ result, crossing.Computes env result ∧
        (crossing.KeepsResult result ↔ crossing.before.EnactsNothingNew)) ∧
    (∀ start blocks last, start.pendingRewardUpdate = none →
      Run (AccumulatorStep env) start blocks last →
      (∀ crossing ∈ crossings env start blocks, ∀ change ∈ crossing.before.frozenEnactment,
        crossing.Advances change) ∧
      (CarriesEnactments start (crossings env start blocks) last ↔
        ∀ crossing ∈ crossings env start blocks, crossing.before.EnactsNothingNew)) := by
  constructor
  · intro crossing quiet crossed
    obtain ⟨base, result, accounting, marked, computed, rotates⟩ :=
      crossEpochBoundary_ordinary quiet crossed
    refine ⟨result, ⟨⟨base, accounting, marked, computed⟩, ?_⟩,
      keepsResult_iff rotates (boundary_enacts computed).1⟩
    rw [rotates.rest]
  · intro start blocks last quiet run
    exact ⟨fun crossing member change enacted =>
      ((crossings_plain quiet run).2 crossing member).2.2 change enacted, carries_iff quiet run⟩

end

/-! ## A change that is lost -/

def sampleChange : EnactedParameterChange where
  actionId := sampleActionId 0
  supersededRoot := none
  pparams := { ProtocolParameters.default with poolDeposit := 1 }

def sampleEnactingRecord : RatificationRecord where
  frozenAt := 507
  source := .frozen
  frozenProposals := (∅ : BTreeSet GovActionId).insert (sampleActionId 0)
  drepDistribution := ∅
  poolDistribution := ∅
  outcome := .decided ⟨some sampleChange, ∅⟩

def sampleRatified : GovActionState := sampleProposal 0 (.parameterChange none [] none) 513

def sampleEnactingGov : ConwayGovState :=
  { emptyGov with proposals := [sampleRatified], ratification := .recorded sampleEnactingRecord }

def sampleAccumulator (gov : Option ConwayGovState) : EpochAccumulator where
  epochState :=
    { epoch := 507
      slot := 100
      snapshots := .authoritative ⟨.new, .new, .new⟩
      reserves := 0
      treasury := 50
      blockProduction := ∅
      epochFees := 0
      donationPot := 0 }
  prevBlockProduction := ∅
  prevEpochFees := 0
  certState := .new
  protocolParams := .default
  govState := gov
  conwayDepositParams := none
  maxLovelaceSupply := 10000
  era := .conway
  pendingRewardUpdate := none

def sampleCtx : SelectedBlockCtx where
  era := .conway
  blockEpoch := 508
  blockSlot := 200
  issuerPool := Vector.replicate 28 1
  boundaryMark := some ∅
  activeSlotsPerEpoch := 10

/-- Every block is empty, and every record is the same. -/
def sampleEnv : AccumulatorEnv where
  ratifyFrozen _ := .ok sampleEnactingRecord
  commitments := ⟨fun _ _ _ _ _ _ _ _ => sampleDigest [], fun _ _ _ _ _ => sampleDigest []⟩
  decodeBlockEnvelope bytes := .ok (.conway, bytes)
  decodeConwayBlock _ := .ok ⟨0, [0x80], none⟩
  certDecoders := sampleCertDecoders
  decodeProposalProcedures _ := .ok []
  transactionId := sampleDigest
  resolver := none

theorem sampleEnactment_closed : closeOverDescendants [sampleRatified] ∅ = ∅ := by
  rw [closeOverDescendants, dif_neg (by decide)]
  decide

def sampleEnactmentPlan : ConwayGovernanceEpochPlan where
  proposals := []
  removals := [⟨sampleActionId 0, .enacted⟩]
  depositReturns := [.toTreasury (sampleActionId 0) 1000]
  pparams := .set sampleChange.pparams
  prevPparamAction := .set (sampleActionId 0)

theorem sampleEnactment_planned :
    governancePlan .conway (some sampleEnactingGov) .new 508 = .ok (some sampleEnactmentPlan) := by
  unfold governancePlan
  rw [if_pos rfl]
  dsimp only [sampleEnactingGov, sampleEnactingRecord, applyRatificationRecord, applyDecision]
  have siblings : prunedBy sampleChange [sampleRatified] ∅ = ∅ := by
    have closed := sampleEnactment_closed
    have none_ : (∅ : BTreeSet GovActionId).insertMany (([sampleRatified].filter
        (isSibling sampleChange ∅)).map GovActionState.actionId) = ∅ := by decide
    unfold prunedBy
    dsimp only
    rw [none_, closed]
    decide
  have sorted : [sampleRatified].mergeSort
      (fun a b => (compare a.actionId b.actionId).isLE) = [sampleRatified] :=
    List.mergeSort_singleton _
  rw [sampleEnactment_closed, sorted]
  simp only [Option.elim_some]
  rw [siblings]
  decide

theorem exists_of_isOk {ε α : Type} {x : Except ε α} (succeeds : x.isOk = true) :
    ∃ value, x = .ok value := by
  cases x with
  | error failure => cases succeeds
  | ok value => exact ⟨value, rfl⟩

theorem sampleEnactment_computes : ∃ result accounting, applyEpochBoundaryWithRegistrations
    sampleEnv.ratifyFrozen (boundaryView (sampleAccumulator (some sampleEnactingGov)) .ordinary) 508
    none (some (boundaryBase sampleCtx ∅)) 10 = .ok (result, accounting) := by
  have succeeds : (applyEpochBoundaryWithRegistrations sampleEnv.ratifyFrozen
      (boundaryView (sampleAccumulator (some sampleEnactingGov)) .ordinary) 508 none
      (some (boundaryBase sampleCtx ∅)) 10).isOk = true := by
    unfold applyEpochBoundaryWithRegistrations
    show (orTerminal (governancePlan .conway (some sampleEnactingGov) .new 508) >>=
      fun _ => _).isOk = true
    rw [sampleEnactment_planned]
    decide
  obtain ⟨value, ran⟩ := exists_of_isOk succeeds
  exact ⟨value.1, value.2, ran⟩

/-- The boundary enacts the change, and the accumulator keeps its old parameters. -/
theorem enacted_change_is_lost : ∃ after result,
    crossEpochBoundary sampleEnv.ratifyFrozen sampleEnv.commitments
      (sampleAccumulator (some sampleEnactingGov)) 508 sampleCtx = .ok after ∧
    (Crossing.mk 508 sampleCtx (sampleAccumulator (some sampleEnactingGov)) after).Computes sampleEnv
      result ∧
    (Crossing.mk 508 sampleCtx (sampleAccumulator (some sampleEnactingGov)) after).Advances
      sampleChange ∧
    result.protocolParams = sampleChange.pparams ∧ after.protocolParams ≠ sampleChange.pparams := by
  obtain ⟨result, accounting, computed⟩ := sampleEnactment_computes
  have quiet : (sampleAccumulator (some sampleEnactingGov)).pendingRewardUpdate = none := rfl
  obtain ⟨after, crossed⟩ : ∃ after, crossEpochBoundary sampleEnv.ratifyFrozen sampleEnv.commitments
      (sampleAccumulator (some sampleEnactingGov)) 508 sampleCtx = .ok after :=
    crossEpochBoundary_total quiet rfl (by decide) rfl computed
  obtain ⟨base, result', accounting', marked, computed', rotates⟩ :=
    crossEpochBoundary_ordinary quiet crossed
  cases marked
  cases computed.symm.trans computed'
  have frozen : (sampleAccumulator (some sampleEnactingGov)).frozenEnactment = some sampleChange :=
    rfl
  obtain ⟨params, advances⟩ := boundary_enacts computed
  obtain ⟨gov, full, advanced⟩ := advances sampleChange frozen
  rw [frozen, Option.elim_some] at params
  have kept : after.protocolParams = ProtocolParameters.default := by rw [rotates.rest]; rfl
  have epochState : after.epochState = result.epochState := by rw [rotates.rest]
  have differs : ProtocolParameters.default ≠ sampleChange.pparams := by decide
  have after_gov : after.govState = some gov :=
    Projection.authoritative.inj (rotates.govState.symm.trans full)
  refine ⟨after, result, crossed, ⟨⟨∅, accounting, rfl, computed⟩, epochState⟩,
    ⟨frozen, gov, after_gov, advanced⟩, params, ?_⟩
  rw [kept]
  exact differs

theorem ungoverned_enacts_nothing : (sampleAccumulator none).EnactsNothingNew := by
  have nothing : (sampleAccumulator none).frozenEnactment = none := rfl
  intro change enacted
  rw [nothing] at enacted
  cases enacted

/-- A run over one boundary at which governance is not tracked. -/
theorem accumulator_keeps_plain_boundary : ∃ after result last,
    (Crossing.mk 508 sampleCtx (sampleAccumulator none) after).KeepsResult result ∧
    Run (AccumulatorStep sampleEnv) (sampleAccumulator none) [⟨[], sampleCtx⟩] last ∧
    CarriesEnactments (sampleAccumulator none)
      (crossings sampleEnv (sampleAccumulator none) [⟨[], sampleCtx⟩]) last := by
  obtain ⟨after, crossed⟩ := exists_of_isOk (by decide : (crossEpochBoundary
    sampleEnv.ratifyFrozen sampleEnv.commitments (sampleAccumulator none) 508 sampleCtx).isOk = true)
  obtain ⟨last, applied⟩ := exists_of_isOk (by decide : (applySelectedBlock sampleEnv
    (sampleAccumulator none) [] sampleCtx).isOk = true)
  have run : Run (AccumulatorStep sampleEnv) (sampleAccumulator none) [⟨[], sampleCtx⟩] last :=
    .cons applied (.nil last)
  obtain ⟨boundary, along⟩ := @accumulator_keeps_boundary_iff sampleEnv
  obtain ⟨result, -, kept⟩ := boundary ⟨508, sampleCtx, sampleAccumulator none, after⟩ rfl crossed
  refine ⟨after, result, last, kept.mpr ungoverned_enacts_nothing, run,
    (along (sampleAccumulator none) [⟨[], sampleCtx⟩] last rfl run).2.mpr ?_⟩
  have targets : boundaries (sampleAccumulator none).epochState.epoch sampleCtx.blockEpoch = [508] := by
    decide
  simp only [crossings, applied, targets, blockCrossings, crossed]
  intro crossing member
  obtain rfl := List.mem_singleton.mp member
  exact ungoverned_enacts_nothing

end Ade.Proof.Ledger
