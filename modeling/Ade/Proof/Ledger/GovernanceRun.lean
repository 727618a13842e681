import Ade.Proof.Ledger.EpochBoundary
import Ade.Proof.Ledger.GovCert
import Ade.Proof.Ledger.RecordTerminals

namespace Ade.Proof.Ledger
open Std (ExtTreeMap ExtTreeSet)
open Library Ade.Ledger

variable {proposals : List GovActionState} {decision : RatificationDecision}

/-! ## What a freeze may decide -/

/-- The expired and the winner are among the proposals, and the winner chains onto the root. -/
structure DecisionSound (proposals : List GovActionState) (root : PreviousPParamAction)
    (decision : RatificationDecision) : Prop where
  expired : ∀ id ∈ decision.expired, id ∈ proposalIds proposals
  winner : ∀ enacted, decision.enacted = some enacted → ∃ p ∈ proposals,
    p.actionId = enacted.actionId ∧
      (∃ update policyHash,
        p.govAction = .parameterChange enacted.supersededRoot update policyHash) ∧
      lineageOk root enacted.supersededRoot = true

theorem DecisionSound.present {root : PreviousPParamAction}
    (sound : DecisionSound proposals root decision) : DecidedPresent decision proposals := by
  refine ⟨sound.expired, fun enacted chosen => ?_⟩
  obtain ⟨p, member, same, -⟩ := sound.winner enacted chosen
  exact same ▸ List.mem_map_of_mem member

section
variable {input : FrozenRatificationInput} {rules : RatificationRules}

/-- A parameter change of the set that chains onto the current root. -/
def Candidate (input : FrozenRatificationInput) (p : GovActionState) : Prop :=
  p ∈ input.gov.proposals ∧ ∃ prevAction update policyHash,
    p.govAction = .parameterChange prevAction update policyHash ∧
      lineageOk input.gov.prevPparamAction prevAction = true

theorem scanProposal_candidates {accepted : GovActionState → Bool} {scan next : RatificationScan}
    {p : GovActionState} (member : p ∈ input.gov.proposals)
    (ran : scanProposal input accepted scan p = .ok next)
    (held : ∀ candidate ∈ scan.candidates, Candidate input candidate) :
    ∀ candidate ∈ next.candidates, Candidate input candidate := by
  unfold scanProposal at ran
  by_cases skipped : p.govAction = .infoAction ∨ ¬ accepted p
  · rw [if_pos skipped] at ran
    cases ran
    exact held
  · rw [if_neg skipped] at ran
    split at ran
    · rename_i prevAction update policyHash action
      by_cases unversioned : input.gov.prevPparamAction = .unversioned ∨
          input.pparams.maxBlockExUnits = .unversioned
      · rw [if_pos unversioned] at ran
        cases ran
      · rw [if_neg unversioned] at ran
        cases ran
        intro candidate listed
        dsimp only at listed
        split_ifs at listed with lineage
        · rcases List.mem_append.mp listed with before | last
          · exact held candidate before
          · obtain rfl := List.mem_singleton.mp last
            exact ⟨member, prevAction, update, policyHash, action, lineage⟩
        · exact held candidate listed
    · cases ran

theorem buildParameterChangeEnactment_ok {winner : GovActionState} {current : ProtocolParameters}
    {enacted : EnactedParameterChange}
    (ran : buildParameterChangeEnactment rules winner current = .ok enacted) :
    enacted.actionId = winner.actionId ∧ ∃ update policyHash,
      winner.govAction = .parameterChange enacted.supersededRoot update policyHash := by
  unfold buildParameterChangeEnactment at ran
  dsimp only at ran
  split at ran
  · rename_i prevAction update policyHash action
    split_ifs at ran
    split at ran
    · cases ran
    · split_ifs at ran
      obtain ⟨-, -, returned⟩ := bind_ok ran
      cases returned
      exact ⟨rfl, update, policyHash, action⟩
  · cases ran

theorem selectEnacted_ok {current : ProtocolParameters} {candidates : List GovActionState}
    {enacted : EnactedParameterChange}
    (ran : selectEnacted rules current candidates = .ok (some enacted)) :
    ∃ winner ∈ candidates, enacted.actionId = winner.actionId ∧ ∃ update policyHash,
      winner.govAction = .parameterChange enacted.supersededRoot update policyHash := by
  unfold selectEnacted at ran
  split at ran
  · cases ran
  · rename_i winner
    obtain ⟨built, made, returned⟩ := bind_ok ran
    cases returned
    exact ⟨winner, List.mem_singleton_self _, buildParameterChangeEnactment_ok made⟩
  · cases ran

theorem decideRatification_sound {dreps : BTreeMap DRep Coin} {pools : BTreeMap PoolId Coin}
    (ran : decideRatification rules input dreps pools = .ok decision) :
    DecisionSound input.gov.proposals input.gov.prevPparamAction decision := by
  unfold decideRatification at ran
  dsimp only at ran
  split_ifs at ran with dormant
  · cases ran
  obtain ⟨scan, scanned, ran⟩ := bind_ok ran
  obtain ⟨enacted, selected, ran⟩ := bind_ok ran
  obtain ⟨-, -, ran⟩ := bind_ok ran
  cases ran
  constructor
  · intro id member
    rw [ExtTreeSet.mem_ofList, List.contains_iff_mem, List.mem_map] at member
    obtain ⟨p, listed, rfl⟩ := member
    exact List.mem_map_of_mem (List.mem_mergeSort.mp (List.mem_filter.mp listed).1)
  · rintro winner rfl
    have candidates : ∀ candidate ∈ scan.candidates, Candidate input candidate := by
      apply foldlM_invariant _ scanned
      · simp
      · intro before p after member stepped held
        exact scanProposal_candidates (List.mem_mergeSort.mp member) stepped held
    obtain ⟨p, listed, same, update, policyHash, action⟩ := selectEnacted_ok selected
    obtain ⟨member, prevAction, _, _, action', lineage⟩ := candidates p listed
    rw [action] at action'
    cases action'
    exact ⟨p, member, same.symm, ⟨update, policyHash, action⟩, lineage⟩

theorem ratifyFrozen_sound {record : RatificationRecord} (ran : ratifyFrozen rules input = .ok record) :
    record.frozenAt = input.epoch ∧ ∀ decision, record.outcome = .decided decision →
      DecisionSound input.gov.proposals input.gov.prevPparamAction decision := by
  obtain ⟨dreps, -, ran⟩ := bind_ok ran
  obtain ⟨pools, -, ran⟩ := bind_ok ran
  obtain ⟨outcome, recorded, ran⟩ := bind_ok ran
  cases ran
  refine ⟨rfl, fun decision decided => ?_⟩
  dsimp only at decided
  subst decided
  cases result : decideRatification rules input dreps pools with
  | error terminal =>
      rw [result] at recorded
      obtain ⟨reason, -, returned⟩ := bind_ok recorded
      cases returned
  | ok found =>
      rw [result] at recorded
      cases recorded
      exact decideRatification_sound result

end

/-! ## The winner's children -/

theorem eq_of_actionId_eq (distinct : (proposalIds proposals).Nodup) {p q : GovActionState}
    (member : p ∈ proposals) (member' : q ∈ proposals) (same : p.actionId = q.actionId) : p = q :=
  List.inj_on_of_nodup_map distinct member member' same

theorem lineageOk_some {root : PreviousPParamAction} {prevAction : Option GovActionId}
    (lineage : lineageOk root prevAction = true) {parent : GovActionId}
    (chains : prevAction = some parent) : root = .enacted parent := by
  unfold lineageOk at lineage
  cases root with
  | unversioned => cases lineage
  | noPreviousAction => simp [chains] at lineage
  | enacted enactedRoot =>
      rw [chains] at lineage
      rw [Option.some.inj (of_decide_eq_true lineage)]

section
variable {root : PreviousPParamAction} {enacted : EnactedParameterChange}

/-- A proposal that chains onto the winner is no competitor of it, nor descends from one: the root
that both supersede has left the set. -/
theorem child_not_pruned (distinct : (proposalIds proposals).Nodup)
    (sound : DecisionSound proposals root decision)
    (gone : ∀ id, root = .enacted id → id ∉ proposalIds proposals)
    (won : decision.enacted = some enacted) {child : GovActionState} (member : child ∈ proposals)
    (chains : govActionParent child.govAction = some enacted.actionId) :
    child.actionId ≠ enacted.actionId ∧ ∀ sibling ∈ proposals, Competes enacted sibling →
      ¬ Descends proposals child.actionId sibling.actionId := by
  obtain ⟨winner, inside, same, ⟨update, policyHash, action⟩, lineage⟩ := sound.winner enacted won
  have absent : ∀ parent, enacted.supersededRoot = some parent → parent ∉ proposalIds proposals :=
    fun parent superseded => gone parent (lineageOk_some lineage superseded)
  have winnerListed : enacted.actionId ∈ proposalIds proposals := same ▸ List.mem_map_of_mem inside
  have winnerParent : govActionParent winner.govAction = enacted.supersededRoot := by
    rw [action]
    rfl
  refine ⟨fun equal => ?_, fun sibling listed competes descends => ?_⟩
  · obtain rfl := eq_of_actionId_eq distinct member inside (equal.trans same.symm)
    exact absent enacted.actionId (winnerParent.symm.trans chains) winnerListed
  · obtain ⟨other, update', policyHash', action'⟩ := competes
    rcases descends.cases_head with equal | ⟨parent, first, rest⟩
    · obtain rfl := eq_of_actionId_eq distinct member listed equal
      rw [action'] at chains
      exact absent enacted.actionId chains winnerListed
    · obtain ⟨p, found, named, up⟩ := first
      obtain rfl := eq_of_actionId_eq distinct found member named
      obtain rfl : enacted.actionId = parent := Option.some.inj (chains.symm.trans up)
      rcases rest.cases_head with equal | ⟨grandparent, second, rest⟩
      · exact other equal.symm
      · obtain ⟨q, found', named', up'⟩ := second
        obtain rfl := eq_of_actionId_eq distinct found' inside (named'.trans same.symm)
        have superseded := winnerParent.symm.trans up'
        rcases rest.cases_head with equal | ⟨next, third, -⟩
        · exact absent grandparent superseded (equal ▸ List.mem_map_of_mem listed)
        · obtain ⟨r, found'', named'', -⟩ := third
          exact absent grandparent superseded (named'' ▸ List.mem_map_of_mem found'')

theorem leaves_child_iff (distinct : (proposalIds proposals).Nodup)
    (sound : DecisionSound proposals root decision)
    (gone : ∀ id, root = .enacted id → id ∉ proposalIds proposals)
    (won : decision.enacted = some enacted) {child : GovActionState} (member : child ∈ proposals)
    (chains : govActionParent child.govAction = some enacted.actionId) :
    Leaves decision proposals child.actionId ↔ ∃ expired ∈ decision.expired,
      Descends proposals child.actionId expired := by
  obtain ⟨distinctIds, unpruned⟩ := child_not_pruned distinct sound gone won member chains
  constructor
  · intro leaves
    cases leaves with
    | expired listed descends => exact ⟨_, listed, descends⟩
    | enacted chosen same =>
        obtain rfl := Option.some.inj (won.symm.trans chosen)
        exact absurd same distinctIds
    | pruned chosen listed competes descends =>
        obtain rfl := Option.some.inj (won.symm.trans chosen)
        exact absurd descends (unpruned _ listed competes)
  · rintro ⟨expired, listed, descends⟩
    exact .expired listed descends

end

theorem removesExactly {gov : ConwayGovState} {plan : ConwayGovernanceEpochPlan}
    {isRegistered : StakeCredential → Bool} (distinct : (proposalIds gov.proposals).Nodup)
    (sound : DecisionSound gov.proposals gov.prevPparamAction decision)
    (gone : ∀ id, gov.prevPparamAction = .enacted id → id ∉ proposalIds gov.proposals)
    (ran : applyDecision decision gov.proposals isRegistered = .ok plan) :
    RemovesExactly gov plan decision where
  carried := by
    rw [applyDecision_proposals sound.present ran]
    exact List.filter_sublist
  kept p member := mem_plan_proposals sound.present ran member
  removed id := mem_plan_removals sound.present ran
  returned := plan_returns sound.present ran
  children enacted won child member chains := by
    rw [mem_plan_proposals sound.present ran member,
      leaves_child_iff distinct sound gone won member chains]

/-! ## The boundary -/

section
variable {Utxo : Type} {rules : RatificationRules} {ledger next : LedgerState Utxo}
  {newEpoch : EpochNo} {gov : ConwayGovState} {record : RatificationRecord}
  {plan : ConwayGovernanceEpochPlan}

theorem boundaryPlan_eq (era : ledger.era = .conway)
    (tracked : ledger.govState = .authoritative (some gov))
    (recorded : gov.ratification = .recorded record) :
    boundaryPlan ledger newEpoch = (do
      let cert ← ledger.certState.requireFull ledger.epochState.slot
      return some (← applyRatificationRecord record newEpoch gov.proposals
        fun cred => cert.delegation.registrations.contains cred)) := by
  unfold boundaryPlan
  rw [tracked]
  cases ledger.certState.requireFull ledger.epochState.slot with
  | error failure => rfl
  | ok cert =>
      show governancePlan ledger.era (some gov) cert newEpoch = _
      unfold governancePlan
      rw [if_pos era]
      dsimp only
      rw [recorded]
      rfl

/-- A plan is that of a decision, taken in the epoch that ends. -/
theorem boundaryPlan_ok (era : ledger.era = .conway)
    (tracked : ledger.govState = .authoritative (some gov))
    (recorded : gov.ratification = .recorded record)
    (planned : boundaryPlan ledger newEpoch = .ok (some plan)) :
    ∃ decision isRegistered, record.outcome = .decided decision ∧
      applyDecision decision gov.proposals isRegistered = .ok plan := by
  rw [boundaryPlan_eq era tracked recorded] at planned
  obtain ⟨cert, -, planned⟩ := bind_ok planned
  obtain ⟨found, applied, returned⟩ := bind_ok planned
  cases returned
  unfold applyRatificationRecord at applied
  split_ifs at applied with mismatch
  cases outcome : record.outcome with
  | unenactable reason =>
      rw [outcome] at applied
      cases applied
  | decided decision =>
      rw [outcome] at applied
      exact ⟨decision, _, rfl, applied⟩

/-- Freezing over a state with governance stores the record of that state. -/
theorem freezeRatification_records {frozen : LedgerState Utxo} {base : Option BoundaryBaseStake}
    {delegatedAtSnap : BTreeSet PoolId}
    (ran : freezeRatification (ratifyFrozen rules) next base delegatedAtSnap = .ok frozen)
    (era : next.era = .conway) (tracked : next.govState = .authoritative (some gov)) :
    ∃ input record, ratifyFrozen rules input = .ok record ∧ input.gov = gov ∧
      input.epoch = next.epochState.epoch ∧
      frozen = { next with
        govState := .authoritative (some { gov with ratification := .recorded record }) } := by
  unfold freezeRatification at ran
  rw [if_pos era] at ran
  cases base with
  | none => cases ran
  | some base =>
      obtain ⟨found, read, ran⟩ := bind_ok ran
      obtain ⟨snaps, -, read⟩ := bind_ok read
      obtain ⟨cert, -, read⟩ := bind_ok read
      obtain ⟨held, full, read⟩ := bind_ok read
      have same := requireFull_ok full
      rw [tracked] at same
      cases same
      cases read
      obtain ⟨record, ratified, ran⟩ := bind_ok ran
      rw [tracked] at ran
      cases ran
      exact ⟨_, record, ratified, rfl, rfl, rfl⟩

theorem boundary_freezes {registrationOverride : Option (BTreeMap StakeCredential Unit)}
    {boundaryBaseStake : Option BoundaryBaseStake} {activeSlotsPerEpoch : UInt64}
    {accounting : EpochBoundaryAccounting} (era : ledger.era = .conway)
    (tracked : ledger.govState = .authoritative (some gov))
    (planned : boundaryPlan ledger newEpoch = .ok (some plan))
    (crossed : applyEpochBoundaryWithRegistrations (ratifyFrozen rules) ledger newEpoch
      registrationOverride boundaryBaseStake activeSlotsPerEpoch = .ok (next, accounting)) :
    ∃ gov' input record, next.era = .conway ∧ next.epochState.epoch = newEpoch ∧
      next.govState = .authoritative (some gov') ∧ gov'.ratification = .recorded record ∧
      ratifyFrozen rules input = .ok record ∧ input.epoch = newEpoch ∧
      input.gov.proposals = gov'.proposals ∧ input.gov.prevPparamAction = gov'.prevPparamAction ∧
      gov'.proposals = plan.proposals ∧
      gov'.prevPparamAction = match plan.prevPparamAction with
        | .set actionId => .enacted actionId
        | .unchanged => gov.prevPparamAction := by
  obtain ⟨snaps, -, ran⟩ := bind_ok crossed
  obtain ⟨cert, certRan, ran⟩ := bind_ok ran
  obtain ⟨held, govRan, ran⟩ := bind_ok ran
  obtain ⟨found, planRan, ran⟩ := bind_ok ran
  obtain ⟨pot, -, ran⟩ := bind_ok ran
  obtain ⟨allocation, -, ran⟩ := bind_ok ran
  obtain ⟨mark, -, ran⟩ := bind_ok ran
  obtain ⟨treasury, -, ran⟩ := bind_ok ran
  obtain ⟨frozen, frozenRan, ran⟩ := bind_ok ran
  have sameGov := requireFull_ok (orTerminal_ok govRan)
  rw [tracked] at sameGov
  cases sameGov
  have samePlan : found = some plan := by
    unfold boundaryPlan at planned
    rw [orTerminal_ok certRan, orTerminal_ok govRan] at planned
    exact Except.ok.inj ((orTerminal_ok planRan).symm.trans planned)
  subst samePlan
  cases ran
  obtain ⟨input, record, ratified, govRead, epochRead, rfl⟩ :=
    freezeRatification_records (orTerminal_ok frozenRan) era rfl
  refine ⟨_, input, record, era, rfl, rfl, rfl, ratified, epochRead, ?_, ?_, rfl, rfl⟩
  · rw [govRead]
  · rw [govRead]

end

/-! ## Runs -/

section
variable {Utxo : Type} {rules : RatificationRules} {before after : GovernanceHistory Utxo}

/-- What a run keeps of the record and the proposals it was taken over. -/
structure Held (history : GovernanceHistory Utxo) (gov : ConwayGovState)
    (record : RatificationRecord) : Prop where
  era : history.ledger.era = .conway
  tracked : history.ledger.govState = .authoritative (some gov)
  recorded : gov.ratification = .recorded record
  frozenAt : record.frozenAt = history.ledger.epochState.epoch
  sound : ∀ decision, record.outcome = .decided decision →
    DecisionSound gov.proposals gov.prevPparamAction decision
  root : ∀ id, gov.prevPparamAction = .enacted id →
    id ∈ history.used ∧ id ∉ proposalIds gov.proposals
  used : ∀ id ∈ proposalIds history.submitted, id ∈ history.used
  known : ∀ p ∈ gov.proposals, ∃ q ∈ history.submitted, q.withoutVotes = p.withoutVotes
  accounted : history.Accounted gov

theorem Held.distinct {history : GovernanceHistory Utxo} {gov : ConwayGovState}
    {record : RatificationRecord} (held : Held history gov record) :
    (proposalIds gov.proposals).Nodup := by
  have all := held.accounted.once.nodup_iff.mpr held.accounted.distinct
  exact all.of_append_left

theorem proposalIds_append (ps qs : List GovActionState) :
    proposalIds (ps ++ qs) = proposalIds ps ++ proposalIds qs :=
  List.map_append

theorem proposalIds_congr {ps qs : List GovActionState}
    (same : ps.map GovActionState.withoutVotes = qs.map GovActionState.withoutVotes) :
    proposalIds ps = proposalIds qs := by
  have ids := congrArg (List.map GovActionState.actionId) same
  rwa [List.map_map, List.map_map] at ids

theorem starts_held {gov : ConwayGovState} {input : FrozenRatificationInput}
    {record : RatificationRecord} (starts : before.Starts rules gov input record) :
    Held before gov record := by
  obtain ⟨frozenAt, sound⟩ := ratifyFrozen_sound starts.frozen
  refine ⟨starts.era, starts.tracked, starts.recorded, frozenAt.trans starts.epoch, ?_,
    starts.usedRoot, ?_, ?_, ?_⟩
  · rw [← starts.proposals, ← starts.root]
    exact sound
  · rw [starts.submitted]
    exact starts.usedIds
  · intro p member
    exact ⟨p, starts.submitted ▸ member, rfl⟩
  · constructor
    · rw [starts.departed, starts.submitted, List.map_nil, List.append_nil]
    · rw [starts.submitted]
      exact starts.distinct
    · intro entry member
      rw [starts.departed] at member
      cases member

theorem inEpoch_held {ledger : LedgerState Utxo} {new : List GovActionState}
    {gov gov' held' : ConwayGovState} {record : RatificationRecord}
    (changed : InEpoch before.ledger new ledger held' gov')
    (distinct : (proposalIds new).Nodup) (fresh : ∀ id ∈ proposalIds new, id ∉ before.used)
    (held : Held before gov record) :
    Held { before with
      ledger, submitted := before.submitted ++ new, used := before.used ++ proposalIds new }
      gov' record := by
  have same := changed.govBefore.symm.trans held.tracked
  cases same
  have ids : proposalIds gov'.proposals = proposalIds gov.proposals ++ proposalIds new := by
    rw [proposalIds_congr changed.proposals, proposalIds_append]
  refine ⟨changed.era.trans held.era, changed.govAfter, changed.ratification.trans held.recorded,
    held.frozenAt.trans changed.epoch.symm, ?_, ?_, ?_, ?_, ?_⟩
  · intro decision decided
    have sound := held.sound decision decided
    rw [changed.prevPparamAction]
    constructor
    · intro id member
      rw [ids]
      exact List.mem_append_left _ (sound.expired id member)
    · intro enacted won
      obtain ⟨p, member, named, ⟨update, policyHash, action⟩, lineage⟩ := sound.winner enacted won
      obtain ⟨q, listed, equal⟩ :=
        mem_of_withoutVotes_eq changed.proposals.symm (List.mem_append_left new member)
      obtain ⟨sameId, sameAction, -⟩ := withoutVotes_ids equal
      exact ⟨q, listed, sameId.trans named, ⟨update, policyHash, sameAction.trans action⟩, lineage⟩
  · intro id enacted
    rw [changed.prevPparamAction] at enacted
    obtain ⟨known, absent⟩ := held.root id enacted
    rw [ids]
    refine ⟨List.mem_append_left _ known, fun member => ?_⟩
    rcases List.mem_append.mp member with old | added
    · exact absent old
    · exact fresh id added known
  · intro id member
    rw [proposalIds_append] at member
    rcases List.mem_append.mp member with old | added
    · exact List.mem_append_left _ (held.used id old)
    · exact List.mem_append_right _ added
  · intro p member
    obtain ⟨q, listed, equal⟩ := mem_of_withoutVotes_eq changed.proposals member
    rcases List.mem_append.mp listed with old | added
    · obtain ⟨origin, submitted, origin_eq⟩ := held.known q old
      exact ⟨origin, List.mem_append_left _ submitted, origin_eq.trans equal⟩
    · exact ⟨q, List.mem_append_right _ added, equal⟩
  · constructor
    · dsimp only
      rw [ids, proposalIds_append, List.append_assoc]
      apply (List.perm_append_comm.append_left _).trans
      rw [← List.append_assoc]
      exact held.accounted.once.append_right _
    · dsimp only
      rw [proposalIds_append]
      apply held.accounted.distinct.append distinct
      exact fun id old added => fresh id added (held.used id old)
    · intro entry member
      obtain ⟨p, submitted, facts⟩ := held.accounted.deposits entry member
      exact ⟨p, List.mem_append_left _ submitted, facts⟩

theorem boundary_held {ledger : LedgerState Utxo} {newEpoch : EpochNo}
    {registrationOverride : Option (BTreeMap StakeCredential Unit)}
    {boundaryBaseStake : Option BoundaryBaseStake} {activeSlotsPerEpoch : UInt64}
    {accounting : EpochBoundaryAccounting} {plan : ConwayGovernanceEpochPlan}
    {gov : ConwayGovState} {record : RatificationRecord}
    (planned : boundaryPlan before.ledger newEpoch = .ok (some plan))
    (crossed : applyEpochBoundaryWithRegistrations (ratifyFrozen rules) before.ledger newEpoch
      registrationOverride boundaryBaseStake activeSlotsPerEpoch = .ok (ledger, accounting))
    (held : Held before gov record) :
    ∃ gov' record', Held { before with
      ledger, departed := before.departed ++ plan.removals.zip plan.depositReturns }
      gov' record' := by
  obtain ⟨decision, isRegistered, decided, applied⟩ :=
    boundaryPlan_ok held.era held.tracked held.recorded planned
  have sound := held.sound decision decided
  obtain ⟨gov', input, record', era, epoch, tracked, recorded, frozen, frozenEpoch, seen, seenRoot,
    carried, root⟩ := boundary_freezes held.era held.tracked planned crossed
  obtain ⟨frozenAt, sound'⟩ := ratifyFrozen_sound frozen
  have partitioned := plan_partitions sound.present applied
  obtain ⟨departedIds, deposits⟩ := plan_departed sound.present applied
  have rootDelta := applyDecision_root sound.present applied
  have kept : ∀ p ∈ plan.proposals, p ∈ gov.proposals := by
    intro p member
    rw [applyDecision_proposals sound.present applied] at member
    exact (List.mem_filter.mp member).1
  refine ⟨gov', record', era, tracked, recorded, frozenAt.trans (frozenEpoch.trans epoch.symm), ?_,
    ?_, held.used, ?_, ?_⟩
  · rw [← seen, ← seenRoot]
    exact sound'
  · intro id enactedRoot
    rw [carried]
    rw [root, rootDelta] at enactedRoot
    cases won : decision.enacted with
    | none =>
        rw [won] at enactedRoot
        obtain ⟨known, absent⟩ := held.root id enactedRoot
        refine ⟨known, fun member => absent ?_⟩
        obtain ⟨p, listed, rfl⟩ := List.mem_map.mp member
        exact List.mem_map_of_mem (kept p listed)
    | some enacted =>
        rw [won] at enactedRoot
        cases enactedRoot
        obtain ⟨p, inside, same, -⟩ := sound.winner enacted won
        obtain ⟨q, submitted, equal⟩ := held.known p inside
        refine ⟨?_, fun member => ?_⟩
        · rw [← same, ← (withoutVotes_ids equal).1]
          exact held.used q.actionId (List.mem_map_of_mem submitted)
        · obtain ⟨r, listed, named⟩ := List.mem_map.mp member
          exact (mem_plan_proposals sound.present applied (kept r listed)).mp listed
            (.enacted won named)
  · intro p member
    exact held.known p (kept p (carried ▸ member))
  · constructor
    · dsimp only
      rw [carried, List.map_append, departedIds]
      apply (List.perm_append_comm.append_left _).trans
      rw [← List.append_assoc]
      exact (partitioned.append_right _).trans held.accounted.once
    · exact held.accounted.distinct
    · intro entry member
      rcases List.mem_append.mp member with old | new
      · exact held.accounted.deposits entry old
      · obtain ⟨p, listed, named, returned, amount⟩ := deposits entry new
        obtain ⟨q, submitted, equal⟩ := held.known p listed
        obtain ⟨sameId, -, sameDeposit⟩ := withoutVotes_ids equal
        exact ⟨q, submitted, sameId.trans named, returned.trans sameId.symm,
          amount.trans (congrArg UInt64.toNat sameDeposit.symm)⟩

theorem step_held {action : GovernanceAction} (stepped : GovernanceStep rules before action after)
    (held : ∃ gov record, Held before gov record) : ∃ gov record, Held after gov record := by
  obtain ⟨gov, record, held⟩ := held
  cases stepped with
  | inEpoch changed distinct fresh => exact ⟨_, record, inEpoch_held changed distinct fresh held⟩
  | boundary _ planned crossed => exact boundary_held planned crossed held

def Kept (history : GovernanceHistory Utxo) : Prop := ∃ gov record, Held history gov record

theorem run_held {actions : List GovernanceAction} {gov : ConwayGovState}
    {input : FrozenRatificationInput} {record : RatificationRecord}
    (starts : before.Starts rules gov input record)
    (run : Run (GovernanceStep rules) before actions after) : Kept after := by
  have preserved : ∀ before action after, GovernanceStep rules before action after →
      Kept before → @Kept Utxo after := fun _ _ _ stepped kept => step_held stepped kept
  exact run.invariant preserved ⟨gov, record, starts_held starts⟩

theorem checkedAdd_one {epoch newEpoch : EpochNo} (follows : newEpoch.toNat = epoch.toNat + 1) :
    checkedAdd epoch 1 = some newEpoch := by
  have bound := newEpoch.toNat_lt
  have added : (epoch + 1).toNat = newEpoch.toNat := by
    rw [UInt64.toNat_add, UInt64.toNat_one]
    omega
  unfold checkedAdd
  rw [UInt64.toNat_one, ← follows, if_pos bound, UInt64.toNat_inj.mp added]

theorem routeDeposit_raises (isRegistered : StakeCredential → Bool) (p : GovActionState) :
    Raises AllowsRecord (routeDeposit isRegistered p) := by
  unfold routeDeposit
  split_ifs
  · exact .ok _
  · split
    · split_ifs <;> exact .ok _
    · exact .error id

/-- The record that a run holds fits the next boundary. -/
theorem held_raises {gov : ConwayGovState} {record : RatificationRecord} {newEpoch : EpochNo}
    (held : Held after gov record)
    (follows : newEpoch.toNat = after.ledger.epochState.epoch.toNat + 1) :
    Raises AllowsRecord (boundaryPlan after.ledger newEpoch) := by
  rw [boundaryPlan_eq held.era held.tracked held.recorded]
  refine Raises.bind (requireFull_raises _ _) fun cert => Raises.bind ?_ fun plan => .ok _
  have fits : checkedAdd record.frozenAt 1 = some newEpoch := by
    rw [held.frozenAt]
    exact checkedAdd_one follows
  unfold applyRatificationRecord
  rw [if_neg (not_not.mpr fits)]
  cases outcome : record.outcome with
  | unenactable reason => cases reason <;> exact .error id
  | decided decision =>
      dsimp only
      rw [applyDecision_eq (held.sound decision outcome).present]
      exact Raises.map (.mapM _ fun entry => routeDeposit_raises _ entry.1)

theorem crossed_planned {gov : ConwayGovState} {record : RatificationRecord} {newEpoch : EpochNo}
    (held : Held after gov record) {next : LedgerState Utxo}
    {registrationOverride : Option (BTreeMap StakeCredential Unit)}
    {boundaryBaseStake : Option BoundaryBaseStake} {activeSlotsPerEpoch : UInt64}
    {accounting : EpochBoundaryAccounting}
    (crossed : applyEpochBoundaryWithRegistrations (ratifyFrozen rules) after.ledger newEpoch
      registrationOverride boundaryBaseStake activeSlotsPerEpoch = .ok (next, accounting)) :
    ∃ plan, boundaryPlan after.ledger newEpoch = .ok (some plan) := by
  obtain ⟨snaps, -, ran⟩ := bind_ok crossed
  obtain ⟨cert, certRan, ran⟩ := bind_ok ran
  obtain ⟨read, govRan, ran⟩ := bind_ok ran
  obtain ⟨plan, planRan, -⟩ := bind_ok ran
  have planned : boundaryPlan after.ledger newEpoch = .ok plan := by
    unfold boundaryPlan
    rw [orTerminal_ok certRan, orTerminal_ok govRan]
    exact orTerminal_ok planRan
  have some := planned
  rw [boundaryPlan_eq held.era held.tracked held.recorded] at some
  obtain ⟨_, -, some⟩ := bind_ok some
  obtain ⟨found, -, some⟩ := bind_ok some
  cases some
  exact ⟨found, planned⟩

/-- Within an epoch only the proposals decide which of them leave. -/
theorem inEpoch_removals {gov gov' : ConwayGovState} {record : RatificationRecord}
    {other : LedgerState Utxo} {newEpoch : EpochNo} {plan plan' : ConwayGovernanceEpochPlan}
    (held : Held after gov record) (changed : InEpoch after.ledger [] other gov gov')
    (planned : boundaryPlan after.ledger newEpoch = .ok (some plan))
    (planned' : boundaryPlan other newEpoch = .ok (some plan')) :
    plan'.removals = plan.removals := by
  have held' := inEpoch_held changed List.nodup_nil (fun id member => by cases member) held
  obtain ⟨decision, _, decided, applied⟩ :=
    boundaryPlan_ok held.era held.tracked held.recorded planned
  obtain ⟨decision', _, decided', applied'⟩ :=
    boundaryPlan_ok held'.era held'.tracked held'.recorded planned'
  obtain rfl : decision = decision' :=
    RatificationOutcome.decided.inj (decided.symm.trans decided')
  rw [applyDecision_removals (held.sound decision decided).present applied,
    applyDecision_removals (held'.sound decision decided).present applied']
  apply removals_congr
  rw [changed.proposals, List.append_nil]

/-- The record frozen at a boundary is the one applied at the next, over the proposals submitted
meanwhile, whatever else has changed. -/
theorem frozen_governance_over_runs {start last : GovernanceHistory Utxo}
    {actions : List GovernanceAction} {gov : ConwayGovState} {input : FrozenRatificationInput}
    {record : RatificationRecord} (starts : start.Starts rules gov input record)
    (run : Run (GovernanceStep rules) start actions last) :
    ∃ gov record, last.ledger.govState = .authoritative (some gov) ∧
      gov.ratification = .recorded record ∧ last.Accounted gov ∧
      ∀ newEpoch : EpochNo, newEpoch.toNat = last.ledger.epochState.epoch.toNat + 1 →
        (∀ registrationOverride boundaryBaseStake activeSlotsPerEpoch reason,
          applyEpochBoundaryWithRegistrations (ratifyFrozen rules) last.ledger newEpoch
            registrationOverride boundaryBaseStake activeSlotsPerEpoch = .error (.terminal reason) →
          ¬ reason.DeniesRecord) ∧
        (∀ registrationOverride boundaryBaseStake activeSlotsPerEpoch next accounting,
          applyEpochBoundaryWithRegistrations (ratifyFrozen rules) last.ledger newEpoch
            registrationOverride boundaryBaseStake activeSlotsPerEpoch = .ok (next, accounting) →
          ∃ plan decision gov', boundaryPlan last.ledger newEpoch = .ok (some plan) ∧
            record.outcome = .decided decision ∧ RemovesExactly gov plan decision ∧
            next.govState = .authoritative (some gov') ∧ gov'.proposals = plan.proposals) ∧
        ∀ other gov' plan plan', InEpoch last.ledger [] other gov gov' →
          boundaryPlan last.ledger newEpoch = .ok (some plan) →
          boundaryPlan other newEpoch = .ok (some plan') → plan'.removals = plan.removals := by
  obtain ⟨gov, record, held⟩ := run_held starts run
  refine ⟨gov, record, held.tracked, held.recorded, held.accounted, fun newEpoch follows => ?_⟩
  refine ⟨?_, ?_, ?_⟩
  · intro registrationOverride boundaryBaseStake activeSlotsPerEpoch reason failed
    exact boundary_raises rules (held_raises held follows) _ _ _ _ failed reason rfl
  · intro registrationOverride boundaryBaseStake activeSlotsPerEpoch next accounting crossed
    obtain ⟨plan, planned⟩ := crossed_planned held crossed
    obtain ⟨decision, _, decided, applied⟩ :=
      boundaryPlan_ok held.era held.tracked held.recorded planned
    obtain ⟨gov', _, _, _, _, tracked, _, _, _, _, _, carried, _⟩ :=
      boundary_freezes held.era held.tracked planned crossed
    have removes := removesExactly held.distinct (held.sound decision decided)
      (fun id enacted => (held.root id enacted).2) applied
    exact ⟨plan, decision, gov', planned, decided, removes, tracked, carried⟩
  · intro other gov' plan plan' changed planned planned'
    exact inEpoch_removals held changed planned planned'

end

/-! ## A run -/

def sampleActionId (index : UInt32) : GovActionId := ⟨Vector.replicate 32 9, index⟩

def sampleProposal (index : UInt32) (govAction : GovAction) (expiresAfter : EpochNo) :
    GovActionState where
  actionId := sampleActionId index
  committeeVotes := []
  drepVotes := []
  spoVotes := []
  deposit := 1000
  returnAddr := 0xe0 :: List.replicate 28 7
  govAction := govAction
  proposedIn := 500
  expiresAfter := expiresAfter

def sampleExpired : GovActionState := sampleProposal 0 .infoAction 506

/-- Submitted after the freeze, on the proposal that has expired. -/
def sampleChild : GovActionState := sampleProposal 1 (.noConfidence (some (sampleActionId 0))) 513

/-- An info action is not put to the vote. -/
def sampleRules : RatificationRules where
  checkRatification _ _ _ _ := false
  enactableUpdateWithinBounds update := update.length ≤ 1024
  decodeEnactableParamUpdate _ := none

def sampleRecord : RatificationRecord where
  frozenAt := 507
  source := .frozen
  frozenProposals := (∅ : BTreeSet GovActionId).insert (sampleActionId 0)
  drepDistribution := ∅
  poolDistribution := ∅
  outcome := .decided ⟨none, (∅ : BTreeSet GovActionId).insert (sampleActionId 0)⟩

def sampleGov (proposals : List GovActionState) : ConwayGovState :=
  { emptyGov with proposals, ratification := .recorded sampleRecord }

def sampleLedger (proposals : List GovActionState) : LedgerState Unit where
  utxoState := ()
  epochState :=
    { epoch := 507
      slot := 100
      snapshots := .authoritative ⟨.new, .new, .new⟩
      reserves := 0
      treasury := 50
      blockProduction := ∅
      epochFees := 0
      donationPot := 0 }
  protocolParams := .default
  era := .conway
  trackUtxo := true
  certState := .authoritative .new
  maxLovelaceSupply := 10000
  govState := .authoritative (some (sampleGov proposals))
  conwayDepositParams := none

def sampleInput : FrozenRatificationInput where
  mark := .new
  delegatedAtSnap := ∅
  utxoStake := ∅
  delegation := CertState.new.delegation
  gov := sampleGov [sampleExpired]
  pparams := .default
  epoch := 507

def sampleStart : GovernanceHistory Unit :=
  ⟨sampleLedger [sampleExpired], [sampleExpired], [sampleActionId 0], []⟩

def sampleGrown : GovernanceHistory Unit :=
  ⟨sampleLedger [sampleExpired, sampleChild], [sampleExpired, sampleChild],
    [sampleActionId 0, sampleActionId 1], []⟩

theorem sampleInput_frozen : ratifyFrozen sampleRules sampleInput = .ok sampleRecord := by
  decide +kernel

theorem sampleStart_starts : sampleStart.Starts sampleRules (sampleGov [sampleExpired]) sampleInput
    sampleRecord where
  era := rfl
  tracked := rfl
  recorded := rfl
  frozen := sampleInput_frozen
  epoch := rfl
  proposals := rfl
  root := rfl
  distinct := List.nodup_singleton _
  submitted := rfl
  departed := rfl
  usedIds _ member := member
  usedRoot _ enacted := by cases enacted

theorem sampleStart_grows : GovernanceStep sampleRules sampleStart .inEpoch sampleGrown := by
  have changed : InEpoch sampleStart.ledger [sampleChild] sampleGrown.ledger
      (sampleGov [sampleExpired]) (sampleGov [sampleExpired, sampleChild]) :=
    ⟨rfl, rfl, rfl, rfl, rfl, rfl, rfl⟩
  exact .inEpoch changed (List.nodup_singleton _) (by decide)

def samplePlan : ConwayGovernanceEpochPlan where
  proposals := []
  removals := [⟨sampleActionId 0, .expired⟩, ⟨sampleActionId 1, .expired⟩]
  depositReturns := [.toTreasury (sampleActionId 0) 1000, .toTreasury (sampleActionId 1) 1000]
  pparams := .unchanged
  prevPparamAction := .unchanged

theorem sampleClosed : closeOverDescendants [sampleExpired, sampleChild]
    ((∅ : BTreeSet GovActionId).insert (sampleActionId 0)) =
      ((∅ : BTreeSet GovActionId).insert (sampleActionId 0)).insert (sampleActionId 1) := by
  rw [closeOverDescendants, dif_pos (by decide +kernel), closeOverDescendants,
    dif_neg (by decide +kernel)]
  decide +kernel

/-- The boundary removes the expired proposal and its late child. -/
theorem sampleGrown_planned : governancePlan .conway
    (some (sampleGov [sampleExpired, sampleChild])) .new 508 = .ok (some samplePlan) := by
  unfold governancePlan
  rw [if_pos rfl]
  dsimp only [sampleGov, sampleRecord, applyRatificationRecord, applyDecision]
  have sorted : [sampleExpired, sampleChild].mergeSort
      (fun a b => (compare a.actionId b.actionId).isLE) = [sampleExpired, sampleChild] :=
    List.mergeSort_of_pairwise (by decide +kernel)
  rw [sampleClosed, sorted]
  decide +kernel

theorem sampleGrown_crosses : (applyEpochBoundaryWithRegistrations (ratifyFrozen sampleRules)
    sampleGrown.ledger 508 none (some ⟨100, ∅⟩) 10).toOption.isSome = true := by
  unfold applyEpochBoundaryWithRegistrations
  show (Except.toOption (orTerminal (governancePlan .conway
    (some (sampleGov [sampleExpired, sampleChild])) .new 508) >>= fun _ => _)).isSome = true
  rw [sampleGrown_planned]
  decide +kernel

/-- Both proposals of the sample leave at its boundary, with their deposits. -/
theorem frozen_governance_of_a_late_child : ∃ last : GovernanceHistory Unit,
    Run (GovernanceStep sampleRules) sampleStart [.inEpoch, .boundary] last ∧
      last.departed = samplePlan.removals.zip samplePlan.depositReturns ∧
      ∃ gov, last.ledger.govState = .authoritative (some gov) ∧ last.Accounted gov := by
  obtain ⟨⟨next, accounting⟩, ran⟩ := Option.isSome_iff_exists.mp sampleGrown_crosses
  have crossed : applyEpochBoundaryWithRegistrations (ratifyFrozen sampleRules)
      sampleGrown.ledger 508 none (some ⟨100, ∅⟩) 10 = .ok (next, accounting) := by
    cases result : applyEpochBoundaryWithRegistrations (ratifyFrozen sampleRules)
        sampleGrown.ledger 508 none (some ⟨100, ∅⟩) 10 with
    | error failure =>
        rw [result] at ran
        cases ran
    | ok value =>
        rw [result] at ran
        cases ran
        rfl
  have planned : boundaryPlan sampleGrown.ledger 508 = .ok (some samplePlan) := sampleGrown_planned
  have run := Run.cons sampleStart_grows (.cons (.boundary rfl planned crossed) (.nil _))
  obtain ⟨gov, _, tracked, _, accounted, _⟩ := frozen_governance_over_runs sampleStart_starts run
  exact ⟨_, run, rfl, gov, tracked, accounted⟩

end Ade.Proof.Ledger
