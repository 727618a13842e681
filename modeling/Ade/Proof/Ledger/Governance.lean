import Ade.Library.Except
import Ade.Ledger.GovernanceRun

namespace Ade.Proof.Ledger
open Std (ExtTreeMap ExtTreeSet)
open Library Ade.Ledger

variable {proposals : List GovActionState} {removed : BTreeSet GovActionId}

/-! ## Descendants -/

theorem mem_insert_set {set : BTreeSet GovActionId} {id other : GovActionId} :
    other ∈ set.insert id ↔ id = other ∨ other ∈ set := by
  rw [ExtTreeSet.mem_insert, Std.LawfulEqOrd.compare_eq_iff_eq]

theorem any_parent {p : GovActionState} {set : BTreeSet GovActionId} :
    (govActionParent p.govAction).any set.contains = true ↔
      ∃ parent, govActionParent p.govAction = some parent ∧ parent ∈ set := by
  rw [Option.any_eq_true]
  simp only [ExtTreeSet.contains_iff_mem]

/-- Nothing is taken in that does not descend from what was there. -/
theorem foldl_closeProposal_descends {seen : List GovActionState} (listed : ∀ p ∈ seen, p ∈ proposals)
    {pass : BTreeSet GovActionId × Bool}
    (held : ∀ id ∈ pass.1, ∃ root ∈ removed, Descends proposals id root) :
    ∀ id ∈ (seen.foldl closeProposal pass).1, ∃ root ∈ removed, Descends proposals id root := by
  induction seen generalizing pass with
  | nil => exact held
  | cons p seen ih =>
      apply ih fun other member => listed other (List.mem_cons_of_mem _ member)
      intro id member
      unfold closeProposal at member
      split_ifs at member with taken chained
      · exact held id member
      · rcases Iff.mp mem_insert_set member with rfl | before
        · obtain ⟨parent, chains, inside⟩ := Iff.mp any_parent chained
          obtain ⟨root, rooted, descends⟩ := held parent inside
          have onto : ChainsOnto proposals p.actionId parent :=
            ⟨p, listed p (List.mem_cons_self ..), rfl, chains⟩
          exact ⟨root, rooted, .head onto descends⟩
        · exact held id before
      · exact held id member

/-- A quiet pass has nothing to add. -/
theorem foldl_closeProposal_quiet {seen : List GovActionState}
    {pass : BTreeSet GovActionId × Bool} (quiet : (seen.foldl closeProposal pass).2 = false) :
    pass.2 = false ∧ (seen.foldl closeProposal pass).1 = pass.1 ∧
      ∀ p ∈ seen, ∀ parent, govActionParent p.govAction = some parent → parent ∈ pass.1 →
        p.actionId ∈ pass.1 := by
  induction seen generalizing pass with
  | nil => exact ⟨quiet, rfl, by simp⟩
  | cons p seen ih =>
      obtain ⟨still, same, closed⟩ := ih quiet
      have unchanged : closeProposal pass p = pass ∧ (p.actionId ∈ pass.1 ∨
          ∀ parent, govActionParent p.govAction = some parent → parent ∉ pass.1) := by
        unfold closeProposal at still ⊢
        split_ifs at still ⊢ with taken chained
        · exact ⟨rfl, .inl (ExtTreeSet.contains_iff_mem.mp taken)⟩
        · refine ⟨rfl, .inr fun parent chains inside => chained ?_⟩
          exact Iff.mpr any_parent ⟨parent, chains, inside⟩
      rw [unchanged.1] at still closed
      refine ⟨still, ?_, ?_⟩
      · rw [List.foldl_cons, same, unchanged.1]
      · intro other member parent chains inside
        rcases List.mem_cons.mp member with rfl | later
        · exact unchanged.2.resolve_right fun none => none parent chains inside
        · exact closed other later parent chains inside

theorem mem_closeOverDescendants {id : GovActionId} :
    id ∈ closeOverDescendants proposals removed ↔ ∃ root ∈ removed, Descends proposals id root := by
  induction removed using closeOverDescendants.induct proposals with
  | case1 removed added ih =>
      rw [closeOverDescendants, dif_pos added, ih]
      constructor
      · rintro ⟨root, inside, descends⟩
        obtain ⟨origin, rooted, chain⟩ := foldl_closeProposal_descends (fun p member => member)
          (fun id member => ⟨id, member, .refl⟩) root inside
        exact ⟨origin, rooted, descends.trans chain⟩
      · rintro ⟨root, inside, descends⟩
        exact ⟨root, foldl_closeProposal_subset proposals (removed, false) root inside, descends⟩
  | case2 removed quiet =>
      obtain ⟨-, same, closed⟩ := foldl_closeProposal_quiet (Bool.eq_false_of_not_eq_true quiet)
      rw [closeOverDescendants, dif_neg quiet, closePass, same]
      constructor
      · exact fun member => ⟨id, member, .refl⟩
      · rintro ⟨root, inside, descends⟩
        -- Along the chain, from the root down, each id is in the closed set.
        induction descends using Relation.ReflTransGen.head_induction_on with
        | refl => exact inside
        | head chains _ ih =>
            obtain ⟨p, member, rfl, parent⟩ := chains
            exact closed p member _ parent ih

/-! ## What a decision removes -/

theorem isSibling_iff {enacted : EnactedParameterChange} {expired : BTreeSet GovActionId}
    {p : GovActionState} :
    isSibling enacted expired p = true ↔ p.actionId ∉ expired ∧ Competes enacted p := by
  unfold isSibling Competes
  by_cases same : p.actionId = enacted.actionId
  · simp [same]
  · by_cases gone : p.actionId ∈ expired
    · simp [same, gone]
    · cases action : p.govAction <;> simp [same, gone]

theorem mem_filter_set {set : BTreeSet GovActionId} {keep : GovActionId → Bool} {id : GovActionId} :
    id ∈ set.filter keep ↔ id ∈ set ∧ keep id = true := by
  rw [ExtTreeSet.mem_filter]
  constructor
  · rintro ⟨inside, kept⟩
    rw [ExtTreeSet.get_eq] at kept
    exact ⟨inside, kept⟩
  · rintro ⟨inside, kept⟩
    exact ⟨inside, by rwa [ExtTreeSet.get_eq]⟩

theorem mem_prunedBy {enacted : EnactedParameterChange} {expired : BTreeSet GovActionId}
    {id : GovActionId} :
    id ∈ prunedBy enacted proposals expired ↔ id ∉ expired ∧ ((∃ root ∈ expired,
      Descends proposals id root) ∨ ∃ p ∈ proposals, p.actionId ∉ expired ∧ Competes enacted p ∧
        Descends proposals id p.actionId) := by
  unfold prunedBy
  dsimp only
  rw [mem_filter_set, mem_closeOverDescendants, and_comm]
  apply and_congr
  · simp
  · constructor
    · rintro ⟨root, inside, descends⟩
      rw [ExtTreeSet.mem_insertMany_list, List.contains_iff_mem] at inside
      rcases inside with inside | listed
      · exact .inl ⟨root, inside, descends⟩
      · obtain ⟨p, member, rfl⟩ := List.mem_map.mp listed
        obtain ⟨member, sibling⟩ := List.mem_filter.mp member
        obtain ⟨stays, competes⟩ := Iff.mp isSibling_iff sibling
        exact .inr ⟨p, member, stays, competes, descends⟩
    · rintro (⟨root, inside, descends⟩ | ⟨p, member, stays, competes, descends⟩)
      · exact ⟨root, ExtTreeSet.mem_insertMany_list.mpr (.inl inside), descends⟩
      · refine ⟨p.actionId, ExtTreeSet.mem_insertMany_list.mpr (.inr ?_), descends⟩
        rw [List.contains_iff_mem]
        exact List.mem_map_of_mem (List.mem_filter.mpr ⟨member, Iff.mpr isSibling_iff ⟨stays, competes⟩⟩)

/-- The three sets that the code removes by. -/
def causeOf (decision : RatificationDecision) (proposals : List GovActionState)
    (p : GovActionState) : Option RemovalCause :=
  let expired := closeOverDescendants proposals decision.expired
  removalCause (decision.enacted.map EnactedParameterChange.actionId) expired
    (decision.enacted.elim ∅ fun enacted => prunedBy enacted proposals expired) p

theorem causeOf_isSome {decision : RatificationDecision} {p : GovActionState} :
    (causeOf decision proposals p).isSome ↔ Leaves decision proposals p.actionId := by
  have expiredIff : p.actionId ∈ closeOverDescendants proposals decision.expired ↔
      ∃ root ∈ decision.expired, Descends proposals p.actionId root := mem_closeOverDescendants
  unfold causeOf removalCause
  dsimp only
  constructor
  · intro removed
    split_ifs at removed with expired won pruned
    · obtain ⟨root, listed, descends⟩ := expiredIff.mp (ExtTreeSet.contains_iff_mem.mp expired)
      exact .expired listed descends
    · obtain ⟨enacted, same, named⟩ := Option.map_eq_some_iff.mp won
      exact .enacted same named.symm
    · cases chosen : decision.enacted with
      | none => simp [chosen] at pruned
      | some enacted =>
          rw [chosen, Option.elim_some, ExtTreeSet.contains_iff_mem, mem_prunedBy] at pruned
          obtain ⟨stays, ⟨root, inside, descends⟩ | ⟨sibling, member, -, competes, descends⟩⟩ :=
            pruned
          · obtain ⟨origin, listed, chain⟩ := Iff.mp mem_closeOverDescendants inside
            exact .expired listed (descends.trans chain)
          · exact .pruned chosen member competes descends
    · cases removed
  · intro leaves
    split_ifs with expired won pruned
    · rfl
    · rfl
    · rfl
    · exfalso
      rw [ExtTreeSet.contains_iff_mem] at expired
      cases leaves with
      | expired listed descends => exact expired (expiredIff.mpr ⟨_, listed, descends⟩)
      | enacted chosen same => exact won (by rw [chosen, Option.map_some, same])
      | @pruned enacted chosen sibling member competes descends =>
          rw [chosen, Option.elim_some, ExtTreeSet.contains_iff_mem, mem_prunedBy] at pruned
          refine pruned ⟨expired, .inr ⟨sibling, member, fun gone => expired ?_, competes, descends⟩⟩
          obtain ⟨root, listed, chain⟩ := Iff.mp mem_closeOverDescendants gone
          exact expiredIff.mpr ⟨root, listed, descends.trans chain⟩

/-! ## The plan -/

section
variable {decision : RatificationDecision} {isRegistered : StakeCredential → Bool}
  {plan : ConwayGovernanceEpochPlan}

def removedEntries (decision : RatificationDecision) (proposals : List GovActionState) :
    List (GovActionState × RemovalCause) :=
  (proposals.mergeSort fun a b => (compare a.actionId b.actionId).isLE).filterMap fun p =>
    (causeOf decision proposals p).map fun cause => (p, cause)

theorem mem_removedEntries {entry : GovActionState × RemovalCause} :
    entry ∈ removedEntries decision proposals ↔
      entry.1 ∈ proposals ∧ causeOf decision proposals entry.1 = some entry.2 := by
  unfold removedEntries
  rw [List.mem_filterMap]
  constructor
  · rintro ⟨p, member, mapped⟩
    obtain ⟨cause, found, rfl⟩ := Option.map_eq_some_iff.mp mapped
    exact ⟨List.mem_mergeSort.mp member, found⟩
  · rintro ⟨member, found⟩
    exact ⟨entry.1, List.mem_mergeSort.mpr member, by rw [found]; rfl⟩

/-- Every decided id is among the proposals. -/
def DecidedPresent (decision : RatificationDecision) (proposals : List GovActionState) : Prop :=
  (∀ id ∈ decision.expired, id ∈ proposalIds proposals) ∧
    ∀ enacted, decision.enacted = some enacted → enacted.actionId ∈ proposalIds proposals

theorem requirePresent_ok {id : GovActionId} (present : id ∈ proposalIds proposals) :
    requirePresent proposals id = .ok () := by
  obtain ⟨p, member, rfl⟩ := List.mem_map.mp present
  unfold requirePresent
  exact if_pos (List.any_eq_true.mpr ⟨p, member, decide_eq_true rfl⟩)

/-- A decision whose ids are present is applied, up to the deposits that have nowhere to go. -/
theorem applyDecision_eq (present : DecidedPresent decision proposals) :
    applyDecision decision proposals isRegistered =
      ((removedEntries decision proposals).mapM fun entry => routeDeposit isRegistered entry.1).map
        fun depositReturns =>
          { proposals := proposals.filter fun p =>
              ¬ (removedEntries decision proposals).any fun entry => entry.1.actionId = p.actionId
            removals := (removedEntries decision proposals).map fun entry =>
              ⟨entry.1.actionId, entry.2⟩
            depositReturns
            pparams := decision.enacted.elim .unchanged fun enacted => .set enacted.pparams
            prevPparamAction := decision.enacted.elim .unchanged fun enacted =>
              .set enacted.actionId } := by
  have checked : (decision.expired.toList ++
      (decision.enacted.map EnactedParameterChange.actionId).toList).forM
        (requirePresent proposals) = .ok () := by
    apply forM_ok
    intro id member
    apply requirePresent_ok
    rcases List.mem_append.mp member with expired | won
    · exact present.1 id (ExtTreeSet.mem_toList.mp expired)
    · rw [Option.mem_toList, Option.map_eq_some_iff] at won
      obtain ⟨enacted, chosen, rfl⟩ := won
      exact present.2 enacted chosen
  unfold applyDecision
  dsimp only
  rw [checked]
  show (do
    let depositReturns ← (removedEntries decision proposals).mapM fun entry =>
      routeDeposit isRegistered entry.1
    return _ : Except GovernanceTerminal ConwayGovernanceEpochPlan) = _
  cases (removedEntries decision proposals).mapM fun entry => routeDeposit isRegistered entry.1 with
  | error failure => rfl
  | ok returns => rfl

theorem any_removedEntries {p : GovActionState} (member : p ∈ proposals) :
    (removedEntries decision proposals).any (fun entry => entry.1.actionId = p.actionId) = true ↔
      Leaves decision proposals p.actionId := by
  rw [List.any_eq_true]
  constructor
  · rintro ⟨entry, listed, same⟩
    obtain ⟨-, found⟩ := Iff.mp mem_removedEntries listed
    rw [← of_decide_eq_true same]
    exact Iff.mp causeOf_isSome (Option.isSome_of_eq_some found)
  · intro leaves
    obtain ⟨cause, found⟩ := Option.isSome_iff_exists.mp (Iff.mpr causeOf_isSome leaves)
    exact ⟨(p, cause), Iff.mpr mem_removedEntries ⟨member, found⟩, decide_eq_true rfl⟩

theorem applyDecision_proposals (present : DecidedPresent decision proposals)
    (ran : applyDecision decision proposals isRegistered = .ok plan) :
    plan.proposals = proposals.filter fun p =>
      ¬ (removedEntries decision proposals).any fun entry => entry.1.actionId = p.actionId := by
  rw [applyDecision_eq present] at ran
  obtain ⟨returns, -, rfl⟩ := map_ok ran
  rfl

theorem applyDecision_removals (present : DecidedPresent decision proposals)
    (ran : applyDecision decision proposals isRegistered = .ok plan) :
    plan.removals = (removedEntries decision proposals).map fun entry =>
      ⟨entry.1.actionId, entry.2⟩ := by
  rw [applyDecision_eq present] at ran
  obtain ⟨returns, -, rfl⟩ := map_ok ran
  rfl

theorem applyDecision_root (present : DecidedPresent decision proposals)
    (ran : applyDecision decision proposals isRegistered = .ok plan) :
    plan.prevPparamAction =
      decision.enacted.elim .unchanged fun enacted => .set enacted.actionId := by
  rw [applyDecision_eq present] at ran
  obtain ⟨returns, -, rfl⟩ := map_ok ran
  rfl

theorem applyDecision_returns (present : DecidedPresent decision proposals)
    (ran : applyDecision decision proposals isRegistered = .ok plan) :
    List.Forall₂ (fun entry returned => routeDeposit isRegistered entry.1 = .ok returned)
      (removedEntries decision proposals) plan.depositReturns := by
  rw [applyDecision_eq present] at ran
  obtain ⟨returns, routed, rfl⟩ := map_ok ran
  exact forall₂_of_mapM_ok routed

theorem routeDeposit_ok {p : GovActionState} {returned : DepositReturn}
    (routed : routeDeposit isRegistered p = .ok returned) :
    returned.actionId = p.actionId ∧ returned.amount = p.deposit.toNat := by
  unfold routeDeposit at routed
  split_ifs at routed with free
  · cases routed
    rw [free]
    exact ⟨rfl, rfl⟩
  · split at routed
    · split_ifs at routed
      · cases routed
        exact ⟨rfl, rfl⟩
      · cases routed
        exact ⟨rfl, rfl⟩
    · cases routed

theorem mem_plan_proposals (present : DecidedPresent decision proposals)
    (ran : applyDecision decision proposals isRegistered = .ok plan) {p : GovActionState}
    (member : p ∈ proposals) :
    p ∈ plan.proposals ↔ ¬ Leaves decision proposals p.actionId := by
  rw [applyDecision_proposals present ran, List.mem_filter, ← any_removedEntries member]
  simp [member]

theorem mem_plan_removals (present : DecidedPresent decision proposals)
    (ran : applyDecision decision proposals isRegistered = .ok plan) {id : GovActionId} :
    id ∈ plan.removals.map RemovedProposal.actionId ↔
      id ∈ proposalIds proposals ∧ Leaves decision proposals id := by
  rw [applyDecision_removals present ran, List.map_map, List.mem_map]
  constructor
  · rintro ⟨entry, listed, rfl⟩
    obtain ⟨member, found⟩ := Iff.mp mem_removedEntries listed
    exact ⟨List.mem_map_of_mem member, Iff.mp causeOf_isSome (Option.isSome_of_eq_some found)⟩
  · rintro ⟨member, leaves⟩
    obtain ⟨p, listed, rfl⟩ := List.mem_map.mp member
    obtain ⟨cause, found⟩ := Option.isSome_iff_exists.mp (Iff.mpr causeOf_isSome leaves)
    exact ⟨(p, cause), Iff.mpr mem_removedEntries ⟨listed, found⟩, rfl⟩

theorem removedEntries_ids :
    (removedEntries decision proposals).map (fun entry => entry.1.actionId) =
      proposalIds ((proposals.mergeSort fun a b => (compare a.actionId b.actionId).isLE).filter
        fun p => (causeOf decision proposals p).isSome) := by
  unfold removedEntries proposalIds
  generalize proposals.mergeSort (fun a b => (compare a.actionId b.actionId).isLE) = sorted
  induction sorted with
  | nil => rfl
  | cons p sorted ih =>
      cases found : causeOf decision proposals p with
      | none => simpa [found] using ih
      | some cause => simpa [found] using ih

/-- Every proposal is carried or removed, not both. -/
theorem plan_partitions (present : DecidedPresent decision proposals)
    (ran : applyDecision decision proposals isRegistered = .ok plan) :
    (proposalIds plan.proposals ++ plan.removals.map RemovedProposal.actionId).Perm
      (proposalIds proposals) := by
  have carried : plan.proposals =
      proposals.filter fun p => ! (causeOf decision proposals p).isSome := by
    rw [applyDecision_proposals present ran]
    apply List.filter_congr
    intro p member
    have same : (removedEntries decision proposals).any (fun entry => entry.1.actionId = p.actionId) =
        true ↔ (causeOf decision proposals p).isSome :=
      (any_removedEntries member).trans (Iff.symm causeOf_isSome)
    rw [Bool.eq_iff_iff]
    simpa using not_congr same
  have removed : (plan.removals.map RemovedProposal.actionId).Perm
      (proposalIds (proposals.filter fun p => (causeOf decision proposals p).isSome)) := by
    rw [applyDecision_removals present ran, List.map_map]
    show ((removedEntries decision proposals).map fun entry => entry.1.actionId).Perm _
    rw [removedEntries_ids]
    exact ((List.mergeSort_perm proposals _).filter _).map _
  rw [carried]
  apply (removed.append_left _).trans
  unfold proposalIds
  rw [← List.map_append]
  exact (List.perm_append_comm.trans (List.filter_append_perm _ proposals)).map _

/-- What leaves, leaves with its full deposit. -/
theorem plan_returns (present : DecidedPresent decision proposals)
    (ran : applyDecision decision proposals isRegistered = .ok plan) :
    List.Forall₂ (fun removal returned => ∃ p ∈ proposals, p.actionId = removal.actionId ∧
      returned.actionId = p.actionId ∧ returned.amount = p.deposit.toNat)
        plan.removals plan.depositReturns := by
  rw [applyDecision_removals present ran, List.forall₂_map_left_iff]
  have routed := applyDecision_returns present ran
  have listed : ∀ entry ∈ removedEntries decision proposals, entry.1 ∈ proposals :=
    fun entry member => (Iff.mp mem_removedEntries member).1
  generalize removedEntries decision proposals = entries at routed listed ⊢
  generalize plan.depositReturns = returns at routed ⊢
  induction routed with
  | nil => exact .nil
  | @cons entry _ _ _ route _ ih =>
      obtain ⟨named, paid⟩ := routeDeposit_ok route
      refine .cons ⟨entry.1, listed entry (List.mem_cons_self ..), rfl, named, paid⟩ ?_
      exact ih fun other member => listed other (List.mem_cons_of_mem _ member)

theorem plan_departed (present : DecidedPresent decision proposals)
    (ran : applyDecision decision proposals isRegistered = .ok plan) :
    ((plan.removals.zip plan.depositReturns).map fun entry => entry.1.actionId) =
        plan.removals.map RemovedProposal.actionId ∧
      ∀ entry ∈ plan.removals.zip plan.depositReturns, ∃ p ∈ proposals,
        p.actionId = entry.1.actionId ∧ entry.2.actionId = p.actionId ∧
          entry.2.amount = p.deposit.toNat := by
  have returned := plan_returns present ran
  refine ⟨?_, fun entry member => List.forall₂_zip returned member⟩
  conv_rhs => rw [← List.map_fst_zip returned.length_eq.le, List.map_map]
  rfl

end

/-! ## Votes do not matter -/

section
variable {decision : RatificationDecision} {ps qs : List GovActionState}

theorem withoutVotes_ids {p q : GovActionState} (same : p.withoutVotes = q.withoutVotes) :
    p.actionId = q.actionId ∧ p.govAction = q.govAction ∧ p.deposit = q.deposit := by
  have ids : p.withoutVotes.actionId = q.withoutVotes.actionId := by rw [same]
  have actions : p.withoutVotes.govAction = q.withoutVotes.govAction := by rw [same]
  have deposits : p.withoutVotes.deposit = q.withoutVotes.deposit := by rw [same]
  exact ⟨ids, actions, deposits⟩

theorem mem_of_withoutVotes_eq
    (same : ps.map GovActionState.withoutVotes = qs.map GovActionState.withoutVotes)
    {p : GovActionState} (member : p ∈ ps) : ∃ q ∈ qs, q.withoutVotes = p.withoutVotes := by
  have listed : p.withoutVotes ∈ qs.map GovActionState.withoutVotes :=
    same ▸ List.mem_map_of_mem member
  obtain ⟨q, member, equal⟩ := List.mem_map.mp listed
  exact ⟨q, member, equal⟩

theorem chainsOnto_of_withoutVotes_eq
    (same : ps.map GovActionState.withoutVotes = qs.map GovActionState.withoutVotes)
    {child parent : GovActionId} (chains : ChainsOnto ps child parent) :
    ChainsOnto qs child parent := by
  obtain ⟨p, member, named, up⟩ := chains
  obtain ⟨q, listed, equal⟩ := mem_of_withoutVotes_eq same member
  obtain ⟨ids, actions, -⟩ := withoutVotes_ids equal
  exact ⟨q, listed, ids.trans named, by rw [actions, up]⟩

theorem descends_congr
    (same : ps.map GovActionState.withoutVotes = qs.map GovActionState.withoutVotes) :
    Descends ps = Descends qs := by
  have chains : ChainsOnto ps = ChainsOnto qs := by
    funext child parent
    exact propext ⟨chainsOnto_of_withoutVotes_eq same, chainsOnto_of_withoutVotes_eq same.symm⟩
  unfold Descends
  rw [chains]

theorem closeOverDescendants_congr
    (same : ps.map GovActionState.withoutVotes = qs.map GovActionState.withoutVotes)
    (removed : BTreeSet GovActionId) :
    closeOverDescendants ps removed = closeOverDescendants qs removed := by
  apply ExtTreeSet.ext_mem
  intro id
  rw [mem_closeOverDescendants, mem_closeOverDescendants, descends_congr same]

theorem prunedBy_subset_of_withoutVotes_eq
    (same : ps.map GovActionState.withoutVotes = qs.map GovActionState.withoutVotes)
    {enacted : EnactedParameterChange} {expired : BTreeSet GovActionId} {id : GovActionId}
    (pruned : id ∈ prunedBy enacted ps expired) : id ∈ prunedBy enacted qs expired := by
  rw [mem_prunedBy] at pruned ⊢
  rw [← descends_congr same]
  refine ⟨pruned.1, pruned.2.imp_right ?_⟩
  rintro ⟨p, member, stays, ⟨other, update, policyHash, action⟩, descends⟩
  obtain ⟨q, listed, equal⟩ := mem_of_withoutVotes_eq same member
  obtain ⟨ids, actions, -⟩ := withoutVotes_ids equal
  rw [← ids] at stays other descends
  exact ⟨q, listed, stays, ⟨other, update, policyHash, actions.trans action⟩, descends⟩

theorem causeOf_congr
    (same : ps.map GovActionState.withoutVotes = qs.map GovActionState.withoutVotes) :
    causeOf decision ps = causeOf decision qs := by
  funext p
  have pruned : ∀ enacted expired, prunedBy enacted ps expired = prunedBy enacted qs expired := by
    intro enacted expired
    apply ExtTreeSet.ext_mem
    exact fun id => ⟨prunedBy_subset_of_withoutVotes_eq same,
      prunedBy_subset_of_withoutVotes_eq same.symm⟩
  unfold causeOf
  rw [closeOverDescendants_congr same]
  simp only [pruned]

/-- The removals, read off the proposals without their votes. -/
theorem removals_withoutVotes :
    (removedEntries decision ps).map (fun entry => (⟨entry.1.actionId, entry.2⟩ : RemovedProposal)) =
      ((ps.map GovActionState.withoutVotes).mergeSort fun a b =>
        (compare a.actionId b.actionId).isLE).filterMap fun p =>
          (causeOf decision ps p).map fun cause => ⟨p.actionId, cause⟩ := by
  rw [← List.map_mergeSort (r := fun a b => (compare a.actionId b.actionId).isLE)
    (fun a _ b _ => rfl), List.filterMap_map]
  unfold removedEntries
  rw [List.map_filterMap]
  apply List.filterMap_congr
  intro p _
  show Option.map _ (Option.map _ (causeOf decision ps p)) = _
  rw [Option.map_map]
  rfl

theorem removals_congr
    (same : ps.map GovActionState.withoutVotes = qs.map GovActionState.withoutVotes) :
    (removedEntries decision ps).map (fun entry => (⟨entry.1.actionId, entry.2⟩ : RemovedProposal)) =
      (removedEntries decision qs).map fun entry => ⟨entry.1.actionId, entry.2⟩ := by
  rw [removals_withoutVotes, removals_withoutVotes, same, causeOf_congr same]

end

end Ade.Proof.Ledger
