import Ade.Proof.Consensus.ForkChoice
import Ade.Proof.Participant.Runs
import Ade.Participant.Loop

/-! The fork choice of a participant: the walk to an anchor, and the decision. -/

namespace Ade.Proof.Participant
open Library Ade.ChainDb Ade.Codec.Shelley Ade.Consensus Ade.Receive Ade.Rollback Ade.ForwardSync
open Ade.Wal Ade.BlockValidity Ade.Participant
open Proof.Consensus

variable {env : Environment}

/-! ## The walk -/

section
variable {cache retention : HeaderCache} {chaindb : PersistentChainDb}

/-- A header that is known under its own hash. -/
def Known (cache retention : HeaderCache) (hash : Hash32) (entry : CachedHeader) : Prop :=
  lookupHeader cache retention hash = some entry ∧ entry.blockHash = hash

/-- Known headers from the first on, none with a stored parent, down to the hash of the next one. -/
inductive Ancestry (cache retention : HeaderCache) (chaindb : PersistentChainDb) :
    Hash32 → List CachedHeader → Hash32 → Prop
  | nil (hash : Hash32) : Ancestry cache retention chaindb hash [] hash
  | cons {hash parent last : Hash32} {entry : CachedHeader} {entries : List CachedHeader}
      (known : Known cache retention hash entry) (prev : entry.prevHash = .block parent)
      (absent : chaindb.getBlockByHash parent = .ok none)
      (rest : Ancestry cache retention chaindb parent entries last) :
      Ancestry cache retention chaindb hash (entry :: entries) last

/-- How a walk that may take so many headers ends at the next one, unless it goes on to the parent. -/
inductive Arrives (cache retention : HeaderCache) (chaindb : PersistentChainDb) :
    (remaining : Nat) → Hash32 → List HeaderInput → Except LcaError LcaResult → Prop
  | missing {remaining : Nat} {hash : Hash32} {headers : List HeaderInput}
      (gap : lookupHeader cache retention hash = none) :
      Arrives cache retention chaindb remaining hash headers (.error .branchGap)
  | unbound {remaining : Nat} {hash : Hash32} {headers : List HeaderInput} {entry : CachedHeader}
      (found : lookupHeader cache retention hash = some entry) (other : entry.blockHash ≠ hash) :
      Arrives cache retention chaindb remaining hash headers (.error .cacheSelfBindingViolation)
  | deep {hash : Hash32} {headers : List HeaderInput} {entry : CachedHeader}
      (known : Known cache retention hash entry) :
      Arrives cache retention chaindb 0 hash headers (.error .exceededK)
  | genesis {remaining : Nat} {hash : Hash32} {headers : List HeaderInput} {entry : CachedHeader}
      (known : Known cache retention hash entry) (prev : entry.prevHash = .genesis) :
      Arrives cache retention chaindb (remaining + 1) hash headers (.error .noDurableAncestorWithinK)
  | unreadable {remaining : Nat} {hash parent : Hash32} {headers : List HeaderInput}
      {entry : CachedHeader} {failure : ChainDbError} (known : Known cache retention hash entry)
      (prev : entry.prevHash = .block parent) (failed : chaindb.getBlockByHash parent = .error failure) :
      Arrives cache retention chaindb (remaining + 1) hash headers (.error .branchGap)
  | found {remaining : Nat} {hash parent : Hash32} {headers : List HeaderInput}
      {entry : CachedHeader} {stored : StoredBlock} (known : Known cache retention hash entry)
      (prev : entry.prevHash = .block parent)
      (durable : chaindb.getBlockByHash parent = .ok (some stored)) :
      Arrives cache retention chaindb (remaining + 1) hash headers
        (.ok ⟨stored.slot, parent, entry.header :: headers⟩)

theorem walkFrom_known {remaining : Nat} {hash : Hash32} {headers : List HeaderInput}
    {entry : CachedHeader} (known : Known cache retention hash entry) :
    walkFrom cache retention chaindb (remaining + 1) hash headers =
      match entry.prevHash with
      | .genesis => .error .noDurableAncestorWithinK
      | .block prev =>
          match chaindb.getBlockByHash prev with
          | .ok (some stored) => .ok ⟨stored.slot, prev, entry.header :: headers⟩
          | .ok none => walkFrom cache retention chaindb remaining prev (entry.header :: headers)
          | .error _ => .error .branchGap := by
  conv_lhs => unfold walkFrom
  rw [known.1]
  exact if_neg (not_not.mpr known.2)

theorem walkFrom_arrives {remaining : Nat} {hash : Hash32} {headers : List HeaderInput}
    {outcome : Except LcaError LcaResult}
    (arrives : Arrives cache retention chaindb remaining hash headers outcome) :
    walkFrom cache retention chaindb remaining hash headers = outcome := by
  cases arrives with
  | missing gap =>
      unfold walkFrom
      rw [gap]
  | unbound found other =>
      unfold walkFrom
      rw [found]
      exact if_pos other
  | deep known =>
      unfold walkFrom
      rw [known.1]
      exact if_neg (not_not.mpr known.2)
  | genesis known prev => rw [walkFrom_known known, prev]
  | unreadable known prev failed =>
      rw [walkFrom_known known, prev]
      dsimp only
      rw [failed]
  | found known prev durable =>
      rw [walkFrom_known known, prev]
      dsimp only
      rw [durable]

theorem arrives_or_on (remaining : Nat) (hash : Hash32) (headers : List HeaderInput) :
    (∃ outcome, Arrives cache retention chaindb remaining hash headers outcome) ∨
      ∃ rest entry parent, remaining = rest + 1 ∧ Known cache retention hash entry ∧
        entry.prevHash = .block parent ∧ chaindb.getBlockByHash parent = .ok none := by
  cases found : lookupHeader cache retention hash with
  | none => exact .inl ⟨_, .missing found⟩
  | some entry =>
      by_cases same : entry.blockHash = hash
      · have known : Known cache retention hash entry := ⟨found, same⟩
        cases remaining with
        | zero => exact .inl ⟨_, .deep known⟩
        | succ rest =>
            cases prev : entry.prevHash with
            | genesis => exact .inl ⟨_, .genesis known prev⟩
            | block parent =>
                rcases durable : chaindb.getBlockByHash parent with failure | _ | stored
                · exact .inl ⟨_, .unreadable known prev durable⟩
                · exact .inr ⟨rest, entry, parent, rfl, known, prev, durable⟩
                · exact .inl ⟨_, .found known prev durable⟩
      · exact .inl ⟨_, .unbound found same⟩

/-- The headers of a path from the last one up, before those that come after it. -/
def traversed (path : List CachedHeader) (headers : List HeaderInput) : List HeaderInput :=
  (path.map CachedHeader.header).reverse ++ headers

theorem walkFrom_step {remaining : Nat} {hash parent : Hash32} {headers : List HeaderInput}
    {entry : CachedHeader} (known : Known cache retention hash entry)
    (prev : entry.prevHash = .block parent) (absent : chaindb.getBlockByHash parent = .ok none) :
    walkFrom cache retention chaindb (remaining + 1) hash headers =
      walkFrom cache retention chaindb remaining parent (entry.header :: headers) := by
  rw [walkFrom_known known, prev]
  dsimp only
  rw [absent]

/-- The walk ends at the first header that it does not go on from. -/
theorem walkFrom_ends (remaining : Nat) (hash : Hash32) (headers : List HeaderInput) :
    ∃ path last, Ancestry cache retention chaindb hash path last ∧ path.length ≤ remaining ∧
      Arrives cache retention chaindb (remaining - path.length) last (traversed path headers)
        (walkFrom cache retention chaindb remaining hash headers) := by
  induction remaining generalizing hash headers with
  | zero =>
      rcases @arrives_or_on cache retention chaindb 0 hash headers with ⟨outcome, arrives⟩ | onwards
      · rw [walkFrom_arrives arrives]
        exact ⟨[], hash, .nil hash, Nat.le_refl _, arrives⟩
      · obtain ⟨rest, -, -, absurd_, -⟩ := onwards
        cases absurd_
  | succ remaining ih =>
      rcases @arrives_or_on cache retention chaindb (remaining + 1) hash headers with
        ⟨outcome, arrives⟩ | ⟨rest, entry, parent, -, known, prev, absent⟩
      · rw [walkFrom_arrives arrives]
        exact ⟨[], hash, .nil hash, Nat.zero_le _, arrives⟩
      · obtain ⟨path, last, ancestry, short, ends⟩ := ih parent (entry.header :: headers)
        refine ⟨entry :: path, last, .cons known prev absent ancestry, Nat.succ_le_succ short, ?_⟩
        rw [walkFrom_step known prev absent, List.length_cons, Nat.add_sub_add_right]
        simpa [traversed] using ends

theorem walkFrom_of_ancestry {hash last : Hash32} {path : List CachedHeader}
    (ancestry : Ancestry cache retention chaindb hash path last) {remaining : Nat}
    (short : path.length ≤ remaining) {headers : List HeaderInput}
    {outcome : Except LcaError LcaResult}
    (arrives : Arrives cache retention chaindb (remaining - path.length) last
      (traversed path headers) outcome) :
    walkFrom cache retention chaindb remaining hash headers = outcome := by
  induction ancestry generalizing remaining headers with
  | nil hash => exact walkFrom_arrives arrives
  | @cons hash parent last entry entries known prev absent rest ih =>
      obtain ⟨remaining, rfl⟩ := Nat.exists_eq_succ_of_ne_zero (Nat.ne_of_gt (Nat.zero_lt_of_lt short))
      rw [walkFrom_step known prev absent]
      apply ih (Nat.le_of_succ_le_succ short)
      rw [List.length_cons, Nat.succ_eq_add_one, Nat.add_sub_add_right] at arrives
      simpa [traversed] using arrives

def SelfBound (cache : HeaderCache) : Prop :=
  ∀ (hash : Hash32) (entry : CachedHeader), cache[hash]? = some entry → entry.blockHash = hash

/-- Caches that are keyed by the hashes of their headers never stop a walk. -/
theorem walk_ne_unbound (cached : SelfBound cache) (retained : SelfBound retention) {startHash : Hash32}
    {k : UInt64} : walkToDurableLca cache retention startHash chaindb k ≠
      .error .cacheSelfBindingViolation := by
  intro stopped
  obtain ⟨path, last, -, -, ends⟩ := @walkFrom_ends cache retention chaindb k.toNat startHash []
  unfold walkToDurableLca at stopped
  rw [stopped] at ends
  generalize k.toNat - path.length = remaining at ends
  cases ends with
  | @unbound _ _ _ entry found other =>
      unfold lookupHeader at found
      rcases Option.or_eq_some_iff.mp found with here | ⟨-, there⟩
      · exact other (cached last entry here)
      · exact other (retained last entry there)

/-- The anchor of a walk is a stored block. -/
theorem walk_durable {startHash : Hash32} {k : UInt64} {lca : LcaResult}
    (walked : walkToDurableLca cache retention startHash chaindb k = .ok lca) :
    ∃ stored, chaindb.getBlockByHash lca.anchorHash = .ok (some stored) ∧
      lca.anchorSlot = stored.slot := by
  obtain ⟨path, last, -, -, ends⟩ := @walkFrom_ends cache retention chaindb k.toNat startHash []
  unfold walkToDurableLca at walked
  rw [walked] at ends
  generalize k.toNat - path.length = remaining at ends
  cases ends with
  | @found _ _ _ _ _ stored known prev durable => exact ⟨stored, durable, rfl⟩

/-- The walk has an outcome exactly if known headers lead from the start, none with a stored parent
and no more than the bound, to one where it ends with that outcome. -/
theorem walkToDurableLca_iff (cache retention : HeaderCache) (startHash : Hash32)
    (chaindb : PersistentChainDb) (k : UInt64) (outcome : Except LcaError LcaResult) :
    walkToDurableLca cache retention startHash chaindb k = outcome ↔
      ∃ path last, Ancestry cache retention chaindb startHash path last ∧ path.length ≤ k.toNat ∧
        Arrives cache retention chaindb (k.toNat - path.length) last
          (path.map CachedHeader.header).reverse outcome := by
  have bare : ∀ path, traversed path [] = (path.map CachedHeader.header).reverse :=
    fun path => List.append_nil _
  constructor
  · rintro rfl
    obtain ⟨path, last, ancestry, short, ends⟩ :=
      @walkFrom_ends cache retention chaindb k.toNat startHash []
    rw [bare] at ends
    exact ⟨path, last, ancestry, short, ends⟩
  · rintro ⟨path, last, ancestry, short, arrives⟩
    rw [← bare] at arrives
    exact walkFrom_of_ancestry ancestry short arrives

end

/-! ## The candidate -/

theorem buildCandidate_ok {anchor : Point} {anchorBlockNo currentTipBlockNo : BlockNo}
    {chainDep : PraosChainDepState} {headers : List HeaderInput} {candidate : CandidateBranch}
    (built : buildCandidateFragment env anchor anchorBlockNo currentTipBlockNo chainDep headers =
      .ok candidate) :
    validateHeaders env 0 chainDep headers = .ok candidate.headers ∧ candidate.anchor = anchor ∧
      candidate.anchorBlockNo = anchorBlockNo ∧ ∃ tip, candidate.headers.getLast? = some tip ∧
        candidate.selectView = HeaderSummary.selectView tip := by
  unfold buildCandidateFragment at built
  split_ifs at built
  obtain ⟨summaries, validated, built⟩ := bind_ok built
  cases last : summaries.getLast? with
  | none =>
      rw [last] at built
      cases built
  | some tip =>
      rw [last] at built
      cases built
      exact ⟨validated, rfl, rfl, tip, last, rfl⟩

/-! ## The decision -/

section
variable {selectorState : ChainSelectorState} {competing : CompetingSet}

def Offers (competing : CompetingSet) (peer : String) (candidate : CandidateBranch) (tip : Point) :
    Prop :=
  competing[peer]? = some (candidate, tip)

def Eligible (selectorState : ChainSelectorState) (candidate : CandidateBranch) : Prop :=
  ¬ candidate.anchor.slot < selectorState.immutableTip.slot ∧
    ¬ candidate.rollbackDepth > selectorState.securityParam

/-- The candidate is strictly preferred to the current tip. -/
def Beats (selectorState : ChainSelectorState) (candidate : CandidateBranch) : Prop :=
  compareSelectView (candidateTipBlockNo candidate.fragment) candidate.selectView
    selectorState.currentTipBlockNo selectorState.currentTiebreaker = .lt

/-- The first candidate is strictly preferred to the second one. -/
def Better (first second : CandidateBranch) : Prop :=
  compareSelectView (candidateTipBlockNo first.fragment) first.selectView
    (candidateTipBlockNo second.fragment) second.selectView = .lt

def eligibleOf (candidate : CandidateBranch) : EligibleCandidate :=
  ⟨candidateTipBlockNo candidate.fragment, candidate.selectView, candidateTipPoint candidate.fragment⟩

theorem partition_ok {candidate : CandidateBranch} {eligible : EligibleCandidate} :
    partitionCandidate selectorState candidate.fragment = .ok eligible ↔
      Eligible selectorState candidate ∧ eligibleOf candidate = eligible := by
  unfold partitionCandidate Eligible eligibleOf CandidateBranch.fragment
  split_ifs with early deep <;> simp_all

theorem offers_iff {peer : String} {candidate : CandidateBranch} {tip : Point} :
    Offers competing peer candidate tip ↔ (peer, candidate, tip) ∈ competing.toList := by
  rw [BTreeMap.mem_toList]
  rfl

/-- The candidates of the selector are those of the peers. -/
theorem mem_eligible {eligible : EligibleCandidate} :
    eligible ∈ eligibleCandidates selectorState
        (candidateSet competing) ↔
      ∃ peer candidate tip, Offers competing peer candidate tip ∧
        Eligible selectorState candidate ∧ eligibleOf candidate = eligible := by
  unfold eligibleCandidates candidateSet assembleCandidateSet
  rw [List.mem_filterMap]
  constructor
  · rintro ⟨fragment, member, kept⟩
    rw [(List.mergeSort_perm ..).mem_iff, List.mem_map] at member
    obtain ⟨⟨peer, candidate, tip⟩, listed, rfl⟩ := member
    refine ⟨peer, candidate, tip, offers_iff.mpr listed, ?_⟩
    cases part : partitionCandidate selectorState candidate.fragment with
    | error reject => simp [part, Except.toOption] at kept
    | ok found =>
        rw [part] at kept
        cases kept
        exact partition_ok.mp part
  · rintro ⟨peer, candidate, tip, listed, eligible_⟩
    refine ⟨candidate.fragment, ?_, ?_⟩
    · rw [(List.mergeSort_perm ..).mem_iff, List.mem_map]
      exact ⟨(peer, candidate, tip), offers_iff.mp listed, rfl⟩
    · rw [partition_ok.mpr eligible_]
      rfl

theorem hasTip_iff {candidate : CandidateBranch} (nonempty : candidate.headers ≠ []) {newTip : Point} :
    hasTip newTip candidate = true ↔ candidateTipPoint candidate.fragment = newTip := by
  unfold hasTip candidateTipPoint CandidateBranch.fragment
  obtain ⟨last, found⟩ : ∃ last, candidate.headers.getLast? = some last :=
    ⟨_, List.getLast?_eq_some_getLast nonempty⟩
  simp only [List.getLast?_map, found, Option.map_some, decide_eq_true_eq]
  constructor
  · rintro ⟨slot, hash⟩
    cases newTip
    simp_all
  · rintro rfl
    exact ⟨rfl, rfl⟩

theorem not_lt_of_isLE {first second : EligibleCandidate}
    (below : (selectViewOrder (viewOf first) (viewOf second)).isLE) :
    selectViewOrder (viewOf second) (viewOf first) ≠ .lt := by
  intro less
  have self : selectViewOrder (viewOf second) (viewOf second) = .eq := Std.ReflCmp.compare_self
  have both := Std.TransCmp.lt_of_lt_of_isLE less below
  rw [self] at both
  cases both

/-- The selector moves to a best eligible candidate, or none of them beats the current tip. -/
theorem select_cases {candidates : List CandidateFragment} {next : ChainSelectorState}
    {event : Consensus.ChainEvent}
    (selected : selectBestChain selectorState candidates = .ok (next, event)) :
    (∃ best ∈ eligibleCandidates selectorState candidates,
      event = .chainSelected best.tipPoint (some selectorState.currentTip) ∧
      selectViewOrder (viewOf best) (viewOf (current selectorState)) = .lt ∧
      ∀ other ∈ eligibleCandidates selectorState candidates,
        (selectViewOrder (viewOf best) (viewOf other)).isLE) ∨
    ((∃ reason, event = .rejected reason) ∧
      ∀ other ∈ eligibleCandidates selectorState candidates,
        (selectViewOrder (viewOf (current selectorState)) (viewOf other)).isLE) := by
  unfold selectBestChain at selected
  split_ifs at selected with empty
  cases eligible : eligibleCandidates selectorState candidates with
  | nil =>
      rw [eligible] at selected
      refine .inr ⟨?_, fun other member => absurd member List.not_mem_nil⟩
      cases ineligible : ineligibleCandidates selectorState candidates with
      | nil =>
          rw [ineligible] at selected
          cases selected
      | cons first rest =>
          rw [ineligible] at selected
          cases selected
          exact ⟨_, rfl⟩
  | cons first rest =>
      rw [eligible] at selected
      dsimp only at selected
      have least := foldl_prefer_isLE selectViewOrder viewOf first rest
      have among : rest.foldl betterCandidate first ∈ first :: rest := by
        rcases foldl_prefer_cases selectViewOrder viewOf first rest with same | ⟨member, -⟩
        · rw [betterCandidate_eq_prefer, same]
          exact List.mem_cons_self ..
        · exact List.mem_cons_of_mem _ member
      rw [← betterCandidate_eq_prefer] at least
      unfold adopt at selected
      split_ifs at selected with better
      · cases selected
        exact .inl ⟨_, among, rfl, better, least⟩
      · cases selected
        have kept : selectViewOrder (viewOf (rest.foldl betterCandidate first))
            (viewOf (current selectorState)) ≠ .lt := better
        refine .inr ⟨⟨_, rfl⟩, ?_⟩
        intro other member
        exact Std.TransCmp.isLE_trans (isLE_of_not_lt kept) (least other member)

/-- An offered candidate that beats the current tip, and that no other eligible one is better than. -/
structure Wins (selectorState : ChainSelectorState) (competing : CompetingSet) (peer : String)
    (candidate : CandidateBranch) (tip : Point) : Prop where
  offers : Offers competing peer candidate tip
  eligible : Eligible selectorState candidate
  beats : Beats selectorState candidate
  best : ∀ other rival rivalTip, Offers competing other rival rivalTip →
    Eligible selectorState rival → ¬ Better rival candidate

/-- Two candidates end with headers of one slot and one body hash. -/
def SameTip (first second : CandidateBranch) : Prop :=
  candidateTipPoint first.fragment = candidateTipPoint second.fragment

theorem decide_rejected {next : ChainSelectorState} {reason : ChainSelectionReject}
    (rejected : selectBestChain selectorState (candidateSet competing) = .ok (next, .rejected reason)) :
    decideForkSwitch selectorState competing = .ok .keepCurrent :=
  bind_eq_ok.mpr ⟨_, rejected, rfl⟩

theorem decide_selected {next : ChainSelectorState} {newTip : Point} {replaced : Option Point}
    (selected : selectBestChain selectorState (candidateSet competing) =
      .ok (next, .chainSelected newTip replaced)) {peer : String} {candidate : CandidateBranch}
    {tip : Point} (found : competing.toList.find? (fun entry => hasTip newTip entry.2.1) =
      some (peer, candidate, tip)) :
    decideForkSwitch selectorState competing = .ok (.switch (pendingSwitch peer candidate tip)) := by
  refine bind_eq_ok.mpr ⟨_, selected, ?_⟩
  dsimp only
  rw [found]
  rfl

theorem eligible_wins {peer : String} {candidate : CandidateBranch} {tip : Point}
    (offers : Offers competing peer candidate tip) (eligible : Eligible selectorState candidate)
    (beats : selectViewOrder (viewOf (eligibleOf candidate)) (viewOf (current selectorState)) = .lt)
    (best : ∀ other ∈ eligibleCandidates selectorState (candidateSet competing),
      (selectViewOrder (viewOf (eligibleOf candidate)) (viewOf other)).isLE) :
    Wins selectorState competing peer candidate tip where
  offers := offers
  eligible := eligible
  beats := beats
  best other rival rivalTip offered allowed := not_lt_of_isLE
    (best _ (mem_eligible.mpr ⟨other, rival, rivalTip, offered, allowed, rfl⟩))

theorem candidateSet_eq_nil : candidateSet competing = [] ↔ competing = ∅ := by
  unfold candidateSet assembleCandidateSet
  constructor
  · intro none_
    have permuted := List.mergeSort_perm (competing.toList.map fun entry => entry.2.1.fragment)
      fun a b => (candidateOrder a b).isLE
    rw [none_, List.nil_perm, List.map_eq_nil_iff] at permuted
    apply Std.ExtTreeMap.ext_getElem?
    intro peer
    cases offered : competing[peer]? with
    | none => simp
    | some entry =>
        have listed := offers_iff.mp (show Offers competing peer entry.1 entry.2 from offered)
        rw [permuted] at listed
        cases listed
  · rintro rfl
    have empty : (∅ : CompetingSet).toList = [] := by simp
    rw [empty, List.map_nil, List.mergeSort_nil]

/-- The selector answers, and the decision follows it. -/
theorem decide_cases (some_ : competing ≠ ∅)
    (nonempty : ∀ peer candidate tip, Offers competing peer candidate tip → candidate.headers ≠ []) :
    (decideForkSwitch selectorState competing = .ok .keepCurrent ∧
      ∀ peer candidate tip, Offers competing peer candidate tip →
        Eligible selectorState candidate → ¬ Beats selectorState candidate) ∨
    ∃ peer candidate tip winner winning winningTip,
      decideForkSwitch selectorState competing = .ok (.switch (pendingSwitch peer candidate tip)) ∧
      Offers competing peer candidate tip ∧ Wins selectorState competing winner winning winningTip ∧
      SameTip candidate winning := by
  obtain ⟨event, selected⟩ := @selectBestChain_ok selectorState _ (mt candidateSet_eq_nil.mp some_)
  rcases select_cases selected with ⟨best, member, rfl, beats, least⟩ | ⟨⟨reason, rfl⟩, keeps⟩
  · right
    obtain ⟨winner, winning, winningTip, offers, eligible, rfl⟩ := mem_eligible.mp member
    have wins := eligible_wins offers eligible beats least
    have hit : hasTip (eligibleOf winning).tipPoint winning = true :=
      (hasTip_iff (nonempty _ _ _ offers)).mpr rfl
    cases found : competing.toList.find? fun entry =>
        hasTip (eligibleOf winning).tipPoint entry.2.1 with
    | none =>
        have missed := List.find?_eq_none.mp found _ (offers_iff.mp offers)
        exact absurd hit missed
    | some entry =>
        obtain ⟨peer, candidate, tip⟩ := entry
        have offered := offers_iff.mpr (List.mem_of_find?_eq_some found)
        have hit := @List.find?_some _ (fun entry : String × CandidateBranch × Point =>
          hasTip (eligibleOf winning).tipPoint entry.2.1) _ _ found
        refine ⟨peer, candidate, tip, winner, winning, winningTip, decide_selected selected found,
          offered, wins, ?_⟩
        exact (hasTip_iff (nonempty _ _ _ offered)).mp hit
  · left
    refine ⟨decide_rejected selected, ?_⟩
    intro peer candidate tip offers eligible
    exact not_lt_of_isLE (keeps _ (mem_eligible.mpr ⟨peer, candidate, tip, offers, eligible, rfl⟩))

/-- The decision is a switch exactly if an eligible candidate beats the current tip. The switch is to
a candidate of the winner's tip, so to the winner if no other candidate has its tip. -/
theorem decideForkSwitch_spec (selectorState : ChainSelectorState) (competing : CompetingSet)
    (nonempty : ∀ peer candidate tip, Offers competing peer candidate tip → candidate.headers ≠ []) :
    (decideForkSwitch selectorState competing = .error .noCandidates ↔ competing = ∅) ∧
      (decideForkSwitch selectorState competing = .ok .keepCurrent ↔ competing ≠ ∅ ∧
        ∀ peer candidate tip, Offers competing peer candidate tip →
          Eligible selectorState candidate → ¬ Beats selectorState candidate) ∧
      ∀ switch, decideForkSwitch selectorState competing = .ok (.switch switch) →
        Offers competing switch.winningPeer switch.winningCandidate switch.winnerTip ∧
        switch = pendingSwitch switch.winningPeer switch.winningCandidate switch.winnerTip ∧
        ∃ peer candidate tip, Wins selectorState competing peer candidate tip ∧
          SameTip switch.winningCandidate candidate := by
  by_cases none_ : competing = ∅
  · have failed : decideForkSwitch selectorState competing = .error .noCandidates := by
      unfold decideForkSwitch
      rw [candidateSet_eq_nil.mpr none_]
      rfl
    rw [failed]
    simp [none_]
  · rcases decide_cases none_ nonempty with ⟨kept, loses⟩ |
      ⟨peer, candidate, tip, winner, winning, winningTip, switched, offers, wins, same⟩
    · rw [kept]
      exact ⟨by simp [none_], by simp [none_]; exact loses, by simp⟩
    · rw [switched]
      refine ⟨by simp [none_], ?_, ?_⟩
      · constructor
        · intro absurd_
          cases absurd_
        · rintro ⟨-, loses⟩
          exact absurd wins.beats (loses _ _ _ wins.offers wins.eligible)
      · intro switch decided
        cases decided
        exact ⟨offers, rfl, winner, winning, winningTip, wins, same⟩

end

section Samples

def sampleSelectorState : ChainSelectorState where
  currentTip := ⟨0, Vector.replicate 32 0⟩
  currentTipBlockNo := 0
  currentTiebreaker := ⟨0, Vector.replicate 28 0, 0, Vector.replicate 8 0⟩
  immutableTip := ⟨0, Vector.replicate 32 0⟩
  immutableTipBlockNo := 0
  securityParam := 2160

/-- Block 1 on top of the current tip. -/
def sampleCandidate : CandidateBranch where
  anchor := ⟨0, Vector.replicate 32 0⟩
  anchorBlockNo := 0
  headers := [{
    slot := 5
    bodyHash := Vector.replicate 32 1
    blockNo := 1
    issuerPool := Vector.replicate 28 0
    opCertCounter := 0
    vrfLeaderOutput := Vector.replicate 64 0 }]
  selectView := ⟨5, Vector.replicate 28 0, 0, Vector.replicate 8 0⟩
  rollbackDepth := 0

def sampleCompeting : CompetingSet :=
  (∅ : CompetingSet).insert "peer" (sampleCandidate, ⟨5, Vector.replicate 32 1⟩)

theorem sampleCompeting_offers {peer : String} {candidate : CandidateBranch} {tip : Point}
    (offers : Offers sampleCompeting peer candidate tip) : candidate = sampleCandidate := by
  unfold Offers sampleCompeting at offers
  rw [BTreeMap.getElem?_insert] at offers
  split_ifs at offers
  · cases offers
    rfl
  · simp at offers

theorem decideForkSwitch_spec_of_longer :
    decideForkSwitch sampleSelectorState sampleCompeting ≠ .error .noCandidates ∧
      decideForkSwitch sampleSelectorState sampleCompeting ≠ .ok .keepCurrent := by
  have offered : Offers sampleCompeting "peer" sampleCandidate ⟨5, Vector.replicate 32 1⟩ := by
    unfold Offers sampleCompeting
    rw [BTreeMap.getElem?_insert, if_pos rfl]
  have nonempty : ∀ peer candidate tip, Offers sampleCompeting peer candidate tip →
      candidate.headers ≠ [] := by
    intro peer candidate tip offers
    rw [sampleCompeting_offers offers]
    exact List.cons_ne_nil _ _
  have eligible : Eligible sampleSelectorState sampleCandidate := ⟨by decide, by decide⟩
  have beats : Beats sampleSelectorState sampleCandidate := rfl
  obtain ⟨failed, kept, -⟩ := decideForkSwitch_spec sampleSelectorState sampleCompeting nonempty
  constructor
  · intro errs
    rw [failed.mp errs] at offered
    simp [Offers] at offered
  · intro keeps
    exact (kept.mp keeps).2 _ _ _ offered eligible beats

end Samples

end Ade.Proof.Participant
