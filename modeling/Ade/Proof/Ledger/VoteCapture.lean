import Ade.Codec.Governance
import Ade.Ledger.VoteCapture
import Ade.Proof.Ledger.EpochAccumulator

/-!
# Votes on the selected chain

Reading the ballots of a block and applying them at once, as the block does, comes to the same as
collecting them first. What a single vote does to the tracked proposals then carries over to the
ballots of a transaction, to the transactions of a block and to the blocks of a run.
-/

namespace Ade.Proof.Ledger
open Library Library.Cursor Ade.Ledger

/-! ## One vote -/

theorem upsertVote_eq {K : Type} [DecidableEq K] (voter : K) (vote : Vote) (votes : List (K × Vote)) :
    upsertVote voter vote votes = upsert voter vote votes := by
  induction votes with
  | nil => rfl
  | cons entry votes ih => rw [upsertVote, upsert, ih]

/-- The vote of one seat is recorded, in place of the one it had. -/
structure Recast (seat : Seat) (vote : Vote) (before after : GovActionState) : Prop where
  rest : after = { before with
    committeeVotes := after.committeeVotes
    drepVotes := after.drepVotes
    spoVotes := after.spoVotes }
  recorded : ∀ other, after.recordedVote other =
    if other = seat then some vote else before.recordedVote other
  oneVote : before.OneVotePerVoter → after.OneVotePerVoter

section
variable (vote : Vote) (p : GovActionState)

theorem recast_committee (credential : StakeCredential) : Recast (.committee credential) vote p
    { p with committeeVotes := upsertVote credential vote p.committeeVotes } := by
  rw [upsertVote_eq]
  refine ⟨rfl, fun other => ?_, fun held => ⟨?_, held.drep, held.spo⟩⟩
  · cases other with
    | committee other =>
        simp only [GovActionState.recordedVote, lookup_upsert, Seat.committee.injEq]
    | drep other => rw [if_neg (by simp)]; rfl
    | spo other => rw [if_neg (by simp)]; rfl
  · exact nodup_keys_upsert _ _ held.committee

theorem recast_drep (credential : StakeCredential) : Recast (.drep credential) vote p
    { p with drepVotes := upsertVote credential vote p.drepVotes } := by
  rw [upsertVote_eq]
  refine ⟨rfl, fun other => ?_, fun held => ⟨held.committee, ?_, held.spo⟩⟩
  · cases other with
    | committee other => rw [if_neg (by simp)]; rfl
    | drep other => simp only [GovActionState.recordedVote, lookup_upsert, Seat.drep.injEq]
    | spo other => rw [if_neg (by simp)]; rfl
  · exact nodup_keys_upsert _ _ held.drep

theorem recast_spo (pool : Hash28) : Recast (.spo pool) vote p
    { p with spoVotes := upsertVote pool vote p.spoVotes } := by
  rw [upsertVote_eq]
  refine ⟨rfl, fun other => ?_, fun held => ⟨held.committee, held.drep, ?_⟩⟩
  · cases other with
    | committee other => rw [if_neg (by simp)]; rfl
    | drep other => rw [if_neg (by simp)]; rfl
    | spo other => simp only [GovActionState.recordedVote, lookup_upsert, Seat.spo.injEq]
  · exact nodup_keys_upsert _ _ held.spo

end

theorem castVote_recast {voter : Voter} {vote : Vote} {p after : GovActionState}
    (cast : castVote voter vote p = some after) :
    ∃ seat, voter.seat = some seat ∧ Recast seat vote p after := by
  unfold castVote at cast
  unfold Voter.seat
  split_ifs at cast ⊢ <;> cases cast
  · exact ⟨_, rfl, recast_committee vote p _⟩
  · exact ⟨_, rfl, recast_committee vote p _⟩
  · exact ⟨_, rfl, recast_drep vote p _⟩
  · exact ⟨_, rfl, recast_drep vote p _⟩
  · exact ⟨_, rfl, recast_spo vote p _⟩

/-! ## The ballots of a transaction -/

theorem latestVote_append (seat : Seat) (target : GovActionId) (earlier later : List Ballot) :
    latestVote seat target (earlier ++ later) =
      (latestVote seat target later).or (latestVote seat target earlier) := by
  rw [latestVote, latest_append, Option.map_or]
  rfl

theorem latestVote_singleton (seat : Seat) (target : GovActionId) (ballot : Ballot) :
    latestVote seat target [ballot] =
      if ballot.voter.seat = some seat ∧ ballot.target = target then some ballot.vote else none := by
  rw [latestVote, latest_singleton]
  simp only [decide_eq_true_eq]
  split_ifs <;> rfl

section
variable {ballots later : List Ballot} {p q r : GovActionState}

theorem tallied_nil (p : GovActionState) : Tallied [] p p := ⟨rfl, fun _ => rfl⟩

theorem actionId_of_tallied (tallied : Tallied ballots p q) : q.actionId = p.actionId := by
  rw [tallied.rest]

theorem tallied_append (first : Tallied ballots p q) (second : Tallied later q r) :
    Tallied (ballots ++ later) p r := by
  refine ⟨?_, fun seat => ?_⟩
  · rw [second.rest, first.rest]
  · rw [second.recorded, first.recorded, actionId_of_tallied first, latestVote_append, Option.or_assoc]

theorem tallied_elsewhere {ballot : Ballot} (other : ballot.target ≠ p.actionId) :
    Tallied [ballot] p p := by
  refine ⟨rfl, fun seat => ?_⟩
  rw [latestVote_singleton, if_neg fun both => other both.2]
  rfl

theorem tallied_recast {ballot : Ballot} {seat : Seat} (here : ballot.target = p.actionId)
    (seated : ballot.voter.seat = some seat) (cast : Recast seat ballot.vote p q) :
    Tallied [ballot] p q := by
  refine ⟨cast.rest, fun other => ?_⟩
  rw [cast.recorded, latestVote_singleton, seated]
  by_cases same : other = seat
  · rw [if_pos same, if_pos ⟨congrArg some same.symm, here⟩]
    rfl
  · rw [if_neg same, if_neg fun both => same (Option.some.inj both.1).symm]
    rfl

end

/-- Every proposal is there with its ballots counted. -/
structure BallotsCounted (ballots : List Ballot) (before after : List GovActionState) : Prop where
  ids : proposalIds after = proposalIds before
  oneVote : (∀ p ∈ before, p.OneVotePerVoter) → ∀ p ∈ after, p.OneVotePerVoter
  tallied : ∀ p ∈ before, ∃ q ∈ after, Tallied ballots p q

theorem applyOneVote_counts {ballot : Ballot} {proposals after : List GovActionState}
    (distinct : (proposalIds proposals).Nodup)
    (applied : applyOneVote ballot.voter ballot.target ballot.vote proposals = some after) :
    BallotsCounted [ballot] proposals after := by
  induction proposals generalizing after with
  | nil =>
      cases applied
      exact ⟨rfl, id, fun p none_ => nomatch none_⟩
  | cons p proposals ih =>
      obtain ⟨fresh, distinct⟩ := List.nodup_cons.mp distinct
      unfold applyOneVote at applied
      by_cases here : p.actionId = ballot.target
      · rw [if_pos here] at applied
        obtain ⟨q, cast, returned⟩ := Option.bind_eq_some_iff.mp applied
        cases returned
        obtain ⟨seat, seated, recast⟩ := castVote_recast cast
        have counted := tallied_recast here.symm seated recast
        refine ⟨?_, fun held other member => ?_, fun other member => ?_⟩
        · rw [proposalIds, List.map_cons, actionId_of_tallied counted]
          rfl
        · rcases List.mem_cons.mp member with rfl | later
          · exact recast.oneVote (held p (List.mem_cons_self ..))
          · exact held other (List.mem_cons_of_mem _ later)
        · rcases List.mem_cons.mp member with rfl | later
          · exact ⟨q, List.mem_cons_self .., counted⟩
          · have elsewhere : ballot.target ≠ other.actionId := fun same =>
              fresh (here.trans same ▸ List.mem_map_of_mem later)
            exact ⟨other, List.mem_cons_of_mem _ later, tallied_elsewhere elsewhere⟩
      · rw [if_neg here] at applied
        obtain ⟨rest, voted, returned⟩ := Option.bind_eq_some_iff.mp applied
        cases returned
        have counts := ih distinct voted
        refine ⟨?_, fun held other member => ?_, fun other member => ?_⟩
        · rw [proposalIds, List.map_cons, ← proposalIds, counts.ids]
          rfl
        · rcases List.mem_cons.mp member with rfl | later
          · exact held other (List.mem_cons_self ..)
          · exact counts.oneVote (fun p listed => held p (List.mem_cons_of_mem _ listed)) other later
        · rcases List.mem_cons.mp member with rfl | later
          · exact ⟨other, List.mem_cons_self .., tallied_elsewhere (Ne.symm here)⟩
          · obtain ⟨q, listed, counted⟩ := counts.tallied other later
            exact ⟨q, List.mem_cons_of_mem _ listed, counted⟩

def castBallot (proposals : List GovActionState) (ballot : Ballot) : Option (List GovActionState) :=
  applyOneVote ballot.voter ballot.target ballot.vote proposals

theorem castBallots_counts {ballots : List Ballot} {proposals after : List GovActionState}
    (distinct : (proposalIds proposals).Nodup)
    (cast : ballots.foldlM castBallot proposals = some after) :
    BallotsCounted ballots proposals after := by
  induction ballots generalizing proposals with
  | nil =>
      cases cast
      exact ⟨rfl, id, fun p member => ⟨p, member, tallied_nil p⟩⟩
  | cons ballot ballots ih =>
      rw [List.foldlM_cons] at cast
      obtain ⟨middle, first, rest⟩ := Option.bind_eq_some_iff.mp cast
      have head := applyOneVote_counts distinct first
      have tail := ih (head.ids ▸ distinct) rest
      refine ⟨tail.ids.trans head.ids, fun held => tail.oneVote (head.oneVote held),
        fun p member => ?_⟩
      obtain ⟨q, listed, counted⟩ := head.tallied p member
      obtain ⟨r, last, counted'⟩ := tail.tallied q listed
      exact ⟨r, last, tallied_append counted counted'⟩

/-! ## Reading twice -/

/-- Where the first cursor goes, the second goes along, and their states stay related. -/
def ReadsAlong {ε σ τ : Type} (related : σ → τ → Prop) (element : σ → Cursor ε σ)
    (other : τ → Cursor ε τ) : Prop :=
  ∀ state state' offset next after, related state state' →
    runAt (element state) offset = (.ok next, after) →
      ∃ next', runAt (other state') offset = (.ok next', after) ∧ related next next'

namespace ReadsAlong

variable {ε σ τ : Type} {related : σ → τ → Prop} {element : σ → Cursor ε σ} {other : τ → Cursor ε τ}

theorem iterate (follows : ReadsAlong related element other) (count : Nat) :
    ReadsAlong related (Cursor.iterate element count) (Cursor.iterate other count) := by
  induction count with
  | zero =>
      intro state state' offset next after initially ran
      cases ran
      exact ⟨state', rfl, initially⟩
  | succ count ih =>
      intro state state' offset next after initially ran
      obtain ⟨middle, moved, first, rest⟩ := of_runAt_bind_ok ran
      obtain ⟨middle', first', held⟩ := follows _ _ _ _ _ initially first
      obtain ⟨next', rest', last⟩ := ih _ _ _ _ _ held rest
      exact ⟨next', (runAt_bind_ok first').trans rest', last⟩

theorem foldUntilBreak (data : Bytes) (failure : ε) (follows : ReadsAlong related element other)
    (left : Nat) :
    ReadsAlong related (Ade.Ledger.foldUntilBreak data failure element left)
      (Ade.Ledger.foldUntilBreak data failure other left) := by
  induction left with
  | zero =>
      intro state state' offset next after initially ran
      cases ran
  | succ left ih =>
      intro state state' offset next after initially ran
      obtain ⟨stops, moved, checked, ran⟩ := of_runAt_bind_ok ran
      unfold Ade.Ledger.foldUntilBreak
      rw [runAt_bind_ok checked]
      cases stops with
      | true =>
          cases ran
          exact ⟨state', rfl, initially⟩
      | false =>
          obtain ⟨middle, moved, first, rest⟩ := of_runAt_bind_ok ran
          obtain ⟨middle', first', held⟩ := follows _ _ _ _ _ initially first
          obtain ⟨next', rest', last⟩ := ih _ _ _ _ _ held rest
          exact ⟨next', (runAt_bind_ok first').trans rest', last⟩

theorem foldContainer (data : Bytes) (failure : ε) (follows : ReadsAlong related element other)
    (encoding : Codec.ContainerEncoding) :
    ReadsAlong related (Ade.Ledger.foldContainer data failure element · encoding)
      (Ade.Ledger.foldContainer data failure other · encoding) := by
  cases encoding with
  | definite count width => exact follows.iterate count.toNat
  | indefinite => exact follows.foldUntilBreak data failure data.length

end ReadsAlong

theorem forEachBody_readsAlong {σ τ : Type} {related : σ → τ → Prop}
    {element : UInt64 → σ → TransitionRead σ} {other : UInt64 → τ → TransitionRead τ}
    (follows : ∀ index, ReadsAlong related (element index) (other index)) {data : Bytes} {state : σ}
    {state' : τ} {offset after : Nat} {counted : UInt64 × σ} (initially : related state state')
    (ran : runAt (forEachBody data element state) offset = (.ok counted, after)) :
    ∃ counted', runAt (forEachBody data other state') offset = (.ok counted', after) ∧
      related counted.2 counted'.2 := by
  obtain ⟨encoding, moved, header, ran⟩ := of_runAt_bind_ok ran
  have each : ReadsAlong (fun counted counted' => counted.1 = counted'.1 ∧ related counted.2 counted'.2)
      (fun counted : UInt64 × σ => do return (counted.1 + 1, ← element counted.1 counted.2))
      (fun counted : UInt64 × τ => do return (counted.1 + 1, ← other counted.1 counted.2)) := by
    rintro ⟨index, state⟩ ⟨index', state'⟩ offset next after ⟨same, initially⟩ ran
    dsimp only at same initially ran ⊢
    subst same
    obtain ⟨middle, moved, first, returned⟩ := of_runAt_bind_ok ran
    cases returned
    obtain ⟨middle', first', held⟩ := follows index _ _ _ _ _ initially first
    exact ⟨_, (runAt_bind_ok first').trans rfl, rfl, held⟩
  obtain ⟨counted', ran', -, held⟩ :=
    each.foldContainer data .malformedBlock encoding (0, state) (0, state') _ _ _ ⟨rfl, initially⟩ ran
  exact ⟨counted', (runAt_bind_ok header).trans ran', held⟩

/-! ## The ballots of a field -/

/-- Casting the ballots read so far leads to the proposals. -/
def CastFrom (start proposals : List GovActionState) (ballots : List Ballot) : Prop :=
  ballots.foldlM castBallot start = some proposals

variable {start : List GovActionState} {data : Bytes}

theorem readVote_readsAlong (voter : Voter) :
    ReadsAlong (CastFrom start) (readVote data voter) (collectVote data voter) := by
  intro proposals ballots offset next after cast ran
  obtain ⟨target, moved, targeted, ran⟩ := of_runAt_bind_ok ran
  obtain ⟨vote, moved', voted, ran⟩ := of_runAt_bind_ok ran
  cases applied : applyOneVote voter target vote proposals with
  | none =>
      rw [applied] at ran
      cases ran
  | some voted' =>
      rw [applied] at ran
      cases ran
      refine ⟨_, (runAt_bind_ok targeted).trans ((runAt_bind_ok voted).trans rfl), ?_⟩
      rw [CastFrom, List.foldlM_append, show ballots.foldlM castBallot start = _ from cast]
      simpa [castBallot] using applied

theorem applyOneVoter_readsAlong :
    ReadsAlong (CastFrom start) (applyOneVoter data) (collectVoter data) := by
  intro proposals ballots offset next after cast ran
  obtain ⟨voter, moved, read, ran⟩ := of_runAt_bind_ok ran
  obtain ⟨encoding, moved', header, ran⟩ := of_runAt_bind_ok ran
  obtain ⟨voted, moved'', folded, ran⟩ := of_runAt_bind_ok ran
  obtain ⟨ballots', collected, cast'⟩ :=
    (readVote_readsAlong voter).foldContainer data () encoding _ _ _ _ _ cast folded
  obtain ⟨_, moved''', closed, returned⟩ := of_runAt_bind_ok ran
  cases returned
  refine ⟨ballots', ?_, cast'⟩
  unfold collectVoter
  rw [runAt_bind_ok read, runAt_bind_ok header, runAt_bind_ok collected, runAt_bind_ok closed]
  rfl

theorem readField19Votes_readsAlong {proposals : List GovActionState} {offset after : Nat}
    (ran : runAt (readField19Votes data start) offset = (.ok proposals, after)) :
    ∃ ballots, runAt (readBallots data) offset = (.ok ballots, after) ∧
      ballots.foldlM castBallot start = some proposals := by
  obtain ⟨tagged, moved, skipped, ran⟩ := of_runAt_bind_ok ran
  obtain ⟨encoding, moved', header, ran⟩ := of_runAt_bind_ok ran
  obtain ⟨voted, moved'', folded, ran⟩ := of_runAt_bind_ok ran
  obtain ⟨ballots, collected, cast⟩ :=
    applyOneVoter_readsAlong.foldContainer data () encoding start [] _ _ _ rfl folded
  obtain ⟨_, moved''', closed, ran⟩ := of_runAt_bind_ok ran
  obtain ⟨here, moved'''', got, ran⟩ := of_runAt_bind_ok ran
  refine ⟨ballots, ?_, ?_⟩
  · unfold readBallots
    rw [runAt_bind_ok skipped, runAt_bind_ok header, runAt_bind_ok collected, runAt_bind_ok closed,
      runAt_bind_ok got]
    split_ifs at ran ⊢
    · cases ran
    · cases ran
      rfl
  · split_ifs at ran
    · cases ran
    · cases ran
      exact cast

theorem captureVotes_cast {txIndex : UInt64} {gov after : ConwayGovState} {field : Option Bytes}
    (captured : captureVotes txIndex gov field = .ok after) :
    ∃ ballots, ballotsOf txIndex field = .ok ballots ∧
      ballots.foldlM castBallot gov.proposals = some after.proposals ∧
      after = { gov with proposals := after.proposals } := by
  cases field with
  | none =>
      cases captured
      exact ⟨[], rfl, rfl, rfl⟩
  | some value =>
      obtain ⟨proposals, ran, returned⟩ := bind_ok (mapError_ok captured)
      cases returned
      rcases read : runAt (readField19Votes value gov.proposals) 0 with ⟨failure | voted, moved⟩
      · rw [read] at ran
        cases ran
      · rw [read] at ran
        cases ran
        obtain ⟨ballots, collected, cast⟩ := readField19Votes_readsAlong read
        refine ⟨ballots, ?_, cast, rfl⟩
        unfold ballotsOf
        dsimp only
        rw [collected]
        rfl

/-! ## The proposals of a transaction -/

def GovTx.submissions (tx : GovTx) (govActionLifetime : UInt64) : List GovActionState :=
  tx.procedures.zipIdx.map (tx.submission govActionLifetime)

/-- The position and the expiry of a submission are in range. -/
def GovTx.Fits (tx : GovTx) (govActionLifetime : UInt64) (position : Nat) : Prop :=
  position < 2 ^ 32 ∧ tx.epoch.toNat + govActionLifetime.toNat < 2 ^ 64

theorem trackProcedure_submission {tx : GovTx} {txIndex govActionLifetime : UInt64}
    {entry : ProposalProcedure × Nat} {p : GovActionState}
    (tracked : trackProcedure txIndex tx.id tx.epoch govActionLifetime entry = .ok p) :
    p = tx.submission govActionLifetime entry ∧ GovTx.Fits tx govActionLifetime entry.2 := by
  unfold trackProcedure at tracked
  split_ifs at tracked with large
  · cases tracked
  · obtain ⟨expiresAfter, added, returned⟩ := bind_ok tracked
    cases returned
    unfold checkedAdd at added
    split_ifs at added with fits
    · cases added
      exact ⟨rfl, Nat.lt_of_not_le large, fits⟩
    · cases added

theorem mapM_trackProcedure {tx : GovTx} {txIndex govActionLifetime : UInt64}
    {entries : List (ProposalProcedure × Nat)} {submitted : List GovActionState}
    (ran : entries.mapM (trackProcedure txIndex tx.id tx.epoch govActionLifetime) = .ok submitted) :
    submitted = entries.map (tx.submission govActionLifetime) ∧
      ∀ entry ∈ entries, GovTx.Fits tx govActionLifetime entry.2 := by
  induction entries generalizing submitted with
  | nil =>
      cases ran
      exact ⟨rfl, fun entry none_ => nomatch none_⟩
  | cons entry entries ih =>
      rw [List.mapM_cons] at ran
      obtain ⟨p, tracked, ran⟩ := bind_ok ran
      obtain ⟨rest, mapped, returned⟩ := bind_ok ran
      cases returned
      obtain ⟨rfl, fits⟩ := trackProcedure_submission tracked
      obtain ⟨rfl, others⟩ := ih mapped
      exact ⟨rfl, List.forall_mem_cons.mpr ⟨fits, others⟩⟩

variable {env : AccumulatorEnv}

theorem submitProposals_submissions {txIndex : UInt64} {bodyBytes : Bytes} {epoch : EpochNo}
    {gov after : ConwayGovState} {field : Option Bytes}
    (submitted : submitProposals env txIndex bodyBytes epoch gov field = .ok after) :
    ∃ procedures, proceduresOf env txIndex field = .ok procedures ∧
      ∀ tx : GovTx, tx.id = env.transactionId bodyBytes → tx.epoch = epoch →
        tx.procedures = procedures →
        after = { gov with
          proposals := gov.proposals ++ GovTx.submissions tx gov.govActionLifetime } ∧
        ∀ entry ∈ tx.procedures.zipIdx, GovTx.Fits tx gov.govActionLifetime entry.2 := by
  cases field with
  | none =>
      cases submitted
      refine ⟨[], rfl, ?_⟩
      rintro ⟨id, epoch, procedures, ballots⟩ same same' rfl
      refine ⟨?_, fun entry none_ => nomatch none_⟩
      rw [GovTx.submissions, List.zipIdx_nil, List.map_nil, List.append_nil]
  | some value =>
      obtain ⟨procedures, decoded, ran⟩ := bind_ok submitted
      refine ⟨procedures, decoded, ?_⟩
      rintro ⟨id, epoch, procedures, ballots⟩ rfl rfl rfl
      unfold captureProposals at ran
      split_ifs at ran
      · cases ran
      · obtain ⟨tracked, mapped, returned⟩ := bind_ok ran
        cases returned
        obtain ⟨rfl, fits⟩ := @mapM_trackProcedure ⟨_, _, procedures, ballots⟩ _ _ _ _ mapped
        exact ⟨rfl, fits⟩

/-! ## A transaction -/

/-- The submissions first, then the ballots. -/
structure Captures (gov : ConwayGovState) (tx : GovTx) (after : ConwayGovState) : Prop where
  rest : after = { gov with proposals := after.proposals }
  fits : ∀ entry ∈ tx.procedures.zipIdx, GovTx.Fits tx gov.govActionLifetime entry.2
  cast : tx.ballots.foldlM castBallot
    (gov.proposals ++ GovTx.submissions tx gov.govActionLifetime) = some after.proposals

theorem applyOneTxGovernance_readsAlong {start : ConwayGovState} {data : Bytes}
    {invalid : BTreeSet UInt64} {epoch : EpochNo} (txIndex : UInt64) :
    ReadsAlong (fun gov txs => Run Captures start txs gov)
      (applyOneTxGovernance env data invalid epoch txIndex)
      (collectGovTx env data invalid epoch txIndex) := by
  intro gov txs offset next after earlier ran
  obtain ⟨bodyStart, moved, got, ran⟩ := of_runAt_bind_ok ran
  obtain ⟨fields, moved', read, ran⟩ := of_runAt_bind_ok ran
  obtain ⟨bodyEnd, moved'', got', ran⟩ := of_runAt_bind_ok ran
  unfold collectGovTx
  rw [runAt_bind_ok got, runAt_bind_ok read, runAt_bind_ok got']
  split_ifs at ran ⊢ with discarded
  · cases ran
    exact ⟨txs, rfl, earlier⟩
  · obtain ⟨proposed, moved''', submitted, captured⟩ := of_runAt_bind_ok ran
    rw [runAt_liftExcept] at submitted captured
    obtain ⟨accepted, unmoved⟩ := Prod.mk.inj submitted
    obtain ⟨voted, unmoved'⟩ := Prod.mk.inj captured
    subst unmoved unmoved'
    obtain ⟨procedures, decoded, applied⟩ := submitProposals_submissions accepted
    obtain ⟨ballots, collected, cast, rest⟩ := captureVotes_cast voted
    obtain ⟨rfl, fits⟩ := applied ⟨_, epoch, procedures, ballots⟩ rfl rfl rfl
    refine ⟨_, ?_, earlier.append (.cons ⟨rest, fits, cast⟩ (.nil next))⟩
    rw [decoded, collected]
    rfl

theorem applyBlockGovernance_run {block : GovBlock} {gov after : ConwayGovState}
    (accepted : block.apply env gov = .ok after) : Run Captures gov (block.validTxs env) after := by
  unfold GovBlock.apply applyBlockGovernance at accepted
  unfold GovBlock.validTxs
  by_cases empty : block.txCount = 0
  · rw [if_pos empty] at accepted ⊢
    cases accepted
    exact .nil gov
  · rw [if_neg empty] at accepted ⊢
    obtain ⟨counted, ran, required⟩ := bind_ok accepted
    rcases walked : runAt (forEachBody block.txBodies (applyOneTxGovernance env block.txBodies
      block.invalid block.currentEpoch) gov) 0 with ⟨failure | counted, moved⟩
    · rw [walked] at ran
      cases ran
    · rw [walked] at ran
      cases ran
      have follows : ∀ index, ReadsAlong (fun next txs => Run Captures gov txs next)
          (applyOneTxGovernance env block.txBodies block.invalid block.currentEpoch index)
          (collectGovTx env block.txBodies block.invalid block.currentEpoch index) :=
        applyOneTxGovernance_readsAlong
      obtain ⟨collected, ran', captured⟩ := forEachBody_readsAlong follows (Run.nil gov) walked
      unfold requireCount at required
      split_ifs at required
      cases required
      rw [ran']
      exact captured

theorem applyBlocks_run {blocks : List GovBlock} {start last : ConwayGovState}
    (accepted : blocks.foldlM (fun gov block => block.apply env gov) start = .ok last) :
    Run Captures start (blocks.flatMap (GovBlock.validTxs env)) last := by
  induction blocks generalizing start with
  | nil =>
      cases accepted
      exact .nil _
  | cons block blocks ih =>
      rw [List.foldlM_cons] at accepted
      obtain ⟨middle, first, rest⟩ := bind_ok accepted
      rw [List.flatMap_cons]
      exact (applyBlockGovernance_run first).append (ih rest)

/-! ## Distinct proposals -/

/-- What the transactions to come rely on. -/
structure Ready (gov : ConwayGovState) (txs : List GovTx) : Prop where
  distinct : (proposalIds gov.proposals).Nodup
  oneVote : ∀ p ∈ gov.proposals, p.OneVotePerVoter
  txIds : DistinctTxIds gov txs

section
variable {gov after : ConwayGovState} {tx : GovTx} {txs : List GovTx}

theorem submission_ids {govActionLifetime : UInt64}
    (fits : ∀ entry ∈ tx.procedures.zipIdx, GovTx.Fits tx govActionLifetime entry.2) :
    (proposalIds (GovTx.submissions tx govActionLifetime)).Nodup := by
  rw [proposalIds, GovTx.submissions, List.map_map]
  apply List.Nodup.map_on
  · rintro entry member other member' same
    have first := (fits entry member).1
    have second := (fits other member').1
    have index := congrArg (fun id : GovActionId => id.index.toNat) same
    simp only [Function.comp_apply, GovTx.submission, UInt32.toNat_ofNat'] at index
    rw [Nat.mod_eq_of_lt first, Nat.mod_eq_of_lt second] at index
    obtain ⟨procedure, position⟩ := entry
    obtain ⟨procedure', position'⟩ := other
    dsimp only at index
    subst index
    rw [List.mk_mem_zipIdx_iff_getElem?] at member member'
    cases member.symm.trans member'
    rfl
  · apply List.Nodup.of_map Prod.snd
    rw [List.zipIdx_map_snd]
    exact List.nodup_range'

theorem submission_txHash {govActionLifetime : UInt64} {p : GovActionState}
    (member : p ∈ GovTx.submissions tx govActionLifetime) : p.actionId.txHash = tx.id := by
  obtain ⟨entry, -, rfl⟩ := List.mem_map.mp member
  rfl

theorem Captures.distinct (captures : Captures gov tx after) (ready : Ready gov (tx :: txs)) :
    (proposalIds (gov.proposals ++ GovTx.submissions tx gov.govActionLifetime)).Nodup := by
  rw [proposalIds, List.map_append]
  refine ready.distinct.append (submission_ids captures.fits) ?_
  intro id before submitted
  obtain ⟨p, tracked, rfl⟩ := List.mem_map.mp before
  obtain ⟨q, listed, same⟩ := List.mem_map.mp submitted
  apply ready.txIds.earlier p tracked
  rw [← same, submission_txHash listed]
  exact List.mem_cons_self ..

theorem Captures.counts (captures : Captures gov tx after) (ready : Ready gov (tx :: txs)) :
    BallotsCounted tx.ballots (gov.proposals ++ GovTx.submissions tx gov.govActionLifetime)
      after.proposals :=
  castBallots_counts (captures.distinct ready) captures.cast

theorem Captures.ready (captures : Captures gov tx after) (ready : Ready gov (tx :: txs)) :
    Ready after txs := by
  have counts := captures.counts ready
  have among := List.nodup_cons.mp ready.txIds.among
  refine ⟨counts.ids ▸ captures.distinct ready, ?_, among.2, ?_⟩
  · apply counts.oneVote
    intro p member
    rcases List.mem_append.mp member with tracked | submitted
    · exact ready.oneVote p tracked
    · obtain ⟨entry, -, rfl⟩ := List.mem_map.mp submitted
      exact ⟨List.nodup_nil, List.nodup_nil, List.nodup_nil⟩
  · intro q member
    have listed : q.actionId ∈ proposalIds after.proposals := List.mem_map_of_mem member
    rw [counts.ids] at listed
    obtain ⟨p, before, same⟩ := List.mem_map.mp listed
    rw [← same]
    rcases List.mem_append.mp before with tracked | submitted
    · exact fun later => ready.txIds.earlier p tracked (List.mem_cons_of_mem _ later)
    · rw [submission_txHash submitted]
      exact among.1

end

/-! ## Runs -/

section
variable {gov last : ConwayGovState} {txs later : List GovTx}

theorem run_rest (run : Run Captures gov txs last) :
    last = { gov with proposals := last.proposals } := by
  induction run with
  | nil => rfl
  | cons head _ ih => rw [ih, head.rest]

theorem run_ready (run : Run Captures gov txs last) (ready : Ready gov (txs ++ later)) :
    Ready last later := by
  induction run with
  | nil => exact ready
  | cons head _ ih => exact ih (head.ready ready)

theorem run_tallied (run : Run Captures gov txs last) (ready : Ready gov txs) :
    ∀ p ∈ gov.proposals, ∃ q ∈ last.proposals, Tallied (txs.flatMap GovTx.ballots) p q := by
  induction run with
  | nil => exact fun p member => ⟨p, member, tallied_nil p⟩
  | cons head _ ih =>
      intro p member
      obtain ⟨q, listed, counted⟩ :=
        (head.counts ready).tallied p (List.mem_append_left _ member)
      obtain ⟨r, listed', counted'⟩ := ih (head.ready ready) q listed
      exact ⟨r, listed', tallied_append counted counted'⟩

theorem run_length (run : Run Captures gov txs last) (ready : Ready gov txs) :
    last.proposals.length =
      gov.proposals.length + (txs.map fun tx => tx.procedures.length).sum := by
  induction run with
  | nil => rfl
  | cons head _ ih =>
      have counted := congrArg List.length (head.counts ready).ids
      simp only [proposalIds, List.length_map, List.length_append, GovTx.submissions,
        List.length_zipIdx] at counted
      rw [ih (head.ready ready), counted, List.map_cons, List.sum_cons, Nat.add_assoc]

theorem trackedOnce_of_mem {proposals : List GovActionState} {p : GovActionState}
    (distinct : (proposalIds proposals).Nodup) (member : p ∈ proposals) :
    TrackedOnce proposals p := by
  induction proposals with
  | nil => cases member
  | cons other proposals ih =>
      obtain ⟨fresh, distinct⟩ := List.nodup_cons.mp distinct
      unfold TrackedOnce
      rcases List.mem_cons.mp member with rfl | later
      · have absent : proposals.filter (fun other => other.actionId = p.actionId) = [] := by
          apply List.filter_eq_nil_iff.mpr
          intro other listed
          rw [decide_eq_true_eq]
          exact fun same => fresh (same ▸ List.mem_map_of_mem listed)
        rw [List.filter_cons_of_pos (by rw [decide_eq_true_eq]), absent]
      · have elsewhere : other.actionId ≠ p.actionId := fun same =>
          fresh (same ▸ List.mem_map_of_mem later)
        rw [List.filter_cons_of_neg (by rwa [decide_eq_true_eq])]
        exact ih distinct later

theorem run_submitted {earlier : List GovTx} {tx : GovTx}
    (run : Run Captures gov (earlier ++ tx :: later) last)
    (ready : Ready gov (earlier ++ tx :: later)) {position : Nat} {procedure : ProposalProcedure}
    (listed : tx.procedures[position]? = some procedure) :
    GovTx.Fits tx gov.govActionLifetime position ∧ ∃ q ∈ last.proposals,
      Tallied ((tx :: later).flatMap GovTx.ballots)
        (tx.submission gov.govActionLifetime (procedure, position)) q := by
  obtain ⟨before, first, rest⟩ := run.of_append
  have lifetime : before.govActionLifetime = gov.govActionLifetime := by rw [run_rest first]
  have ready' := run_ready first ready
  have entry : (procedure, position) ∈ tx.procedures.zipIdx :=
    List.mk_mem_zipIdx_iff_getElem?.mpr listed
  cases rest with
  | cons head tail =>
      have submitted : tx.submission gov.govActionLifetime (procedure, position) ∈
          before.proposals ++ GovTx.submissions tx before.govActionLifetime := by
        rw [lifetime]
        exact List.mem_append_right _ (List.mem_map_of_mem entry)
      obtain ⟨q, tracked, counted⟩ := (head.counts ready').tallied _ submitted
      obtain ⟨r, last, counted'⟩ := run_tallied tail (head.ready ready') q tracked
      exact ⟨lifetime ▸ head.fits _ entry, r, last, tallied_append counted counted'⟩

end

/-- Blocks that are accepted keep, for every proposal and voter, the last vote. -/
theorem applyBlocks_keep_latest {blocks : List GovBlock} {start last : ConwayGovState}
    (distinct : (proposalIds start.proposals).Nodup)
    (oneVote : ∀ p ∈ start.proposals, p.OneVotePerVoter)
    (txIds : DistinctTxIds start (blocks.flatMap (GovBlock.validTxs env)))
    (accepted : blocks.foldlM (fun gov block => block.apply env gov) start = .ok last) :
    KeepsLatestVotes start (blocks.flatMap (GovBlock.validTxs env)) last := by
  have run := applyBlocks_run accepted
  have ready : Ready start (blocks.flatMap (GovBlock.validTxs env)) := ⟨distinct, oneVote, txIds⟩
  have ended : Ready last [] := run_ready run (by rwa [List.append_nil])
  refine ⟨run_rest run, ended.distinct, ended.oneVote, fun p member => ?_, ?_,
    run_length run ready⟩
  · obtain ⟨q, listed, counted⟩ := run_tallied run ready p member
    exact ⟨q, trackedOnce_of_mem ended.distinct listed, counted⟩
  · intro earlier tx later split position procedure listed
    rw [split] at run ready
    obtain ⟨fits, q, tracked, counted⟩ := run_submitted run ready listed
    exact ⟨fits.1, fits.2, q, trackedOnce_of_mem ended.distinct tracked, counted⟩

/-- A hundred lovelace on an action that only informs. -/
def sampleProposalBody : Bytes :=
  [0xa1, 0x14, 0x81, 0x84, 0x18, 0x64, 0x58, 0x1d, 0xe1] ++ List.replicate 28 7 ++
    [0x81, 0x06, 0x82, 0x61, 0x78, 0x58, 0x20] ++ List.replicate 32 5

def sampleProposalId : Hash32 := ⟨#[
    0x46, 0x05, 0x72, 0x35, 0x86, 0xda, 0x95, 0x5e, 0x0f, 0x5f, 0x58, 0x92, 0x8f, 0xa6, 0x48,
    0x74, 0xf3, 0x9d, 0xcf, 0x8b, 0x47, 0xcd, 0x46, 0x37, 0x4e, 0xfc, 0xb4, 0xc1, 0xec, 0xa6,
    0x80, 0x4b], rfl⟩

def sampleBallotId : Hash32 := ⟨#[
    0x63, 0xc9, 0x14, 0x94, 0x69, 0x1c, 0xd9, 0xd0, 0xae, 0xdd, 0xd1, 0x4c, 0x79, 0x97, 0xc7,
    0x71, 0x14, 0x7e, 0xf1, 0x99, 0xfa, 0x35, 0xf1, 0xaa, 0x84, 0x7e, 0x74, 0xfa, 0x1d, 0x61,
    0x25, 0x3f], rfl⟩

/-- A DRep with a key votes yes on the proposal. -/
def sampleBallotBody : Bytes :=
  [0xa1, 0x13, 0xa1, 0x82, 0x02, 0x58, 0x1c] ++ List.replicate 28 9 ++
    [0xa1, 0x82, 0x58, 0x20] ++ sampleProposalId.toList ++ [0x00, 0x82, 0x01, 0xf6]

/-- The decoder of proposals is the real one. -/
def sampleVoteEnv : AccumulatorEnv :=
  { sampleEnv with
    decodeProposalProcedures := fun bytes => (Codec.decodeProposalProcedures bytes).map
      fun procedures => procedures.map fun procedure =>
        ⟨procedure.deposit, procedure.returnAddr, procedure.govAction⟩
    transactionId := fun body =>
      if body = sampleProposalBody then sampleProposalId else sampleBallotId }

/-- The proposal is made in the first transaction, and voted on in the second. -/
def sampleVoteBlock : GovBlock where
  txBodies := [0x82] ++ sampleProposalBody ++ sampleBallotBody
  txCount := 2
  invalid := ∅
  currentEpoch := 507

theorem applyBlocks_keep_latest_sample : ∃ last,
    [sampleVoteBlock].foldlM (fun gov (block : GovBlock) => block.apply sampleVoteEnv gov) emptyGov =
      .ok last ∧
    KeepsLatestVotes emptyGov ([sampleVoteBlock].flatMap (GovBlock.validTxs sampleVoteEnv)) last := by
  have ids : (([sampleVoteBlock].flatMap (GovBlock.validTxs sampleVoteEnv)).map GovTx.id) =
      [sampleProposalId, sampleBallotId] := by
    decide +kernel
  have distinct : [sampleProposalId, sampleBallotId].Nodup := by decide
  obtain ⟨last, accepted⟩ := exists_of_isOk (show ([sampleVoteBlock].foldlM
    (fun gov (block : GovBlock) => block.apply sampleVoteEnv gov) emptyGov).isOk = true by
      decide +kernel)
  refine ⟨last, accepted, applyBlocks_keep_latest List.nodup_nil (fun p none_ => nomatch none_)
    ⟨ids ▸ distinct, fun p none_ => nomatch none_⟩ accepted⟩

end Ade.Proof.Ledger
