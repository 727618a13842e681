import Ade.Ledger.SelectedBlock
import Ade.Proof.Ledger.CommitteeGate

/-! What abstaining does to a ratification, and what voting yes does. -/

namespace Ade.Proof.Ledger
open Std Library Ade.Ledger

/-! ## Sums of stake -/

theorem foldl_add_toNat (amounts : List UInt64) (start : UInt64)
    (fits : start.toNat + (amounts.map UInt64.toNat).sum < 2 ^ 64) :
    (amounts.foldl (· + ·) start).toNat = start.toNat + (amounts.map UInt64.toNat).sum := by
  induction amounts generalizing start with
  | nil => rfl
  | cons amount amounts ih =>
      rw [List.map_cons, List.sum_cons] at fits ⊢
      have first : (start + amount).toNat = start.toNat + amount.toNat := by
        rw [UInt64.toNat_add, Nat.mod_eq_of_lt (by omega)]
      rw [List.foldl_cons, ih _ (by omega), first]
      omega

theorem sumU64_toNat {amounts : List UInt64} (fits : (amounts.map UInt64.toNat).sum < 2 ^ 64) :
    (sumU64 amounts).toNat = (amounts.map UInt64.toNat).sum := by
  have zero : (0 : UInt64).toNat = 0 := rfl
  rw [sumU64, foldl_add_toNat _ _ (by omega)]
  omega

theorem sumU64_values {K : Type} [Ord K] [TransOrd K] {table : BTreeMap K UInt64}
    (fits : total table < 2 ^ 64) : (sumU64 (table.toList.map Prod.snd)).toNat = total table := by
  have same : ((table.toList.map Prod.snd).map UInt64.toNat).sum = total table := by
    rw [List.map_map]
    rfl
  rw [← same] at fits ⊢
  exact sumU64_toNat fits

theorem length_filter_eq_sum {ι : Type} (keep : ι → Bool) (xs : List ι) :
    (xs.filter keep).length = (xs.map fun x => (keep x).toNat).sum := by
  induction xs with
  | nil => rfl
  | cons x xs ih =>
      rw [List.filter_cons, List.map_cons, List.sum_cons, ← ih]
      cases keep x <;> simp [Nat.add_comm]

section Votes

variable {K : Type} (stakeOf : K → UInt64)

/-- The stake of the voters with a certain vote, without a bound. -/
def stakeWith (vote : Vote) (votes : List (K × Vote)) : Nat :=
  (votes.map fun entry => if entry.2 = vote then (stakeOf entry.1).toNat else 0).sum

theorem stakeWith_eq (vote : Vote) (votes : List (K × Vote)) :
    stakeWith stakeOf vote votes =
      (((votes.filter fun entry => entry.2 = vote).map fun entry => stakeOf entry.1).map
        UInt64.toNat).sum := by
  unfold stakeWith
  induction votes with
  | nil => rfl
  | cons entry votes ih =>
      rw [List.map_cons, List.sum_cons, ih, List.filter_cons]
      by_cases voted : entry.2 = vote <;> simp [voted]

theorem votedStake_toNat {vote : Vote} {votes : List (K × Vote)}
    (fits : stakeWith stakeOf vote votes < 2 ^ 64) :
    (RatificationInputs.votedStake stakeOf vote votes).toNat = stakeWith stakeOf vote votes := by
  rw [stakeWith_eq] at fits ⊢
  exact sumU64_toNat fits

/-- Different votes are counted for different voters. -/
theorem stakeWith_add_le {first second : Vote} (differ : first ≠ second) (votes : List (K × Vote)) :
    stakeWith stakeOf first votes + stakeWith stakeOf second votes ≤
      (votes.map fun entry => (stakeOf entry.1).toNat).sum := by
  unfold stakeWith
  induction votes with
  | nil => exact Nat.le_refl 0
  | cons entry votes ih =>
      simp only [List.map_cons, List.sum_cons]
      by_cases voted : entry.2 = first
      · have other : ¬ entry.2 = second := fun same => differ (voted.symm.trans same)
        rw [if_pos voted, if_neg other]
        omega
      · rw [if_neg voted]
        split_ifs <;> omega

variable [DecidableEq K]

theorem sum_upsertVote_le {weight : K × Vote → Nat} {voter : K} {vote : Vote}
    (raises : ∀ before, weight (voter, before) ≤ weight (voter, vote)) (votes : List (K × Vote)) :
    (votes.map weight).sum ≤ ((upsertVote voter vote votes).map weight).sum := by
  induction votes with
  | nil => exact Nat.zero_le _
  | cons entry votes ih =>
      obtain ⟨key, before⟩ := entry
      unfold upsertVote
      split_ifs with same
      · dsimp only at same
        subst same
        simp only [List.map_cons, List.sum_cons]
        exact Nat.add_le_add_right (raises before) _
      · simp only [List.map_cons, List.sum_cons]
        exact Nat.add_le_add_left ih _

theorem sum_upsertVote_ge {weight : K × Vote → Nat} {voter : K} {vote : Vote}
    (drops : weight (voter, vote) = 0) (votes : List (K × Vote)) :
    ((upsertVote voter vote votes).map weight).sum ≤ (votes.map weight).sum := by
  induction votes with
  | nil => simp [upsertVote, drops]
  | cons entry votes ih =>
      obtain ⟨key, before⟩ := entry
      unfold upsertVote
      split_ifs with same
      · dsimp only at same
        subst same
        simp only [List.map_cons, List.sum_cons, drops]
        omega
      · simp only [List.map_cons, List.sum_cons]
        exact Nat.add_le_add_left ih _

theorem stakeWith_upsertVote_le (voter : K) (vote : Vote) (votes : List (K × Vote)) :
    stakeWith stakeOf vote votes ≤ stakeWith stakeOf vote (upsertVote voter vote votes) := by
  apply sum_upsertVote_le
  intro before
  dsimp only
  rw [if_pos rfl]
  split_ifs
  · exact Nat.le_refl _
  · exact Nat.zero_le _

theorem length_upsertVote_le (voter : K) (vote : Vote) (votes : List (K × Vote)) :
    (upsertVote voter vote votes).length ≤ votes.length + 1 := by
  induction votes with
  | nil => exact Nat.le_refl 1
  | cons entry votes ih =>
      unfold upsertVote
      split_ifs
      · exact Nat.le_succ _
      · exact Nat.succ_le_succ ih

theorem mem_voters_upsertVote {voter other : K} {vote : Vote} {votes : List (K × Vote)} :
    other ∈ (upsertVote voter vote votes).map Prod.fst ↔
      other = voter ∨ other ∈ votes.map Prod.fst := by
  induction votes with
  | nil => simp [upsertVote]
  | cons entry votes ih =>
      unfold upsertVote
      split_ifs with same
      · simp only [List.map_cons, List.mem_cons, same]
        tauto
      · rw [List.map_cons, List.map_cons, List.mem_cons, List.mem_cons, ih]
        tauto

theorem nodup_upsertVote {voter : K} {vote : Vote} {votes : List (K × Vote)}
    (distinct : (votes.map Prod.fst).Nodup) :
    ((upsertVote voter vote votes).map Prod.fst).Nodup := by
  induction votes with
  | nil => exact List.nodup_singleton voter
  | cons entry votes ih =>
      obtain ⟨fresh, rest⟩ := List.nodup_cons.mp distinct
      unfold upsertVote
      split_ifs with same
      · exact distinct
      · refine List.nodup_cons.mpr ⟨fun member => ?_, ih rest⟩
        rcases mem_voters_upsertVote.mp member with equal | listed
        · exact same equal
        · exact fresh listed

end Votes

/-! ## What the gates compare -/

def drepStakeOf (drepStake : DRepStakeDistribution) (credential : StakeCredential) : UInt64 :=
  amountOf drepStake (RatificationInputs.drepOf credential)

theorem meets_iff {threshold : UInt64 × UInt64} {part whole : UInt64} :
    RatificationInputs.meets threshold part whole = true ↔
      threshold.1.toNat * whole.toNat ≤ part.toNat * threshold.2.toNat := by
  simp [RatificationInputs.meets]

/-- The votes of a proposal as they are recorded: one for each voter. -/
structure Recorded (p : GovActionState) : Prop where
  dreps : (p.drepVotes.map Prod.fst).Nodup
  pools : (p.spoVotes.map Prod.fst).Nodup
  committee : p.committeeVotes.length + 1 < 2 ^ 63

/-- Distributions whose totals fit, thresholds of at most one, and a quorum of two `u64`. -/
structure Weighed (inputs : RatificationInputs) : Prop where
  drepStake : total inputs.drepStake < 2 ^ 64
  totalDRepActiveStake : inputs.totalDRepActiveStake.toNat = total inputs.drepStake
  poolStake : total inputs.poolStake < 2 ^ 64
  drepThresholds : ∀ threshold ∈ inputs.drepThresholds, threshold.1 ≤ threshold.2
  poolThresholds : ∀ threshold ∈ inputs.poolThresholds, threshold.1 ≤ threshold.2
  committeeMembers : inputs.committeeMembers.size < 2 ^ 63
  committeeQuorum : ∃ ratio, inputs.committeeQuorum = committeeQuorum ratio

theorem drepOf_injective : Function.Injective RatificationInputs.drepOf := by
  intro a b same
  cases a <;> cases b <;> simp_all [RatificationInputs.drepOf]

theorem drep_votes_le_total {p : GovActionState} (recorded : Recorded p)
    (drepStake : DRepStakeDistribution) :
    (p.drepVotes.map fun entry =>
      (amountOf drepStake (RatificationInputs.drepOf entry.1)).toNat).sum ≤ total drepStake := by
  have distinct := recorded.dreps.map drepOf_injective
  have bounded := sum_amountOf_le_total distinct drepStake
  rw [List.map_map, List.map_map] at bounded
  exact bounded

theorem pool_votes_le_total {p : GovActionState} (recorded : Recorded p)
    (poolStake : BTreeMap PoolId Coin) :
    (p.spoVotes.map fun entry => (amountOf poolStake entry.1).toNat).sum ≤ total poolStake := by
  have bounded := sum_amountOf_le_total recorded.pools poolStake
  rw [List.map_map] at bounded
  exact bounded

theorem stakeWith_le {K : Type} (stakeOf : K → UInt64) (vote : Vote) (votes : List (K × Vote)) :
    stakeWith stakeOf vote votes ≤ (votes.map fun entry => (stakeOf entry.1).toNat).sum := by
  apply List.sum_le_sum
  intro entry _
  split_ifs
  · exact Nat.le_refl _
  · exact Nat.zero_le _

/-- The threshold an action has to meet, if there is one. -/
def thresholdAt (thresholds : List (UInt64 × UInt64)) (idx : Option Nat) : Option (UInt64 × UInt64) :=
  idx.bind fun idx => thresholds[idx]?

theorem thresholdAt_le {thresholds : List (UInt64 × UInt64)} {idx : Option Nat}
    {threshold : UInt64 × UInt64} (atMostOne : ∀ threshold ∈ thresholds, threshold.1 ≤ threshold.2)
    (found : thresholdAt thresholds idx = some threshold) :
    threshold.1.toNat ≤ threshold.2.toNat := by
  obtain ⟨position, -, found⟩ := Option.bind_eq_some_iff.mp found
  exact UInt64.le_iff_toNat_le.mp (atMostOne threshold (List.mem_of_getElem? found))

/-- A gate that lets everything pass without a whole or without a denominator. -/
theorem guarded_meets_iff {threshold : UInt64 × UInt64} {part whole : UInt64} {guard : Prop}
    [Decidable guard] (atMostOne : threshold.1.toNat ≤ threshold.2.toNat)
    (guarded : guard ∨ whole = 0 ∨ threshold.2 = 0) :
    (if guard then RatificationInputs.meets threshold part whole else true) = true ↔
      threshold.1.toNat * whole.toNat ≤ part.toNat * threshold.2.toNat := by
  have zero : (0 : UInt64).toNat = 0 := rfl
  split_ifs with checked
  · exact meets_iff
  · refine iff_of_true rfl ?_
    rcases guarded with passed | empty | free
    · exact absurd passed checked
    · rw [empty, zero, Nat.mul_zero]
      exact Nat.zero_le _
    · rw [free, zero] at atMostOne
      rw [Nat.le_zero.mp atMostOne, Nat.zero_mul]
      exact Nat.zero_le _

theorem drepsAccept_iff {p : GovActionState} {inputs : RatificationInputs} {idx : Option Nat}
    (recorded : Recorded p) (weighed : Weighed inputs) :
    inputs.drepsAccept p idx = true ↔
      ∀ threshold, thresholdAt inputs.drepThresholds idx = some threshold →
        threshold.1.toNat * total inputs.drepStake ≤
          stakeWith inputs.lookupStake .yes p.drepVotes * threshold.2.toNat := by
  have fits : stakeWith inputs.lookupStake .yes p.drepVotes < 2 ^ 64 :=
    ((stakeWith_le ..).trans (drep_votes_le_total recorded _)).trans_lt weighed.drepStake
  unfold RatificationInputs.drepsAccept
  rw [← thresholdAt]
  cases found : thresholdAt inputs.drepThresholds idx with
  | none => simp
  | some threshold =>
      have atMostOne := thresholdAt_le weighed.drepThresholds found
      dsimp only
      rw [guarded_meets_iff atMostOne (by
        by_cases empty : inputs.totalDRepActiveStake = 0
        · exact .inr (.inl empty)
        by_cases free : threshold.2 = 0
        · exact .inr (.inr free)
        exact .inl ⟨UInt64.pos_iff_ne_zero.mpr empty, UInt64.pos_iff_ne_zero.mpr free⟩),
        votedStake_toNat _ fits, weighed.totalDRepActiveStake]
      simp

theorem poolsAccept_iff {p : GovActionState} {inputs : RatificationInputs} {idx : Option Nat}
    (recorded : Recorded p) (weighed : Weighed inputs) :
    inputs.poolsAccept p idx = true ↔
      ∀ threshold, thresholdAt inputs.poolThresholds idx = some threshold →
        threshold.1.toNat * (stakeWith inputs.lookupPool .yes p.spoVotes +
            stakeWith inputs.lookupPool .no p.spoVotes) ≤
          stakeWith inputs.lookupPool .yes p.spoVotes * threshold.2.toNat := by
  have bounded := ((stakeWith_add_le inputs.lookupPool (show Vote.yes ≠ .no by decide)
    p.spoVotes).trans (pool_votes_le_total recorded _)).trans_lt weighed.poolStake
  have yes : (RatificationInputs.votedStake inputs.lookupPool .yes p.spoVotes).toNat = _ :=
    votedStake_toNat inputs.lookupPool (by omega)
  have no : (RatificationInputs.votedStake inputs.lookupPool .no p.spoVotes).toNat = _ :=
    votedStake_toNat inputs.lookupPool (by omega)
  have voted : (RatificationInputs.votedStake inputs.lookupPool .yes p.spoVotes +
      RatificationInputs.votedStake inputs.lookupPool .no p.spoVotes).toNat =
        stakeWith inputs.lookupPool .yes p.spoVotes + stakeWith inputs.lookupPool .no p.spoVotes := by
    rw [UInt64.toNat_add, yes, no, Nat.mod_eq_of_lt bounded]
  unfold RatificationInputs.poolsAccept
  rw [← thresholdAt]
  cases found : thresholdAt inputs.poolThresholds idx with
  | none => simp
  | some threshold =>
      have atMostOne := thresholdAt_le weighed.poolThresholds found
      dsimp only
      rw [← ite_and, guarded_meets_iff atMostOne (by
        by_cases empty : RatificationInputs.votedStake inputs.lookupPool .yes p.spoVotes +
            RatificationInputs.votedStake inputs.lookupPool .no p.spoVotes = 0
        · exact .inr (.inl empty)
        by_cases free : threshold.2 = 0
        · exact .inr (.inr free)
        exact .inl ⟨UInt64.pos_iff_ne_zero.mpr free, UInt64.pos_iff_ne_zero.mpr empty⟩),
        voted, yes]
      simp

/-! ## A vote changed to yes -/

inductive YesVote where
  | committee (hot : StakeCredential)
  | drep (credential : StakeCredential)
  | pool (hash : Hash28)

def withYes (p : GovActionState) : YesVote → GovActionState
  | .committee hot => { p with committeeVotes := upsertVote hot .yes p.committeeVotes }
  | .drep credential => { p with drepVotes := upsertVote credential .yes p.drepVotes }
  | .pool hash => { p with spoVotes := upsertVote hash .yes p.spoVotes }

theorem checkRatification_iff {p : GovActionState} {actionThresholds : Option Nat × Option Nat}
    {inputs : RatificationInputs} :
    checkRatification p actionThresholds inputs = true ↔
      inputs.committeeAccepts p = true ∧ inputs.drepsAccept p actionThresholds.2 = true ∧
        inputs.poolsAccept p actionThresholds.1 = true := by
  unfold checkRatification
  split_ifs with committee dreps <;> simp_all

theorem drepsAccept_withYes {p : GovActionState} {inputs : RatificationInputs} {idx : Option Nat}
    (recorded : Recorded p) (weighed : Weighed inputs) (credential : StakeCredential)
    (accepted : inputs.drepsAccept p idx = true) :
    inputs.drepsAccept (withYes p (.drep credential)) idx = true := by
  have kept : Recorded (withYes p (.drep credential)) :=
    { recorded with dreps := nodup_upsertVote recorded.dreps }
  rw [drepsAccept_iff kept weighed]
  intro threshold found
  have before := (drepsAccept_iff recorded weighed).mp accepted threshold found
  have more := stakeWith_upsertVote_le inputs.lookupStake credential .yes p.drepVotes
  exact before.trans (Nat.mul_le_mul_right _ more)

/-- A ratio of at most one is met by yes stake on top of what met it. -/
theorem ratio_le_of_more {num den yes yes' no no' : Nat} (atMostOne : num ≤ den)
    (before : num * (yes + no) ≤ yes * den) (more : yes ≤ yes') (less : no' ≤ no) :
    num * (yes' + no') ≤ yes' * den := by
  obtain ⟨extra, rfl⟩ := Nat.exists_eq_add_of_le more
  calc num * (yes + extra + no') ≤ num * (yes + extra + no) :=
        Nat.mul_le_mul_left _ (Nat.add_le_add_left less _)
    _ = num * (yes + no) + num * extra := by ring
    _ ≤ yes * den + den * extra := Nat.add_le_add before (Nat.mul_le_mul_right _ atMostOne)
    _ = (yes + extra) * den := by ring

theorem poolsAccept_withYes {p : GovActionState} {inputs : RatificationInputs} {idx : Option Nat}
    (recorded : Recorded p) (weighed : Weighed inputs) (hash : Hash28)
    (accepted : inputs.poolsAccept p idx = true) :
    inputs.poolsAccept (withYes p (.pool hash)) idx = true := by
  have kept : Recorded (withYes p (.pool hash)) :=
    { recorded with pools := nodup_upsertVote recorded.pools }
  rw [poolsAccept_iff kept weighed]
  intro threshold found
  have before := (poolsAccept_iff recorded weighed).mp accepted threshold found
  have atMostOne := thresholdAt_le weighed.poolThresholds found
  have more := stakeWith_upsertVote_le inputs.lookupPool hash .yes p.spoVotes
  have less : stakeWith inputs.lookupPool .no (upsertVote hash .yes p.spoVotes) ≤
      stakeWith inputs.lookupPool .no p.spoVotes :=
    sum_upsertVote_ge rfl p.spoVotes
  exact ratio_le_of_more atMostOne before more less

theorem countsAsYes_yes {inputs : RatificationInputs} {hot : StakeCredential} {vote : Vote}
    (counted : inputs.countsAsYes (hot, vote) = true) : inputs.countsAsYes (hot, .yes) = true := by
  cases vote with
  | yes => exact counted
  | no => cases counted
  | abstain => cases counted

theorem committeeAccepts_of_unasked {inputs : RatificationInputs} {p : GovActionState}
    (unasked : ¬ (RatificationInputs.needsCommittee p.govAction = true ∧ inputs.activeMembers ≠ [])) :
    inputs.committeeAccepts p = true := by
  unfold RatificationInputs.committeeAccepts
  split_ifs with asked empty
  · rfl
  · exact absurd ⟨asked.1, fun none => empty (List.isEmpty_iff.mpr none)⟩ unasked
  · rfl

/-- One more yes vote counts at least as much. -/
theorem committeeAccepts_withYes {p : GovActionState} {inputs : RatificationInputs}
    (recorded : Recorded p) (weighed : Weighed inputs) (hot : StakeCredential)
    (accepted : inputs.committeeAccepts p = true) :
    inputs.committeeAccepts (withYes p (.committee hot)) = true := by
  by_cases asked : RatificationInputs.needsCommittee p.govAction = true ∧ inputs.activeMembers ≠ []
  · have length : (upsertVote hot .yes p.committeeVotes).length ≤ p.committeeVotes.length + 1 :=
      length_upsertVote_le ..
    have before : RatificationInputs.Sized inputs p :=
      ⟨by have := recorded.committee; omega, weighed.committeeMembers, weighed.committeeQuorum⟩
    have after : RatificationInputs.Sized inputs (withYes p (.committee hot)) :=
      ⟨length.trans_lt recorded.committee, weighed.committeeMembers, weighed.committeeQuorum⟩
    have more : (p.committeeVotes.filter inputs.countsAsYes).length ≤
        ((upsertVote hot .yes p.committeeVotes).filter inputs.countsAsYes).length := by
      rw [length_filter_eq_sum, length_filter_eq_sum]
      apply sum_upsertVote_le
      intro vote
      cases counted : inputs.countsAsYes (hot, vote) with
      | false => exact Nat.zero_le _
      | true => rw [countsAsYes_yes counted]
    rw [RatificationInputs.committeeAccepts_iff before asked.1 asked.2,
      ← RatificationInputs.countsAsYes_length] at accepted
    rw [RatificationInputs.committeeAccepts_iff after asked.1 asked.2,
      ← RatificationInputs.countsAsYes_length]
    exact accepted.trans (by exact_mod_cast more)
  · exact committeeAccepts_of_unasked asked

def decides (p : GovActionState) (inputs : RatificationInputs) : Bool :=
  checkRatification p (govActionThresholdIndex p.govAction) inputs

/-- No vote that is changed to yes turns an accepted proposal down. -/
def VotesMonotone (p : GovActionState) (inputs : RatificationInputs) : Prop :=
  ∀ vote : YesVote, decides p inputs = true → decides (withYes p vote) inputs = true

theorem votes_monotone {p : GovActionState} {inputs : RatificationInputs} (recorded : Recorded p)
    (weighed : Weighed inputs) : VotesMonotone p inputs := by
  intro vote accepted
  obtain ⟨committee, dreps, pools⟩ := checkRatification_iff.mp accepted
  cases vote with
  | committee hot =>
      exact checkRatification_iff.mpr
        ⟨committeeAccepts_withYes recorded weighed hot committee, dreps, pools⟩
  | drep credential =>
      exact checkRatification_iff.mpr
        ⟨committee, drepsAccept_withYes recorded weighed credential dreps, pools⟩
  | pool hash =>
      exact checkRatification_iff.mpr
        ⟨committee, dreps, poolsAccept_withYes recorded weighed hash pools⟩

/-! ## Abstaining -/

/-- The DReps that abstain by an explicit vote. -/
def abstainers (p : GovActionState) : List DRep :=
  (p.drepVotes.filter fun entry => entry.2 = .abstain).map fun entry =>
    RatificationInputs.drepOf entry.1

def withoutAbstainers (p : GovActionState) (drepStake : DRepStakeDistribution) :
    DRepStakeDistribution :=
  (abstainers p).foldl (fun rest drep => rest.erase drep) drepStake

/-- The inputs after the stake of the abstainers has been taken out. -/
def abstained (p : GovActionState) (inputs : RatificationInputs) : RatificationInputs :=
  { inputs with
    drepStake := withoutAbstainers p inputs.drepStake
    totalDRepActiveStake := sumU64 ((withoutAbstainers p inputs.drepStake).toList.map Prod.snd) }

def AbstentionNeutral (p : GovActionState) (inputs : RatificationInputs) : Prop :=
  decides p inputs = decides p (abstained p inputs)

section
variable {p : GovActionState} (recorded : Recorded p) (drepStake : DRepStakeDistribution)
include recorded

theorem nodup_abstainers : (abstainers p).Nodup := by
  have voters : ((p.drepVotes.map Prod.fst).map RatificationInputs.drepOf).Nodup :=
    recorded.dreps.map drepOf_injective
  rw [List.map_map] at voters
  exact voters.sublist (List.filter_sublist.map _)

theorem total_withoutAbstainers : total (withoutAbstainers p drepStake) +
    stakeWith (drepStakeOf drepStake) .abstain p.drepVotes = total drepStake := by
  have erased := total_foldl_erase (nodup_abstainers recorded) drepStake
  rw [stakeWith_eq, ← erased]
  unfold abstainers
  rw [List.map_map, List.map_map]
  rfl

/-- The yes votes are not the abstainers'. -/
theorem stakeWith_withoutAbstainers :
    stakeWith (drepStakeOf (withoutAbstainers p drepStake)) .yes p.drepVotes =
      stakeWith (drepStakeOf drepStake) .yes p.drepVotes := by
  unfold stakeWith
  congr 1
  apply List.map_congr_left
  intro entry voted
  split_ifs with yes
  · have other : RatificationInputs.drepOf entry.1 ∉ abstainers p := by
      intro abstains
      obtain ⟨abstainer, listed, same⟩ := List.mem_map.mp abstains
      obtain ⟨votedToo, abstained⟩ := List.mem_filter.mp listed
      have equal : abstainer = entry :=
        List.inj_on_of_nodup_map recorded.dreps votedToo voted (drepOf_injective same)
      rw [equal, yes] at abstained
      cases abstained
    unfold drepStakeOf amountOf withoutAbstainers
    rw [BTreeMap.getElem?_foldl_erase, if_neg other]
  · rfl

end

theorem weighed_abstained {p : GovActionState} {inputs : RatificationInputs} (recorded : Recorded p)
    (weighed : Weighed inputs) : Weighed (abstained p inputs) := by
  have removed := total_withoutAbstainers recorded inputs.drepStake
  have fits : total (withoutAbstainers p inputs.drepStake) < 2 ^ 64 := by
    have bounded := weighed.drepStake
    omega
  exact { weighed with drepStake := fits, totalDRepActiveStake := sumU64_values fits }

/-- The stake of the voters that vote in a certain way. -/
def stakeVoting (vote : Vote) (p : GovActionState) (drepStake : DRepStakeDistribution) : Nat :=
  stakeWith (drepStakeOf drepStake) vote p.drepVotes

theorem drepsAccept_abstained_iff {p : GovActionState} {inputs : RatificationInputs} {idx : Option Nat}
    (recorded : Recorded p) (weighed : Weighed inputs) :
    (abstained p inputs).drepsAccept p idx = true ↔
      ∀ threshold, thresholdAt inputs.drepThresholds idx = some threshold →
        threshold.1.toNat * (total inputs.drepStake - stakeVoting .abstain p inputs.drepStake) ≤
          stakeVoting .yes p inputs.drepStake * threshold.2.toNat := by
  have removed := total_withoutAbstainers recorded inputs.drepStake
  have left : total (abstained p inputs).drepStake =
      total inputs.drepStake - stakeVoting .abstain p inputs.drepStake := by
    unfold stakeVoting
    exact Nat.eq_sub_of_add_eq removed
  have yes : stakeWith (abstained p inputs).lookupStake .yes p.drepVotes =
      stakeVoting .yes p inputs.drepStake :=
    stakeWith_withoutAbstainers recorded inputs.drepStake
  rw [drepsAccept_iff recorded (weighed_abstained recorded weighed), left, yes]
  exact Iff.rfl

theorem decides_congr_dreps {p : GovActionState} {inputs : RatificationInputs}
    (same : inputs.drepsAccept p (govActionThresholdIndex p.govAction).2 =
      (abstained p inputs).drepsAccept p (govActionThresholdIndex p.govAction).2) :
    AbstentionNeutral p inputs := by
  unfold AbstentionNeutral decides checkRatification
  rw [← same]
  rfl

/-- Abstaining is harmless for any thresholds: nothing abstains, or nothing votes yes and something
does not abstain. -/
def AbstentionHarmless (p : GovActionState) (drepStake : DRepStakeDistribution) : Prop :=
  p.govAction = .infoAction ∨ stakeVoting .abstain p drepStake = 0 ∨
    (stakeVoting .yes p drepStake = 0 ∧ stakeVoting .abstain p drepStake < total drepStake)

theorem abstention_neutral {p : GovActionState} {inputs : RatificationInputs} (recorded : Recorded p)
    (weighed : Weighed inputs) (harmless : AbstentionHarmless p inputs.drepStake) :
    AbstentionNeutral p inputs := by
  apply decides_congr_dreps
  rw [Bool.eq_iff_iff, drepsAccept_iff recorded weighed, drepsAccept_abstained_iff recorded weighed]
  change (∀ threshold, _ → _ ≤ stakeVoting .yes p inputs.drepStake * _) ↔ _
  rcases harmless with info | none | ⟨noYes, present⟩
  · have unasked : thresholdAt inputs.drepThresholds (govActionThresholdIndex p.govAction).2 = none := by
      rw [info]
      rfl
    simp [unasked]
  · rw [none]
    exact Iff.rfl
  · have left : 0 < total inputs.drepStake - stakeVoting .abstain p inputs.drepStake := by omega
    have whole : 0 < total inputs.drepStake := by omega
    simp only [noYes, Nat.zero_mul, Nat.le_zero, Nat.mul_eq_zero, left.ne', whole.ne']

/-! ### Thresholds that tell the ratios apart -/

def onlyDReps (drepStake : DRepStakeDistribution) (threshold : UInt64 × UInt64) :
    RatificationInputs where
  totalDRepActiveStake := sumU64 (drepStake.toList.map Prod.snd)
  drepStake := drepStake
  poolStake := ∅
  committeeMembers := ∅
  committeeQuorum := committeeQuorum (1, 1)
  poolThresholds := []
  drepThresholds := List.replicate 10 threshold
  currentEpoch := 0
  committeeHotKeys := ∅

theorem weighed_onlyDReps {drepStake : DRepStakeDistribution} {threshold : UInt64 × UInt64}
    (fits : total drepStake < 2 ^ 64) (atMostOne : threshold.1 ≤ threshold.2) :
    Weighed (onlyDReps drepStake threshold) where
  drepStake := fits
  totalDRepActiveStake := sumU64_values fits
  poolStake := show total (∅ : BTreeMap PoolId Coin) < 2 ^ 64 by decide
  drepThresholds := fun other listed => (List.eq_of_mem_replicate listed).symm ▸ atMostOne
  poolThresholds := by simp [onlyDReps]
  committeeMembers := show (∅ : BTreeMap StakeCredential UInt64).size < 2 ^ 63 by decide
  committeeQuorum := ⟨(1, 1), rfl⟩

theorem thresholdAt_onlyDReps {drepStake : DRepStakeDistribution} {threshold : UInt64 × UInt64}
    {action : GovAction} (asked : action ≠ .infoAction) :
    thresholdAt (onlyDReps drepStake threshold).drepThresholds (govActionThresholdIndex action).2 =
      some threshold := by
  cases action with
  | infoAction => exact absurd rfl asked
  | _ => rfl

/-- The threshold that the stake without the abstainers' just meets tells the two ratios apart. -/
theorem not_neutral {p : GovActionState} {drepStake : DRepStakeDistribution} (recorded : Recorded p)
    (fits : total drepStake < 2 ^ 64) (asked : p.govAction ≠ .infoAction)
    {threshold : UInt64 × UInt64} (atMostOne : threshold.1 ≤ threshold.2)
    (short : stakeVoting .yes p drepStake * threshold.2.toNat < threshold.1.toNat * total drepStake)
    (enough : threshold.1.toNat * (total drepStake - stakeVoting .abstain p drepStake) ≤
      stakeVoting .yes p drepStake * threshold.2.toNat) :
    ¬ AbstentionNeutral p (onlyDReps drepStake threshold) := by
  have weighed := @weighed_onlyDReps drepStake threshold fits atMostOne
  have found := @thresholdAt_onlyDReps drepStake threshold p.govAction asked
  have refused : decides p (onlyDReps drepStake threshold) = false := by
    rw [Bool.eq_false_iff]
    intro accepted
    have met := (drepsAccept_iff recorded weighed).mp (checkRatification_iff.mp accepted).2.1 _ found
    exact absurd met (Nat.not_le.mpr short)
  have dreps : (abstained p (onlyDReps drepStake threshold)).drepsAccept p
      (govActionThresholdIndex p.govAction).2 = true := by
    rw [drepsAccept_abstained_iff recorded weighed, found]
    rintro other ⟨⟩
    exact enough
  have pools : (abstained p (onlyDReps drepStake threshold)).poolsAccept p
      (govActionThresholdIndex p.govAction).1 = true := by
    unfold RatificationInputs.poolsAccept
    cases (govActionThresholdIndex p.govAction).1 <;> rfl
  have committee : (abstained p (onlyDReps drepStake threshold)).committeeAccepts p = true := by
    apply committeeAccepts_of_unasked
    exact fun asked => asked.2 rfl
  have accepted : decides p (abstained p (onlyDReps drepStake threshold)) = true :=
    checkRatification_iff.mpr ⟨committee, dreps, pools⟩
  intro neutral
  unfold AbstentionNeutral at neutral
  rw [refused, accepted] at neutral
  cases neutral

theorem stakeVoting_add_le {p : GovActionState} (recorded : Recorded p)
    (drepStake : DRepStakeDistribution) :
    stakeVoting .yes p drepStake + stakeVoting .abstain p drepStake ≤ total drepStake :=
  (stakeWith_add_le _ (by decide) _).trans (drep_votes_le_total recorded drepStake)

/-- Over all thresholds of at most one, a vote to abstain leaves the verdict as if its stake were not
there, and a vote changed to yes never turns an acceptance down, exactly where abstaining is
harmless. -/
theorem votes_sound_iff (p : GovActionState) (drepStake : DRepStakeDistribution)
    (recorded : Recorded p) (fits : total drepStake < 2 ^ 64) :
    (∀ inputs : RatificationInputs, inputs.drepStake = drepStake → Weighed inputs →
        AbstentionNeutral p inputs ∧ VotesMonotone p inputs) ↔
      AbstentionHarmless p drepStake := by
  constructor
  · intro sound
    by_contra harmful
    unfold AbstentionHarmless at harmful
    push Not at harmful
    obtain ⟨asked, abstains, harmful⟩ := harmful
    have bounded := stakeVoting_add_le recorded drepStake
    have refute : ∀ threshold : UInt64 × UInt64, threshold.1 ≤ threshold.2 →
        stakeVoting .yes p drepStake * threshold.2.toNat < threshold.1.toNat * total drepStake →
        threshold.1.toNat * (total drepStake - stakeVoting .abstain p drepStake) ≤
          stakeVoting .yes p drepStake * threshold.2.toNat → False := by
      intro threshold atMostOne short enough
      exact not_neutral recorded fits asked atMostOne short enough
        (sound _ rfl (weighed_onlyDReps fits atMostOne)).1
    by_cases someYes : stakeVoting .yes p drepStake = 0
    · have all := harmful someYes
      have one : (1 : UInt64).toNat = 1 := rfl
      apply refute (1, 1) (UInt64.le_refl 1)
      · rw [someYes, one]
        omega
      · rw [Nat.sub_eq_zero_of_le all, Nat.mul_zero]
        exact Nat.zero_le _
    · have left : 0 < total drepStake - stakeVoting .abstain p drepStake := by omega
      have yes : (UInt64.ofNat (stakeVoting .yes p drepStake)).toNat = stakeVoting .yes p drepStake :=
        UInt64.toNat_ofNat_of_lt' (show _ < 2 ^ 64 by omega)
      have rest : (UInt64.ofNat (total drepStake - stakeVoting .abstain p drepStake)).toNat =
          total drepStake - stakeVoting .abstain p drepStake :=
        UInt64.toNat_ofNat_of_lt' (show _ < 2 ^ 64 by omega)
      apply refute (UInt64.ofNat (stakeVoting .yes p drepStake),
        UInt64.ofNat (total drepStake - stakeVoting .abstain p drepStake))
      · rw [UInt64.le_iff_toNat_le, yes, rest]
        omega
      · rw [yes, rest]
        exact Nat.mul_lt_mul_of_pos_left (by omega) (Nat.pos_of_ne_zero someYes)
      · rw [yes, rest]
  · intro harmless inputs same weighed
    rw [← same] at harmless
    exact ⟨abstention_neutral recorded weighed harmless, votes_monotone recorded weighed⟩

/-! ### Two DReps of equal stake -/

section Samples

def sampleVoter (byte : UInt8) : StakeCredential := .keyHash (Vector.replicate 28 byte)

def sampleStake : DRepStakeDistribution :=
  ((∅ : DRepStakeDistribution).insert (RatificationInputs.drepOf (sampleVoter 1)) 1).insert
    (RatificationInputs.drepOf (sampleVoter 2)) 1

def sampleVoted (second : Vote) : GovActionState where
  actionId := ⟨Vector.replicate 32 0, 0⟩
  committeeVotes := []
  drepVotes := [(sampleVoter 1, .yes), (sampleVoter 2, second)]
  spoVotes := []
  deposit := 0
  returnAddr := []
  govAction := .newConstitution none []
  proposedIn := 0
  expiresAfter := 10

theorem recorded_sampleVoted (second : Vote) : Recorded (sampleVoted second) where
  dreps := show [sampleVoter 1, sampleVoter 2].Nodup by decide
  pools := List.nodup_nil
  committee := show ([] : List (StakeCredential × Vote)).length + 1 < 2 ^ 63 by decide

theorem sampleStake_total : total sampleStake = 2 := by decide +kernel

theorem votes_sound_of_no_abstention :
    AbstentionHarmless (sampleVoted .no) sampleStake ∧
      ∀ inputs : RatificationInputs, inputs.drepStake = sampleStake → Weighed inputs →
        AbstentionNeutral (sampleVoted .no) inputs ∧ VotesMonotone (sampleVoted .no) inputs := by
  have harmless : AbstentionHarmless (sampleVoted .no) sampleStake := .inr (.inl (by decide))
  refine ⟨harmless, (votes_sound_iff (sampleVoted .no) sampleStake (recorded_sampleVoted .no) ?_).mpr
    harmless⟩
  rw [sampleStake_total]
  decide

/-- The only yes vote meets a threshold of one without the abstainer's stake, not with it. -/
theorem abstention_turns_down :
    Recorded (sampleVoted .abstain) ∧ Weighed (onlyDReps sampleStake (1, 1)) ∧
      ¬ AbstentionNeutral (sampleVoted .abstain) (onlyDReps sampleStake (1, 1)) := by
  have fits : total sampleStake < 2 ^ 64 := by
    rw [sampleStake_total]
    decide
  refine ⟨recorded_sampleVoted .abstain, weighed_onlyDReps fits (by decide), ?_⟩
  apply not_neutral (recorded_sampleVoted .abstain) fits
  · exact fun same => nomatch same
  · decide
  · decide +kernel
  · decide +kernel

end Samples

end Ade.Proof.Ledger
