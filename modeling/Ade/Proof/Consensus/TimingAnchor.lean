import Ade.Proof.Consensus.SlotTime

/-! The compact anchor answers as the full schedule does, from its first instant on. -/

namespace Ade.Proof.Consensus
open Library Ade.Consensus

variable {blake2b256 : Bytes → Hash32} {schedule : TimedSchedule} {anchor : DerivedTimingAnchor}
  {slot : SlotNo} {domainStartMs capturedMs segStartMs : UInt64} {era : EraSummary}
  {rest : List EraSummary}

/-! ## Segments -/

/-- A segment that is an era with its start. -/
structure Times (calendar : Calendar) (era : EraSummary) (segment : TimingSegment) : Prop where
  startSlot : segment.startSlot = era.startSlot
  slotLengthMs : segment.slotLengthMs = era.slotLengthMs
  startMs : segment.startMs.toNat = calendar.start era.startSlot.toNat

theorem times_of_timingSegments {calendar : Calendar} {segments : List TimingSegment}
    (anchored : Anchored calendar segStartMs era rest)
    (walked : timingSegments segStartMs (era :: rest) = .ok segments) :
    List.Forall₂ (Times calendar) (era :: rest) segments := by
  induction rest generalizing era segStartMs segments with
  | nil =>
      rw [timingSegments, if_neg anchored.nonzero] at walked
      cases walked
      exact .cons ⟨rfl, rfl, anchored.start⟩ .nil
  | cons next rest ih =>
      rw [timingSegments, if_neg anchored.nonzero,
        if_neg (UInt64.not_lt.mpr (UInt64.le_of_lt anchored.increasing))] at walked
      obtain ⟨nextMs, ends, walked⟩ := bind_ok walked
      obtain ⟨later, rest_walked, done⟩ := bind_ok walked
      cases done
      exact .cons ⟨rfl, rfl, anchored.start⟩ (ih (anchored.advance (okOr_eq_ok.mp ends)) rest_walked)

theorem start_lt_of_times {calendar : Calendar} {eras : List EraSummary}
    {segments : List TimingSegment} (times : List.Forall₂ (Times calendar) eras segments)
    (member : era ∈ eras) : calendar.start era.startSlot.toNat < 2 ^ 64 := by
  induction times with
  | nil => cases member
  | @cons first segment _ _ timed _ ih =>
      rcases List.mem_cons.mp member with rfl | member
      · exact timed.startMs ▸ segment.startMs.toNat_lt
      · exact ih member

theorem Times.anchored {calendar : Calendar} {segment : TimingSegment}
    (times : Times calendar era segment) (stretches : Stretches calendar (era :: rest))
    (ordered : InOrder (era :: rest)) (lengths : ∀ other ∈ era :: rest, other.slotLengthMs ≠ 0) :
    Anchored calendar segment.startMs era rest :=
  ⟨stretches, ordered, lengths, times.startMs⟩

/-- The anchor's own walk, from any era that its instants are not before. -/
theorem slotInAnchor_eq_ok {calendar : Calendar} {segments : List TimingSegment}
    (times : List.Forall₂ (Times calendar) (era :: rest) segments)
    (stretches : Stretches calendar (era :: rest)) (ordered : InOrder (era :: rest))
    (lengths : ∀ other ∈ era :: rest, other.slotLengthMs ≠ 0)
    (after : calendar.start era.startSlot.toNat ≤ capturedMs.toNat) :
    DerivedTimingAnchor.slotInAnchor capturedMs segments = .ok slot ↔
      calendar.Covers slot.toNat capturedMs.toNat := by
  induction rest generalizing era segments with
  | nil =>
      cases times with
      | @cons _ segment _ _ timed none =>
          cases none
          have anchored := timed.anchored stretches ordered lengths
          have started : segment.startMs ≤ capturedMs :=
            UInt64.le_iff_toNat_le.mpr (timed.startMs.symm ▸ after)
          rw [DerivedTimingAnchor.slotInAnchor, okOr_eq_ok, timed.startSlot, timed.slotLengthMs]
          exact anchored.slotWithin_covers_last started
  | cons next rest ih =>
      cases times with
      | @cons _ segment _ _ timed later =>
          have anchored := timed.anchored stretches ordered lengths
          have started : segment.startMs ≤ capturedMs :=
            UInt64.le_iff_toNat_le.mpr (timed.startMs.symm ▸ after)
          cases later with
          | @cons _ nextSegment _ segments nextTimed later =>
              rw [DerivedTimingAnchor.slotInAnchor]
              split_ifs with before
              · rw [UInt64.lt_iff_toNat_lt, nextTimed.startMs] at before
                rw [okOr_eq_ok, timed.startSlot, timed.slotLengthMs]
                exact anchored.slotWithin_covers started before
              · have reached := UInt64.le_iff_toNat_le.mp (UInt64.not_lt.mp before)
                rw [nextTimed.startMs] at reached
                exact ih (.cons nextTimed later) stretches.2 (List.isChain_cons_cons.mp ordered).2
                  (fun other member => lengths other (List.mem_cons_of_mem _ member)) reached

/-! ## The kept segments -/

theorem Stretches.drop {calendar : Calendar} {eras : List EraSummary}
    (stretches : Stretches calendar eras) (count : Nat) : Stretches calendar (eras.drop count) := by
  induction count generalizing eras with
  | zero => exact stretches
  | succ count ih =>
      match eras, stretches with
      | [], _ => trivial
      | [era], _ => cases count <;> trivial
      | era :: next :: rest, stretches => exact ih stretches.2

theorem rposition_eq_some {α : Type} {items : List α} {found : α → Bool} {position : Nat}
    (at_position : rposition items found = some position) :
    ∃ item, items[position]? = some item ∧ found item = true := by
  unfold rposition at at_position
  obtain ⟨back, searched, rfl⟩ := Option.map_eq_some_iff.mp at_position
  obtain ⟨inside, holds, -⟩ := List.findIdx?_eq_some_iff_getElem.mp searched
  rw [List.getElem_reverse] at holds
  exact ⟨_, List.getElem?_eq_getElem _, holds⟩

/-- What a derived anchor keeps of its schedule. -/
structure Derived (schedule : TimedSchedule) (domainStartMs : UInt64) (anchor : DerivedTimingAnchor)
    (era : EraSummary) (rest : List EraSummary) : Prop where
  domain : anchor.domainStartMs = domainStartMs
  converted : slotAt schedule domainStartMs = .ok anchor.domainStartSlot
  stretches : Stretches (calendar schedule) (era :: rest)
  ordered : InOrder (era :: rest)
  lengths : ∀ other ∈ era :: rest, other.slotLengthMs ≠ 0
  low : era.startSlot ≤ anchor.domainStartSlot
  segments : List.Forall₂ (Times (calendar schedule)) (era :: rest) anchor.segments
  /-- The walk over the whole schedule has computed every start. -/
  fits : ∀ other ∈ schedule.eras, (calendar schedule).start other.startSlot.toNat < 2 ^ 64

theorem exists_derived (fromZero : FromZero schedule)
    (derived : DerivedTimingAnchor.derive blake2b256 schedule domainStartMs = .ok anchor) :
    ∃ era rest, Derived schedule domainStartMs anchor era rest := by
  unfold DerivedTimingAnchor.derive at derived
  obtain ⟨domainStartSlot, converted, derived⟩ := bind_ok derived
  obtain ⟨all, walked, derived⟩ := bind_ok derived
  obtain ⟨firstIdx, chosen, derived⟩ := bind_ok derived
  dsimp only at derived
  by_cases empty : (all.drop firstIdx).isEmpty = true
  · rw [if_pos empty] at derived
    cases derived
  · rw [if_neg empty] at derived
    cases derived
    obtain ⟨first, others, eras, -, anchored⟩ := exists_anchored fromZero
    rw [eras] at walked
    have times := times_of_timingSegments anchored walked
    rw [← eras] at times
    have kept := List.forall₂_drop firstIdx times
    obtain ⟨segment, at_first, low⟩ := rposition_eq_some (okOr_eq_ok.mp chosen)
    rw [← List.head?_drop] at at_first
    cases dropped : schedule.eras.drop firstIdx with
    | nil =>
        rw [dropped] at kept
        cases all_dropped : all.drop firstIdx with
        | nil => exact absurd (by rw [all_dropped]; rfl) empty
        | cons => rw [all_dropped] at kept; cases kept
    | cons era rest =>
        rw [dropped] at kept
        have member : ∀ other ∈ era :: rest, other ∈ schedule.eras := fun other inside =>
          List.mem_of_mem_drop (dropped ▸ inside)
        refine ⟨era, rest, rfl, mapError_ok converted, ?_, ?_, ?_, ?_, kept, ?_⟩
        · exact dropped ▸ Stretches.drop (stretches_calendar schedule) firstIdx
        · exact dropped ▸ List.IsChain.drop schedule.monotone firstIdx
        · exact fun other inside => (schedule.lengths other (member other inside)).1
        · obtain ⟨head, tail, timed, -, segments⟩ := List.forall₂_cons_left_iff.mp kept
          rw [segments] at at_first
          cases at_first
          exact timed.startSlot ▸ of_decide_eq_true low
        · exact fun other inside => start_lt_of_times times inside

theorem Derived.covers (fromZero : FromZero schedule)
    (derived : Derived schedule domainStartMs anchor era rest) :
    (calendar schedule).Covers anchor.domainStartSlot.toNat domainStartMs.toNat :=
  ((slotAt_eq_ok fromZero).mp derived.converted).1

/-- Once every start fits, the full schedule answers wherever its calendar does. -/
theorem Derived.slotAt_eq_ok (fromZero : FromZero schedule)
    (derived : Derived schedule domainStartMs anchor era rest) :
    slotAt schedule capturedMs = .ok slot ↔ (calendar schedule).Covers slot.toNat capturedMs.toNat := by
  rw [Consensus.slotAt_eq_ok fromZero]
  exact and_iff_left fun next found => derived.fits next (List.mem_of_find?_eq_some found)

theorem anchor_slotAt_iff (fromZero : FromZero schedule)
    (derived : Derived schedule domainStartMs anchor era rest) (le : domainStartMs ≤ capturedMs) :
    anchor.slotAt capturedMs = .ok slot ↔ slotAt schedule capturedMs = .ok slot := by
  have begun : (calendar schedule).start era.startSlot.toNat ≤ capturedMs.toNat :=
    calc (calendar schedule).start era.startSlot.toNat
      _ ≤ (calendar schedule).start anchor.domainStartSlot.toNat :=
        (calendar schedule).start_le_start.mpr (UInt64.le_iff_toNat_le.mp derived.low)
      _ ≤ domainStartMs.toNat := (Derived.covers fromZero derived).1
      _ ≤ capturedMs.toNat := UInt64.le_iff_toNat_le.mp le
  rw [Derived.slotAt_eq_ok fromZero derived, DerivedTimingAnchor.slotAt, derived.domain,
    if_neg (UInt64.not_lt.mpr le)]
  exact slotInAnchor_eq_ok derived.segments derived.stretches derived.ordered derived.lengths begun

theorem derived_at_start (fromZero : FromZero schedule)
    (started : slotStartTimeMs schedule slot = .ok domainStartMs)
    (derived : Derived schedule domainStartMs anchor era rest) : anchor.domainStartSlot = slot := by
  have start := (slotStartTimeMs_eq_ok fromZero).mp started
  have covers := (calendar schedule).covers_start slot.toNat
  rw [← start] at covers
  exact UInt64.toNat_inj.mp ((Derived.covers fromZero derived).unique covers)

/-- A derived anchor answers as its schedule does, and its round trip never fails. -/
theorem anchor_answers_as_schedule (blake2b256 : Bytes → Hash32) (schedule : TimedSchedule)
    (fromZero : FromZero schedule) :
    (∀ domainStartMs anchor, DerivedTimingAnchor.derive blake2b256 schedule domainStartMs = .ok anchor →
      ∀ capturedMs slot, domainStartMs ≤ capturedMs →
        (anchor.slotAt capturedMs = .ok slot ↔ slotAt schedule capturedMs = .ok slot)) ∧
      ∀ slot startMs anchor, slotStartTimeMs schedule slot = .ok startMs →
        DerivedTimingAnchor.derive blake2b256 schedule startMs = .ok anchor →
          DerivedTimingAnchor.deriveForBootstrapAnchor blake2b256 schedule slot = .ok anchor := by
  constructor
  · intro domainStartMs anchor ok capturedMs slot le
    obtain ⟨era, rest, derived⟩ := exists_derived fromZero ok
    exact anchor_slotAt_iff fromZero derived le
  · intro slot startMs anchor started ok
    obtain ⟨era, rest, derived⟩ := exists_derived fromZero ok
    have same := derived_at_start fromZero started derived
    unfold DerivedTimingAnchor.deriveForBootstrapAnchor
    rw [started]
    simp only [Except.mapError, bind, Except.bind, ok, same]
    exact if_neg (not_not.mpr rfl)

section Samples

/-- Without a hash, for the shape alone. -/
def sampleCommitment (_ : Bytes) : Hash32 := Vector.replicate 32 0

def sampleAnchor : DerivedTimingAnchor where
  domainStartMs := 202005
  domainStartSlot := 12
  segments := [⟨10, 1000, 200005⟩]
  sourceScheduleCommitment := Vector.replicate 32 0

theorem sampleAnchor_derived :
    DerivedTimingAnchor.derive sampleCommitment sampleTimed 202005 = .ok sampleAnchor := by
  decide

theorem anchor_answers_in_last_era :
    sampleAnchor.slotAt 999999 = .ok 809 ∧
      DerivedTimingAnchor.deriveForBootstrapAnchor sampleCommitment sampleTimed 12 = .ok sampleAnchor := by
  have fromZero : FromZero sampleTimed := by
    intro first found
    cases found
    rfl
  obtain ⟨answers, round_trip⟩ := anchor_answers_as_schedule sampleCommitment sampleTimed fromZero
  have started : slotStartTimeMs sampleTimed 12 = .ok 202005 := by
    decide
  have converted : slotAt sampleTimed 999999 = .ok 809 := by
    decide
  exact ⟨(answers _ _ sampleAnchor_derived 999999 809 (by decide)).mpr converted,
    round_trip 12 202005 _ started sampleAnchor_derived⟩

end Samples

end Ade.Proof.Consensus
