import Ade.Consensus.EraTime
import Ade.Library.Calendar
import Ade.Library.Except

/-! The walks over a schedule, by time, by slot and by located era, against one calendar. -/

namespace Ade.Proof.Consensus
open Library Ade.Consensus

/-! ## The calendar of a schedule -/

/-- The length of a slot, from the era that it is in. -/
def slotLength : List EraSummary → Nat → Nat
  | [], _ => 1
  | [era], _ => era.slotLengthMs.toNat
  | era :: next :: rest, n =>
      if n < next.startSlot.toNat then era.slotLengthMs.toNat else slotLength (next :: rest) n

theorem slotLength_pos {eras : List EraSummary}
    (lengths : ∀ era ∈ eras, era.slotLengthMs ≠ 0) (n : Nat) : 0 < slotLength eras n := by
  have positive : ∀ era ∈ eras, 0 < era.slotLengthMs.toNat := by
    intro era member
    have nonzero := lengths era member
    rw [ne_eq, ← UInt32.toNat_inj] at nonzero
    exact Nat.pos_of_ne_zero nonzero
  induction eras with
  | nil => exact Nat.one_pos
  | cons era rest ih =>
      cases rest with
      | nil => exact positive era (List.mem_cons_self ..)
      | cons next rest =>
          rw [slotLength]
          split_ifs
          · exact positive era (List.mem_cons_self ..)
          · exact ih (fun other member => lengths other (List.mem_cons_of_mem _ member))
              fun other member => positive other (List.mem_cons_of_mem _ member)

def calendar (schedule : TimedSchedule) : Calendar where
  origin := schedule.systemStartUnixMs.toNat
  length := slotLength schedule.eras
  positive := slotLength_pos fun era member => (schedule.lengths era member).1

abbrev InOrder (eras : List EraSummary) : Prop :=
  eras.IsChain fun era next => era.startSlot < next.startSlot

/-- From the start of each era to the start of the next one, slots have that era's length. -/
def Stretches (calendar : Calendar) : List EraSummary → Prop
  | [] => True
  | [era] => ∀ n, era.startSlot.toNat ≤ n → calendar.length n = era.slotLengthMs.toNat
  | era :: next :: rest =>
      (∀ n, era.startSlot.toNat ≤ n → n < next.startSlot.toNat →
        calendar.length n = era.slotLengthMs.toNat) ∧ Stretches calendar (next :: rest)

theorem stretches_of_slotLength {calendar : Calendar} {eras : List EraSummary} (ordered : InOrder eras)
    (same : ∀ first ∈ eras.head?, ∀ n, first.startSlot.toNat ≤ n →
      calendar.length n = slotLength eras n) :
    Stretches calendar eras := by
  induction eras with
  | nil => trivial
  | cons era rest ih =>
      have from_start : ∀ n, era.startSlot.toNat ≤ n → calendar.length n = slotLength (era :: rest) n :=
        same era rfl
      cases rest with
      | nil => exact from_start
      | cons next rest =>
          obtain ⟨increasing, ordered⟩ := List.isChain_cons_cons.mp ordered
          have before : era.startSlot.toNat < next.startSlot.toNat := UInt64.lt_iff_toNat_lt.mp increasing
          refine ⟨fun n low high => (from_start n low).trans (if_pos high), ih ordered ?_⟩
          intro first found n low
          cases found
          exact (from_start n (Nat.le_trans (Nat.le_of_lt before) low)).trans
            (if_neg (Nat.not_lt.mpr low))

theorem stretches_calendar (schedule : TimedSchedule) :
    Stretches (calendar schedule) schedule.eras :=
  stretches_of_slotLength schedule.monotone fun _ _ _ _ => rfl

/-! ## One segment -/

section Segments

variable {calendar : Calendar} {era next : EraSummary} {rest : List EraSummary}
  {segStartMs capturedMs startMs : UInt64} {slot : SlotNo}

theorem okOr_eq_ok {ε α : Type} {failure : ε} {found : Option α} {value : α} :
    okOr failure found = .ok value ↔ found = some value := by
  cases found <;> simp [okOr]

/-- The time of a slot at an era's length, whether or not the slot is in the era. -/
theorem timeWithin_eq_some :
    timeWithin segStartMs era slot = some startMs ↔ era.startSlot ≤ slot ∧
      startMs.toNat = segStartMs.toNat +
        (slot.toNat - era.startSlot.toNat) * era.slotLengthMs.toNat := by
  unfold timeWithin
  simp only [Option.bind_eq_bind, Option.bind_eq_some_iff, checkedSub_eq_some, checkedMul_eq_some,
    checkedAdd_eq_some, UInt32.toNat_toUInt64]
  constructor
  · rintro ⟨offset, ⟨le, offset_eq⟩, offsetMs, offsetMs_eq, sum⟩
    rw [sum, offsetMs_eq, offset_eq]
    exact ⟨le, rfl⟩
  · rintro ⟨le, sum⟩
    have small := startMs.toNat_lt
    refine ⟨slot - era.startSlot, ⟨le, UInt64.toNat_sub_of_le _ _ le⟩,
      UInt64.ofNat ((slot.toNat - era.startSlot.toNat) * era.slotLengthMs.toNat), ?_, ?_⟩
    · rw [UInt64.toNat_sub_of_le _ _ le, UInt64.toNat_ofNat_of_lt']
      exact Nat.lt_of_le_of_lt (Nat.le_add_left ..) (sum ▸ small)
    · rw [UInt64.toNat_ofNat_of_lt' (Nat.lt_of_le_of_lt (Nat.le_add_left ..) (sum ▸ small)), sum]

theorem slotWithin_eq_some {startSlot : SlotNo} {slotLengthMs : UInt32} (after : segStartMs ≤ capturedMs) :
    slotWithin segStartMs startSlot slotLengthMs capturedMs = some slot ↔
      slot.toNat = startSlot.toNat +
        (capturedMs.toNat - segStartMs.toNat) / slotLengthMs.toNat := by
  have elapsed : checkedSub capturedMs segStartMs = some (capturedMs - segStartMs) := if_pos after
  unfold slotWithin
  simp only [elapsed, Option.bind_eq_bind, Option.bind_some, checkedAdd_eq_some, UInt64.toNat_div,
    UInt32.toNat_toUInt64, UInt64.toNat_sub_of_le _ _ after]

end Segments

/-! ## The rest of a walk -/

/-- A walk stands at an era that starts when the calendar says. -/
structure Anchored (calendar : Calendar) (segStartMs : UInt64) (era : EraSummary)
    (rest : List EraSummary) : Prop where
  stretches : Stretches calendar (era :: rest)
  ordered : InOrder (era :: rest)
  lengths : ∀ other ∈ era :: rest, other.slotLengthMs ≠ 0
  start : segStartMs.toNat = calendar.start era.startSlot.toNat

namespace Anchored

variable {calendar : Calendar} {era next : EraSummary} {rest : List EraSummary}
  {segStartMs nextMs capturedMs : UInt64} {slot : SlotNo}

theorem nonzero (anchored : Anchored calendar segStartMs era rest) : era.slotLengthMs ≠ 0 :=
  anchored.lengths era (List.mem_cons_self ..)

theorem positive (anchored : Anchored calendar segStartMs era rest) : 0 < era.slotLengthMs.toNat := by
  have nonzero := anchored.nonzero
  rw [ne_eq, ← UInt32.toNat_inj] at nonzero
  exact Nat.pos_of_ne_zero nonzero

theorem increasing (anchored : Anchored calendar segStartMs era (next :: rest)) :
    era.startSlot < next.startSlot :=
  (List.isChain_cons_cons.mp anchored.ordered).1

/-- Up to the start of the next era, times grow by the era's length. -/
theorem start_slot (anchored : Anchored calendar segStartMs era (next :: rest))
    (low : era.startSlot ≤ slot) (high : slot ≤ next.startSlot) :
    calendar.start slot.toNat =
      segStartMs.toNat + (slot.toNat - era.startSlot.toNat) * era.slotLengthMs.toNat := by
  rw [anchored.start]
  exact Calendar.start_of_constant (UInt64.le_iff_toNat_le.mp low) fun n below above =>
    anchored.stretches.1 n below (Nat.lt_of_lt_of_le above (UInt64.le_iff_toNat_le.mp high))

theorem start_slot_last (anchored : Anchored calendar segStartMs era []) (low : era.startSlot ≤ slot) :
    calendar.start slot.toNat =
      segStartMs.toNat + (slot.toNat - era.startSlot.toNat) * era.slotLengthMs.toNat := by
  rw [anchored.start]
  exact Calendar.start_of_constant (UInt64.le_iff_toNat_le.mp low) fun n below _ =>
    anchored.stretches n below

theorem nextStartMs_eq_some (anchored : Anchored calendar segStartMs era (next :: rest)) :
    nextStartMs segStartMs era next = some nextMs ↔
      nextMs.toNat = calendar.start next.startSlot.toNat := by
  have le := UInt64.le_of_lt anchored.increasing
  have ends := anchored.start_slot le (UInt64.le_refl _)
  have same : nextStartMs segStartMs era next = timeWithin segStartMs era next.startSlot := rfl
  rw [same, timeWithin_eq_some, ends]
  exact and_iff_right le

/-- A start that is not computed does not fit. -/
theorem overflow (anchored : Anchored calendar segStartMs era (next :: rest))
    (failed : nextStartMs segStartMs era next = none) :
    2 ^ 64 ≤ calendar.start next.startSlot.toNat := by
  refine Nat.le_of_not_lt fun fits => ?_
  have found := anchored.nextStartMs_eq_some.mpr (UInt64.toNat_ofNat_of_lt' fits)
  rw [failed] at found
  cases found

theorem advance (anchored : Anchored calendar segStartMs era (next :: rest))
    (found : nextStartMs segStartMs era next = some nextMs) : Anchored calendar nextMs next rest where
  stretches := anchored.stretches.2
  ordered := (List.isChain_cons_cons.mp anchored.ordered).2
  lengths other member := anchored.lengths other (List.mem_cons_of_mem _ member)
  start := anchored.nextStartMs_eq_some.mp found

/-- Within an era that another one follows. -/
theorem slotWithin_covers (anchored : Anchored calendar segStartMs era (next :: rest))
    (after : segStartMs ≤ capturedMs) (before : capturedMs.toNat < calendar.start next.startSlot.toNat) :
    slotWithin segStartMs era.startSlot era.slotLengthMs capturedMs = some slot ↔
      calendar.Covers slot.toNat capturedMs.toNat := by
  have started : calendar.start era.startSlot.toNat ≤ capturedMs.toNat :=
    anchored.start ▸ UInt64.le_iff_toNat_le.mp after
  rw [slotWithin_eq_some after, anchored.start]
  exact Iff.symm (Calendar.covers_iff_of_stretch anchored.positive started before anchored.stretches.1)

theorem slotWithin_covers_last (anchored : Anchored calendar segStartMs era [])
    (after : segStartMs ≤ capturedMs) :
    slotWithin segStartMs era.startSlot era.slotLengthMs capturedMs = some slot ↔
      calendar.Covers slot.toNat capturedMs.toNat := by
  have started : calendar.start era.startSlot.toNat ≤ capturedMs.toNat :=
    anchored.start ▸ UInt64.le_iff_toNat_le.mp after
  rw [slotWithin_eq_some after, anchored.start]
  exact Iff.symm (Calendar.covers_iff_of_unbounded anchored.positive started anchored.stretches)

end Anchored

/-! ## The walks -/

section Walks

variable {calendar : Calendar} {era : EraSummary} {rest : List EraSummary}
  {segStartMs capturedMs startMs : UInt64} {slot : SlotNo}

/-- The era after the one of a slot, if there is one, starts at an instant that fits. -/
def NextFits (calendar : Calendar) (eras : List EraSummary) (slot : SlotNo) : Prop :=
  ∀ next, eras.find? (fun era => decide (slot < era.startSlot)) = some next →
    calendar.start next.startSlot.toNat < 2 ^ 64

theorem nextFits_of_le {eras : List EraSummary} (le : era.startSlot ≤ slot) :
    NextFits calendar (era :: eras) slot ↔ NextFits calendar eras slot := by
  have passed : decide (slot < era.startSlot) = false := decide_eq_false (UInt64.not_lt.mpr le)
  unfold NextFits
  rw [List.find?_cons_of_neg (by simp [passed])]

theorem nextFits_of_lt {eras : List EraSummary} (lt : slot < era.startSlot) :
    NextFits calendar (era :: eras) slot ↔ calendar.start era.startSlot.toNat < 2 ^ 64 := by
  have found : decide (slot < era.startSlot) = true := decide_eq_true lt
  unfold NextFits
  rw [List.find?_cons_of_pos (by simp [found])]
  exact ⟨fun fits => fits era rfl, fun fits next same => Option.some.inj same ▸ fits⟩

theorem slotInSegments_eq_ok (anchored : Anchored calendar segStartMs era rest)
    (after : segStartMs ≤ capturedMs) (index : Nat) :
    slotInSegments capturedMs segStartMs index (era :: rest) = .ok slot ↔
      calendar.Covers slot.toNat capturedMs.toNat ∧ NextFits calendar (era :: rest) slot := by
  induction rest generalizing era segStartMs index with
  | nil =>
      rw [slotInSegments, if_neg anchored.nonzero, okOr_eq_ok, anchored.slotWithin_covers_last after]
      refine (and_iff_left_of_imp fun covers => ?_).symm
      have started : calendar.start era.startSlot.toNat ≤ capturedMs.toNat :=
        anchored.start ▸ UInt64.le_iff_toNat_le.mp after
      have le : era.startSlot ≤ slot := UInt64.le_iff_toNat_le.mpr (covers.le_of_start_le started)
      exact (nextFits_of_le le).mpr fun next found => by cases found
  | cons next rest ih =>
      rw [slotInSegments, if_neg anchored.nonzero]
      have started : calendar.start era.startSlot.toNat ≤ capturedMs.toNat :=
        anchored.start ▸ UInt64.le_iff_toNat_le.mp after
      have from_era : calendar.Covers slot.toNat capturedMs.toNat → era.startSlot ≤ slot := fun covers =>
        UInt64.le_iff_toNat_le.mpr (covers.le_of_start_le started)
      cases ends : nextStartMs segStartMs era next with
      | none =>
          -- No instant reaches the next era, and the slots before it are refused with it.
          have beyond := anchored.overflow ends
          refine iff_of_false (fun failed => by cases failed) ?_
          rintro ⟨covers, fits⟩
          have lt : slot < next.startSlot := UInt64.lt_iff_toNat_lt.mpr
            (covers.lt_of_lt_start (Nat.lt_of_lt_of_le capturedMs.toNat_lt beyond))
          rw [nextFits_of_le (from_era covers), nextFits_of_lt lt] at fits
          exact absurd fits (Nat.not_lt.mpr beyond)
      | some nextMs =>
          have next_start := anchored.nextStartMs_eq_some.mp ends
          dsimp only
          split_ifs with before
          · have early : capturedMs.toNat < calendar.start next.startSlot.toNat :=
              next_start ▸ UInt64.lt_iff_toNat_lt.mp before
            rw [okOr_eq_ok, anchored.slotWithin_covers after early]
            refine (and_iff_left_of_imp fun covers => ?_).symm
            have lt : slot < next.startSlot := UInt64.lt_iff_toNat_lt.mpr (covers.lt_of_lt_start early)
            rw [nextFits_of_le (from_era covers), nextFits_of_lt lt, ← next_start]
            exact nextMs.toNat_lt
          · rw [ih (anchored.advance ends) (UInt64.not_lt.mp before)]
            exact and_congr_right fun covers => (nextFits_of_le (from_era covers)).symm

theorem startInSegments_eq_ok (anchored : Anchored calendar segStartMs era rest)
    (low : era.startSlot ≤ slot) (index : Nat) :
    startInSegments slot segStartMs index (era :: rest) = .ok startMs ↔
      startMs.toNat = calendar.start slot.toNat := by
  induction rest generalizing era segStartMs index with
  | nil =>
      rw [startInSegments, if_neg anchored.nonzero, okOr_eq_ok, timeWithin_eq_some,
        anchored.start_slot_last low]
      exact and_iff_right low
  | cons next rest ih =>
      rw [startInSegments, if_neg anchored.nonzero]
      split_ifs with before
      · rw [okOr_eq_ok, timeWithin_eq_some, anchored.start_slot low (UInt64.le_of_lt before)]
        exact and_iff_right low
      · have reached : next.startSlot ≤ slot := UInt64.not_lt.mp before
        cases ends : nextStartMs segStartMs era next with
        | none =>
            refine iff_of_false (fun failed => by cases failed) fun same => ?_
            have later := calendar.start_le_start.mpr (UInt64.le_iff_toNat_le.mp reached)
            have beyond := (anchored.overflow ends).trans later
            exact absurd startMs.toNat_lt (Nat.not_lt.mpr (same ▸ beyond))
        | some nextMs => exact ih (anchored.advance ends) reached (index + 1)

end Walks

/-! ## Located eras -/

theorem eraIndexAt_lt {eras : List EraSummary} (slot : SlotNo) (nonempty : eras ≠ []) :
    eraIndexAt slot eras < eras.length := by
  induction eras with
  | nil => exact absurd rfl nonempty
  | cons era rest ih =>
      cases rest with
      | nil => exact Nat.one_pos
      | cons next rest =>
          rw [eraIndexAt]
          split_ifs
          · exact Nat.succ_pos _
          · exact Nat.succ_lt_succ (ih (List.cons_ne_nil _ _))

/-- The era that a slot is located in. -/
def eraOf (schedule : EraSchedule) (slot : SlotNo) : EraSummary :=
  schedule.eras.get ⟨eraIndexAt slot schedule.eras, eraIndexAt_lt slot schedule.nonempty⟩

/-- The era that eight bits of the index name. -/
def indexedEra (schedule : EraSchedule) (slot : SlotNo) : EraSummary :=
  schedule.eras.get ⟨eraIndexAt slot schedule.eras % 256,
    Nat.lt_of_le_of_lt (Nat.mod_le _ _) (eraIndexAt_lt slot schedule.nonempty)⟩

def EpochFits (schedule : EraSchedule) (slot : SlotNo) : Prop :=
  let era := eraOf schedule slot
  era.startEpoch.toNat + (slot.toNat - era.startSlot.toNat) / era.epochLengthSlots.toNat < 2 ^ 64

instance (schedule : EraSchedule) (slot : SlotNo) : Decidable (EpochFits schedule slot) :=
  inferInstanceAs (Decidable (_ < _))

theorem startSlot_le_of_index {eras : List EraSummary} (ordered : InOrder eras) {i j : Nat}
    {earlier later : EraSummary} (le : i ≤ j) (first : eras[i]? = some earlier)
    (second : eras[j]? = some later) : earlier.startSlot ≤ later.startSlot := by
  have sorted : eras.Pairwise fun era next => era.startSlot < next.startSlot :=
    List.isChain_iff_pairwise.mp ordered
  rcases Nat.eq_or_lt_of_le le with rfl | lt
  · rw [first] at second
    cases second
    exact UInt64.le_refl _
  · obtain ⟨inI, rfl⟩ := List.getElem?_eq_some_iff.mp first
    obtain ⟨inJ, rfl⟩ := List.getElem?_eq_some_iff.mp second
    exact UInt64.le_of_lt (List.pairwise_iff_getElem.mp sorted i j inI inJ lt)

/-- The located era is the one whose stretch a slot is in. -/
theorem era_at_index {eras : List EraSummary} {slot : SlotNo} (ordered : InOrder eras)
    (low : ∀ first ∈ eras.head?, first.startSlot ≤ slot) {era : EraSummary}
    (found : eras[eraIndexAt slot eras]? = some era) :
    era.startSlot ≤ slot ∧ ∀ n, era.startSlot.toNat ≤ n → n ≤ slot.toNat →
      slotLength eras n = era.slotLengthMs.toNat := by
  induction eras with
  | nil => cases found
  | cons first rest ih =>
      have from_first : first.startSlot ≤ slot := low first rfl
      cases rest with
      | nil =>
          cases found
          exact ⟨from_first, fun _ _ _ => rfl⟩
      | cons next rest =>
          rw [eraIndexAt] at found
          by_cases before : slot < next.startSlot
          · rw [if_pos ⟨from_first, before⟩] at found
            cases found
            refine ⟨from_first, fun n _ high => if_pos ?_⟩
            exact Nat.lt_of_le_of_lt high (UInt64.lt_iff_toNat_lt.mp before)
          · rw [if_neg fun inside => before inside.2] at found
            have later := (List.isChain_cons_cons.mp ordered).2
            obtain ⟨reached, constant⟩ := ih later (fun other same => by
              cases same
              exact UInt64.not_lt.mp before) found
            refine ⟨reached, fun n below above => ?_⟩
            have from_next := startSlot_le_of_index later (Nat.zero_le _) (by rfl) found
            rw [slotLength, if_neg (Nat.not_lt.mpr
              ((UInt64.le_iff_toNat_le.mp from_next).trans below))]
            exact constant n below above

theorem eraOf_le {schedule : EraSchedule} {slot : SlotNo}
    (low : ∀ first ∈ schedule.eras.head?, first.startSlot ≤ slot) :
    (eraOf schedule slot).startSlot ≤ slot :=
  (era_at_index schedule.monotone low (List.getElem?_eq_getElem _)).1

theorem locate_eq {schedule : EraSchedule} {slot : SlotNo}
    (low : ∀ first ∈ schedule.eras.head?, first.startSlot ≤ slot) :
    schedule.locate slot =
      let era := eraOf schedule slot
      let slotsIntoEra := slot - era.startSlot
      let epochLength := era.epochLengthSlots.toUInt64
      if EpochFits schedule slot then
        .ok
          { eraIndex := UInt8.ofNat (eraIndexAt slot schedule.eras), era := era.era,
            epoch := era.startEpoch + slotsIntoEra / epochLength,
            relativeSlotInEpoch := (slotsIntoEra % epochLength).toUInt32 }
      else .error (.slotAfterLastEra slot (UInt64.ofNat (2 ^ 64 - 1))) := by
  have located : schedule.eras[eraIndexAt slot schedule.eras]? = some (eraOf schedule slot) :=
    List.getElem?_eq_getElem _
  have reached := eraOf_le low
  obtain ⟨first, found⟩ : ∃ first, schedule.eras.head? = some first :=
    Option.isSome_iff_exists.mp (List.isSome_head?.mpr schedule.nonempty)
  have fits : ((eraOf schedule slot).startEpoch.toNat + ((slot - (eraOf schedule slot).startSlot) /
      (eraOf schedule slot).epochLengthSlots.toUInt64).toNat < 2 ^ 64) = EpochFits schedule slot := by
    rw [UInt64.toNat_div, UInt64.toNat_sub_of_le _ _ reached, UInt32.toNat_toUInt64]
    rfl
  unfold EraSchedule.locate checkedAdd
  dsimp only
  rw [found, located]
  dsimp only
  rw [if_neg (UInt64.not_lt.mpr (low first found))]
  simp only [fits]
  by_cases inRange : EpochFits schedule slot
  · simp only [if_pos inRange]
  · simp only [if_neg inRange]

theorem eraStartMs_eq_some {calendar : Calendar} {era : EraSummary} {rest : List EraSummary}
    {segStartMs startMs : UInt64} (anchored : Anchored calendar segStartMs era rest) {index : Nat}
    {indexed : EraSummary} (found : (era :: rest)[index]? = some indexed) :
    eraStartMs segStartMs index (era :: rest) = some startMs ↔
      startMs.toNat = calendar.start indexed.startSlot.toNat := by
  induction index generalizing era rest segStartMs with
  | zero =>
      cases found
      rw [eraStartMs, ← anchored.start, Option.some.injEq, ← UInt64.toNat_inj]
      exact eq_comm
  | succ index ih =>
      cases rest with
      | nil => cases found
      | cons next rest =>
          rw [eraStartMs]
          cases ends : nextStartMs segStartMs era next with
          | some nextMs => exact ih (anchored.advance ends) found
          | none =>
              refine iff_of_false (fun failed => by cases failed) fun same => ?_
              have le := startSlot_le_of_index anchored.ordered (Nat.le_add_left 1 index)
                (by rfl : (era :: next :: rest)[1]? = some next) found
              have beyond := (anchored.overflow ends).trans
                (calendar.start_le_start.mpr (UInt64.le_iff_toNat_le.mp le))
              exact absurd startMs.toNat_lt (Nat.not_lt.mpr (same ▸ beyond))

end Ade.Proof.Consensus
