import Ade.Proof.Consensus.EraTime

/-! Instants and slots answer each other, where the three walks over a schedule agree. -/

namespace Ade.Proof.Consensus
open Library Ade.Consensus

variable {schedule : TimedSchedule} {slot : SlotNo} {capturedMs startMs : UInt64}

/-! ## Whole walks -/

def FromZero (schedule : TimedSchedule) : Prop := ∀ first ∈ schedule.eras.head?, first.startSlot = 0

theorem exists_anchored (fromZero : FromZero schedule) : ∃ first rest, schedule.eras = first :: rest ∧
    first.startSlot = 0 ∧ Anchored (calendar schedule) schedule.systemStartUnixMs first rest := by
  have stretches := stretches_calendar schedule
  have ordered := schedule.monotone
  have lengths := fun era member => (schedule.lengths era member).1
  cases eras : schedule.eras with
  | nil => exact absurd eras schedule.nonempty
  | cons first rest =>
      have zero : first.startSlot = 0 := fromZero first (by simp [eras])
      rw [eras] at stretches ordered lengths
      refine ⟨first, rest, rfl, zero, stretches, ordered, lengths, ?_⟩
      rw [zero]
      exact (Calendar.start_zero (calendar schedule)).symm

theorem slotAt_eq_ok (fromZero : FromZero schedule) :
    slotAt schedule capturedMs = .ok slot ↔
      (calendar schedule).Covers slot.toNat capturedMs.toNat ∧
        NextFits (calendar schedule) schedule.eras slot := by
  obtain ⟨first, rest, eras, zero, anchored⟩ := exists_anchored fromZero
  have opened : expectFromZero schedule = .ok () := by
    unfold expectFromZero
    rw [eras]
    exact if_neg (not_not.mpr zero)
  unfold slotAt
  rw [opened]
  by_cases before : capturedMs < schedule.systemStartUnixMs
  · rw [if_pos before]
    refine iff_of_false (fun failed => by cases failed) ?_
    rintro ⟨covers, -⟩
    have from_origin : (calendar schedule).start 0 ≤ capturedMs.toNat :=
      ((calendar schedule).start_le_start.mpr (Nat.zero_le _)).trans covers.1
    rw [Calendar.start_zero] at from_origin
    exact absurd (UInt64.lt_iff_toNat_lt.mp before) (Nat.not_lt.mpr from_origin)
  · rw [if_neg before, eras]
    exact slotInSegments_eq_ok anchored (UInt64.not_lt.mp before) 0

theorem slotStartTimeMs_eq_ok (fromZero : FromZero schedule) :
    slotStartTimeMs schedule slot = .ok startMs ↔
      startMs.toNat = (calendar schedule).start slot.toNat := by
  obtain ⟨first, rest, eras, zero, anchored⟩ := exists_anchored fromZero
  have opened : expectFromZero schedule = .ok () := by
    unfold expectFromZero
    rw [eras]
    exact if_neg (not_not.mpr zero)
  unfold slotStartTimeMs
  rw [opened, eras]
  exact startInSegments_eq_ok anchored (zero ▸ UInt64.zero_le) 0

/-- The time of a slot at the length of the era that eight bits of its index name. -/
def indexedTime (schedule : TimedSchedule) (slot : SlotNo) : Nat :=
  let era := indexedEra schedule.toEraSchedule slot
  (calendar schedule).start era.startSlot.toNat +
    (slot.toNat - era.startSlot.toNat) * era.slotLengthMs.toNat

theorem from_first (fromZero : FromZero schedule) (slot : SlotNo) :
    ∀ era ∈ schedule.eras.head?, era.startSlot ≤ slot := by
  intro era member
  rw [fromZero era member]
  exact UInt64.zero_le

theorem indexedEra_le (fromZero : FromZero schedule) (slot : SlotNo) :
    (indexedEra schedule.toEraSchedule slot).startSlot ≤ slot :=
  UInt64.le_trans
    (startSlot_le_of_index schedule.monotone (Nat.mod_le _ _) (List.getElem?_eq_getElem _)
      (List.getElem?_eq_getElem _))
    (eraOf_le (from_first fromZero slot))

theorem slotToTimeMs_eq_ok (fromZero : FromZero schedule) :
    schedule.slotToTimeMs slot = .ok startMs ↔
      EpochFits schedule.toEraSchedule slot ∧ startMs.toNat = indexedTime schedule slot := by
  obtain ⟨first, rest, eras, zero, anchored⟩ := exists_anchored fromZero
  have low := from_first fromZero slot
  have indexed : schedule.eras[eraIndexAt slot schedule.eras % 256]? =
      some (indexedEra schedule.toEraSchedule slot) :=
    List.getElem?_eq_getElem _
  have reached := indexedEra_le fromZero slot
  have truncated : (UInt8.ofNat (eraIndexAt slot schedule.eras)).toNat =
      eraIndexAt slot schedule.eras % 256 := by
    simp
  unfold TimedSchedule.slotToTimeMs
  simp only [bind_eq_ok, mapError_eq_ok, okOr_eq_ok]
  constructor
  · rintro ⟨location, found, accMs, started, current, at_index, timed⟩
    rw [locate_eq low] at found
    dsimp only at found
    split_ifs at found with fits
    cases found
    dsimp only at started at_index
    rw [truncated, eras, eraStartMs_eq_some anchored (eras ▸ indexed)] at started
    rw [truncated, indexed] at at_index
    cases at_index
    obtain ⟨-, sum⟩ := timeWithin_eq_some.mp timed
    exact ⟨fits, sum.trans (congrArg (· + _) started)⟩
  · rintro ⟨fits, same⟩
    let eraStart := (calendar schedule).start (indexedEra schedule.toEraSchedule slot).startSlot.toNat
    have small : eraStart < 2 ^ 64 :=
      Nat.lt_of_le_of_lt (Nat.le_add_right _ _) (same ▸ startMs.toNat_lt)
    have started : (UInt64.ofNat eraStart).toNat = eraStart := UInt64.toNat_ofNat_of_lt' small
    refine ⟨_, (locate_eq low).trans (if_pos fits), UInt64.ofNat eraStart, ?_,
      indexedEra schedule.toEraSchedule slot, ?_, timeWithin_eq_some.mpr ⟨reached, ?_⟩⟩
    · rw [truncated, eras, eraStartMs_eq_some anchored (eras ▸ indexed)]
      exact started
    · rw [truncated]
      exact indexed
    · rw [same, started]
      rfl

/-! ## Where the walks agree -/

/-- The instants that a slot is the answer for are those of its own length, from its start on. -/
def Galois (schedule : TimedSchedule) (slot : SlotNo) : Prop :=
  ∀ startMs, slotStartTimeMs schedule slot = .ok startMs →
    ∀ capturedMs, slotAt schedule capturedMs = .ok slot ↔
      startMs ≤ capturedMs ∧ capturedMs.toNat <
        startMs.toNat + (eraOf schedule.toEraSchedule slot).slotLengthMs.toNat

def SameTime (schedule : TimedSchedule) (slot : SlotNo) : Prop :=
  ∀ startMs, schedule.slotToTimeMs slot = .ok startMs ↔ slotStartTimeMs schedule slot = .ok startMs

/-- A schedule within the range of the machine, and eras within eight bits or evenly long. -/
structure WalksAgree (schedule : TimedSchedule) (slot : SlotNo) : Prop where
  nextFits : (calendar schedule).start slot.toNat < 2 ^ 64 →
    NextFits (calendar schedule) schedule.eras slot
  epochFits : (calendar schedule).start slot.toNat < 2 ^ 64 →
    EpochFits schedule.toEraSchedule slot
  evenlyLong : 256 ≤ eraIndexAt slot schedule.eras → EpochFits schedule.toEraSchedule slot →
    indexedTime schedule slot < 2 ^ 64 ∨ (calendar schedule).start slot.toNat < 2 ^ 64 →
    let era := indexedEra schedule.toEraSchedule slot
    ∑ n ∈ Finset.Ico era.startSlot.toNat slot.toNat, slotLength schedule.eras n =
      (slot.toNat - era.startSlot.toNat) * era.slotLengthMs.toNat

theorem start_next (fromZero : FromZero schedule) :
    (calendar schedule).start (slot.toNat + 1) = (calendar schedule).start slot.toNat +
      (eraOf schedule.toEraSchedule slot).slotLengthMs.toNat := by
  obtain ⟨reached, constant⟩ := era_at_index schedule.monotone (from_first fromZero slot)
    (List.getElem?_eq_getElem (eraIndexAt_lt slot schedule.nonempty))
  rw [Calendar.start_succ]
  exact congrArg _ (constant slot.toNat (UInt64.le_iff_toNat_le.mp reached) (Nat.le_refl _))

theorem galois_iff (fromZero : FromZero schedule) : Galois schedule slot ↔
    ((calendar schedule).start slot.toNat < 2 ^ 64 → NextFits (calendar schedule) schedule.eras slot) := by
  unfold Galois
  simp only [slotStartTimeMs_eq_ok fromZero, slotAt_eq_ok fromZero, UInt64.le_iff_toNat_le]
  constructor
  · intro galois fits
    have started := UInt64.toNat_ofNat_of_lt' fits
    have found := galois _ started (UInt64.ofNat ((calendar schedule).start slot.toNat))
    rw [started, ← start_next fromZero] at found
    exact (found.mpr ((calendar schedule).covers_start slot.toNat)).2
  · intro fits startMs started capturedMs
    rw [started, ← start_next fromZero]
    exact and_iff_left (fits (started ▸ startMs.toNat_lt))

/-- Eight bits hold the index of an early era. -/
theorem indexedTime_of_lt (fromZero : FromZero schedule) (early : eraIndexAt slot schedule.eras < 256) :
    indexedTime schedule slot = (calendar schedule).start slot.toNat := by
  have same : indexedEra schedule.toEraSchedule slot = eraOf schedule.toEraSchedule slot := by
    unfold indexedEra eraOf
    simp only [Nat.mod_eq_of_lt early]
  obtain ⟨reached, constant⟩ := era_at_index schedule.monotone (from_first fromZero slot)
    (List.getElem?_eq_getElem (eraIndexAt_lt slot schedule.nonempty))
  rw [indexedTime, same]
  exact (Calendar.start_of_constant (UInt64.le_iff_toNat_le.mp reached) fun n low high =>
    constant n low (Nat.le_of_lt high)).symm

theorem indexedTime_eq_iff (fromZero : FromZero schedule) :
    indexedTime schedule slot = (calendar schedule).start slot.toNat ↔
      let era := indexedEra schedule.toEraSchedule slot
      ∑ n ∈ Finset.Ico era.startSlot.toNat slot.toNat, slotLength schedule.eras n =
        (slot.toNat - era.startSlot.toNat) * era.slotLengthMs.toNat := by
  rw [indexedTime, Calendar.start_eq_add_sum (calendar schedule)
    (UInt64.le_iff_toNat_le.mp (indexedEra_le fromZero slot)), Nat.add_left_cancel_iff]
  exact eq_comm

theorem sameTime_iff (fromZero : FromZero schedule) : SameTime schedule slot ↔
    ((calendar schedule).start slot.toNat < 2 ^ 64 → EpochFits schedule.toEraSchedule slot) ∧
      (EpochFits schedule.toEraSchedule slot →
        indexedTime schedule slot < 2 ^ 64 ∨ (calendar schedule).start slot.toNat < 2 ^ 64 →
          indexedTime schedule slot = (calendar schedule).start slot.toNat) := by
  unfold SameTime
  simp only [slotToTimeMs_eq_ok fromZero, slotStartTimeMs_eq_ok fromZero]
  constructor
  · intro same
    refine ⟨fun fits => ?_, fun epoch fits => ?_⟩
    · have started := UInt64.toNat_ofNat_of_lt' fits
      exact ((same _).mpr started).1
    · rcases fits with fits | fits
      · have started := UInt64.toNat_ofNat_of_lt' fits
        exact started.symm.trans ((same _).mp ⟨epoch, started⟩)
      · have started := UInt64.toNat_ofNat_of_lt' fits
        exact ((same _).mpr started).2.symm.trans started
  · rintro ⟨epochFits, agree⟩ startMs
    constructor
    · rintro ⟨epoch, timed⟩
      exact timed.trans (agree epoch (.inl (timed ▸ startMs.toNat_lt)))
    · intro started
      have fits := started ▸ startMs.toNat_lt
      exact ⟨epochFits fits, started.trans (agree (epochFits fits) (.inr fits)).symm⟩

theorem slotAt_monotone (fromZero : FromZero schedule) {later : UInt64} {laterSlot : SlotNo}
    (first : slotAt schedule capturedMs = .ok slot) (second : slotAt schedule later = .ok laterSlot)
    (le : capturedMs ≤ later) : slot ≤ laterSlot := by
  rw [slotAt_eq_ok fromZero] at first second
  exact UInt64.le_iff_toNat_le.mpr (first.1.monotone second.1 (UInt64.le_iff_toNat_le.mp le))

/-- Later instants have later slots, and at each slot the walks agree where the schedule lets
them. -/
theorem slot_walks_agree_iff (schedule : TimedSchedule) (fromZero : FromZero schedule) :
    (∀ earlier later earlierSlot laterSlot, earlier ≤ later →
      slotAt schedule earlier = .ok earlierSlot → slotAt schedule later = .ok laterSlot →
        earlierSlot ≤ laterSlot) ∧
      ∀ slot, Galois schedule slot ∧ SameTime schedule slot ↔ WalksAgree schedule slot := by
  refine ⟨fun _ _ _ _ le first second => slotAt_monotone fromZero first second le, fun slot => ?_⟩
  rw [galois_iff fromZero, sameTime_iff fromZero]
  constructor
  · rintro ⟨nextFits, epochFits, agree⟩
    exact ⟨nextFits, epochFits, fun _ epoch fits => (indexedTime_eq_iff fromZero).mp (agree epoch fits)⟩
  · intro walks
    refine ⟨walks.nextFits, walks.epochFits, fun epoch fits => ?_⟩
    rcases Nat.lt_or_ge (eraIndexAt slot schedule.eras) 256 with early | late
    · exact indexedTime_of_lt fromZero early
    · exact (indexedTime_eq_iff fromZero).mpr (walks.evenlyLong late epoch fits)

/-! ### More eras than eight bits count -/

section Samples

def sampleEra (startSlot : SlotNo) (slotLengthMs : UInt32) : EraSummary :=
  ⟨.conway, startSlot, startSlot, slotLengthMs, 1, 1, none⟩

/-- Slots of twenty seconds, then of one. -/
def sampleTimed : TimedSchedule where
  eras := [sampleEra 0 20000, sampleEra 10 1000]
  nonempty := by simp
  lengths := by simp [sampleEra]
  monotone := by decide
  systemStartUnixMs := 5

theorem walks_agree_when_few_eras :
    Galois sampleTimed 12 ∧ SameTime sampleTimed 12 ∧ slotAt sampleTimed 202005 = .ok 12 := by
  have fromZero : FromZero sampleTimed := by
    intro first found
    cases found
    rfl
  have agree : WalksAgree sampleTimed 12 :=
    { nextFits := fun _ next found => by cases found
      epochFits := fun _ => by decide
      evenlyLong := fun late => absurd late (by decide) }
  obtain ⟨galois, same⟩ := ((slot_walks_agree_iff sampleTimed fromZero).2 12).mpr agree
  exact ⟨galois, same, by decide⟩

def manyEras : List EraSummary :=
  sampleEra 0 2 :: (List.range 256).map fun index => sampleEra (UInt64.ofNat index + 1) 1

def manyTimed : TimedSchedule where
  eras := manyEras
  nonempty := by simp [manyEras]
  lengths := by simp [manyEras, sampleEra]
  monotone := by decide +kernel
  systemStartUnixMs := 0

theorem truncated_index_moves_slot : ¬ ∀ schedule, FromZero schedule → ∀ slot,
    Galois schedule slot ∧ SameTime schedule slot := by
  intro always
  have fromZero : FromZero manyTimed := by
    intro first found
    cases found
    rfl
  have walked : manyTimed.slotToTimeMs 256 = .ok 512 := by
    decide +kernel
  have started : slotStartTimeMs manyTimed 256 = .ok 257 := by
    decide +kernel
  have same := ((always manyTimed fromZero 256).2 512).mp walked
  cases started.symm.trans same

end Samples

end Ade.Proof.Consensus
