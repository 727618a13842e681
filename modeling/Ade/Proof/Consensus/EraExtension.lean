import Ade.Consensus.EraExtension
import Ade.Proof.Consensus.EraTime

/-! A single-era schedule extends to the same one, however often and in whatever order. -/

namespace Ade.Proof.Consensus
open Library Ade.Consensus

/-! ## One summary an epoch -/

/-- The seed, and after it the summary of each later epoch. -/
def spanAt (seed : EraSummary) : Nat → EraSummary
  | 0 => seed
  | index + 1 => extensionEra seed (seed.startEpoch + UInt64.ofNat (index + 1))

def spans (seed : EraSummary) (count : Nat) : List EraSummary :=
  (List.range (count + 1)).map (spanAt seed)

/-- The epochs and the slots up to an epoch are counted by the machine. -/
structure InRange (seed : EraSummary) (count : Nat) : Prop where
  epoch : seed.startEpoch.toNat + count < 2 ^ 64
  slot : seed.startSlot.toNat + count * seed.epochLengthSlots.toNat < 2 ^ 64

variable {seed : EraSummary} {count index : Nat} {schedule : EraSchedule}

namespace InRange

theorem mono (fits : InRange seed count) (le : index ≤ count) : InRange seed index where
  epoch := Nat.lt_of_le_of_lt (Nat.add_le_add_left le _) fits.epoch
  slot := Nat.lt_of_le_of_lt (Nat.add_le_add_left (Nat.mul_le_mul_right _ le) _) fits.slot

theorem offset (fits : InRange seed count) : (UInt64.ofNat count).toNat = count :=
  UInt64.toNat_ofNat_of_lt' (Nat.lt_of_le_of_lt (Nat.le_add_left ..) fits.epoch)

end InRange

theorem spanAt_startEpoch (fits : InRange seed index) :
    (spanAt seed index).startEpoch.toNat = seed.startEpoch.toNat + index := by
  cases index with
  | zero => rfl
  | succ index =>
      rw [spanAt, extensionEra, UInt64.toNat_add, fits.offset, Nat.mod_eq_of_lt fits.epoch]

theorem spanAt_startSlot (fits : InRange seed index) :
    (spanAt seed index).startSlot.toNat =
      seed.startSlot.toNat + index * seed.epochLengthSlots.toNat := by
  cases index with
  | zero => simp [spanAt]
  | succ index =>
      have small : (index + 1) * seed.epochLengthSlots.toNat < 2 ^ 64 :=
        Nat.lt_of_le_of_lt (Nat.le_add_left ..) fits.slot
      have difference : seed.startEpoch + UInt64.ofNat (index + 1) - seed.startEpoch =
          UInt64.ofNat (index + 1) := by
        rw [UInt64.add_comm, UInt64.add_sub_cancel]
      rw [spanAt, extensionEra]
      dsimp only
      rw [difference, UInt64.toNat_add, UInt64.toNat_mul, fits.offset, UInt32.toNat_toUInt64,
        Nat.mod_eq_of_lt small, Nat.mod_eq_of_lt fits.slot]

@[simp] theorem spanAt_era (seed : EraSummary) (index : Nat) : (spanAt seed index).era = seed.era := by
  cases index <;> rfl

@[simp] theorem spanAt_slotLengthMs (seed : EraSummary) (index : Nat) :
    (spanAt seed index).slotLengthMs = seed.slotLengthMs := by
  cases index <;> rfl

@[simp] theorem spanAt_epochLengthSlots (seed : EraSummary) (index : Nat) :
    (spanAt seed index).epochLengthSlots = seed.epochLengthSlots := by
  cases index <;> rfl

/-- A schedule that reaches a number of epochs past its seed. -/
structure Reaches (seed : EraSummary) (count : Nat) (schedule : EraSchedule) : Prop where
  eras : schedule.eras = spans seed count
  inRange : InRange seed count

theorem schedule_ext {first second : EraSchedule} (same : first.eras = second.eras) : first = second := by
  cases first
  cases second
  cases same
  rfl

/-- The schedule with one summary an epoch, where the machine counts that far. -/
theorem exists_reaches (fits : InRange seed count) (slotLength : seed.slotLengthMs ≠ 0)
    (epochLength : seed.epochLengthSlots ≠ 0) : ∃ schedule, Reaches seed count schedule := by
  have positive : 0 < seed.epochLengthSlots.toNat := by
    rw [ne_eq, ← UInt32.toNat_inj] at epochLength
    exact Nat.pos_of_ne_zero epochLength
  refine ⟨⟨spans seed count, by simp [spans], ?_, ?_⟩, rfl, fits⟩
  · intro era member
    obtain ⟨index, -, rfl⟩ := List.mem_map.mp member
    rw [spanAt_slotLengthMs, spanAt_epochLengthSlots]
    exact ⟨slotLength, epochLength⟩
  · rw [spans, List.isChain_map, List.isChain_range]
    intro index inside
    have le : index + 1 ≤ count := by omega
    rw [UInt64.lt_iff_toNat_lt, spanAt_startSlot (fits.mono (Nat.le_of_succ_le le)),
      spanAt_startSlot (fits.mono le), Nat.succ_mul]
    omega

/-! ## Extension -/

@[simp] theorem head?_spans (seed : EraSummary) (count : Nat) :
    (spans seed count).head? = some seed := by
  simp [spans, List.range_succ_eq_map, spanAt]

@[simp] theorem getLast?_spans (seed : EraSummary) (count : Nat) :
    (spans seed count).getLast? = some (spanAt seed count) := by
  simp [spans, List.range_succ]

theorem spans_append (seed : EraSummary) (count more : Nat) :
    spans seed (count + more) =
      spans seed count ++ (List.range more).map fun index => spanAt seed (count + 1 + index) := by
  unfold spans
  rw [Nat.add_right_comm, List.range_add, List.map_append, List.map_map]
  rfl

theorem missingEpochs_eq (fits : InRange seed (count + index)) :
    (EraSchedule.missingEpochs (spanAt seed count).startEpoch
        (spanAt seed (count + index)).startEpoch).map (extensionEra seed) =
      (List.range index).map fun later => spanAt seed (count + 1 + later) := by
  have first := spanAt_startEpoch (fits.mono (Nat.le_add_right count index))
  have last := spanAt_startEpoch fits
  have le : (spanAt seed count).startEpoch ≤ (spanAt seed (count + index)).startEpoch := by
    rw [UInt64.le_iff_toNat_le, first, last]
    omega
  have length : ((spanAt seed (count + index)).startEpoch - (spanAt seed count).startEpoch).toNat =
      index := by
    rw [UInt64.toNat_sub_of_le _ _ le, first, last]
    omega
  unfold EraSchedule.missingEpochs
  rw [length, List.map_map]
  refine List.map_congr_left fun later member => ?_
  have inside := List.mem_range.mp member
  have next : count + 1 + later = count + later + 1 := by omega
  have range := fits.mono (show count + later + 1 ≤ count + index by omega)
  rw [next]
  refine congrArg (extensionEra seed) (UInt64.toNat_inj.mp ?_)
  have target : (seed.startEpoch + UInt64.ofNat (count + later + 1)).toNat = _ := spanAt_startEpoch range
  have small := range.epoch
  rw [target, UInt64.toNat_add, UInt64.toNat_add, first, UInt64.toNat_ofNat',
    Nat.mod_eq_of_lt (show later < 2 ^ 64 by omega)]
  have one : (1 : UInt64).toNat = 1 := rfl
  omega

theorem Reaches.seed_lengths (reaches : Reaches seed count schedule) :
    seed.slotLengthMs ≠ 0 ∧ seed.epochLengthSlots ≠ 0 := by
  apply schedule.lengths
  rw [reaches.eras]
  exact List.mem_of_head? (head?_spans seed count)

theorem extendToEpoch_reaches {target : EpochNo} (reaches : Reaches seed count schedule)
    (fits : InRange seed (target.toNat - seed.startEpoch.toNat)) :
    Reaches seed (max count (target.toNat - seed.startEpoch.toNat)) (schedule.extendToEpoch target) := by
  have last := spanAt_startEpoch reaches.inRange
  unfold EraSchedule.extendToEpoch
  rw [reaches.eras, head?_spans, getLast?_spans]
  dsimp only
  by_cases covered : target ≤ (spanAt seed count).startEpoch
  · rw [if_pos covered]
    rw [UInt64.le_iff_toNat_le, last] at covered
    rwa [Nat.max_eq_left (by omega)]
  · rw [if_neg covered]
    rw [UInt64.le_iff_toNat_le, last] at covered
    obtain ⟨more, offset⟩ := Nat.exists_eq_add_of_le
      (show count ≤ target.toNat - seed.startEpoch.toNat by omega)
    rw [offset] at fits ⊢
    have reached : (spanAt seed (count + more)).startEpoch = target := by
      rw [← UInt64.toNat_inj, spanAt_startEpoch fits]
      omega
    obtain ⟨slotLength, epochLength⟩ := reaches.seed_lengths
    obtain ⟨extended, reaching⟩ := exists_reaches fits slotLength epochLength
    have accepted : EraSchedule.new (spans seed (count + more)) = .ok extended :=
      reaching.eras ▸ EraSchedule.new_eq_ok
    rw [← reached, missingEpochs_eq fits, ← spans_append, accepted,
      Nat.max_eq_right (Nat.le_add_right ..)]
    exact reaching

theorem extendToSlot_eq {slot : SlotNo} (reaches : Reaches seed count schedule)
    (le : seed.startSlot ≤ slot) : schedule.extendToSlot slot =
      schedule.extendToEpoch
        (seed.startEpoch + (slot - seed.startSlot) / seed.epochLengthSlots.toUInt64) := by
  have nonzero : seed.epochLengthSlots.toUInt64 ≠ 0 := by
    have epochLength := reaches.seed_lengths.2
    rw [ne_eq, ← UInt32.toNat_inj] at epochLength
    rw [ne_eq, ← UInt64.toNat_inj, UInt32.toNat_toUInt64]
    exact epochLength
  unfold EraSchedule.extendToSlot
  rw [reaches.eras, head?_spans]
  dsimp only
  rw [if_neg (not_or.mpr ⟨nonzero, UInt64.not_lt.mpr le⟩)]

theorem extendToSlot_of_lt {slot : SlotNo} (reaches : Reaches seed count schedule)
    (lt : slot < seed.startSlot) : schedule.extendToSlot slot = schedule := by
  unfold EraSchedule.extendToSlot
  rw [reaches.eras, head?_spans]
  exact if_pos (.inr lt)

/-! ## Sequences of calls -/

inductive ExtendCall where
  | toEpoch (target : EpochNo)
  | toSlot (slot : SlotNo)

namespace ExtendCall

def apply (schedule : EraSchedule) : ExtendCall → EraSchedule
  | .toEpoch target => schedule.extendToEpoch target
  | .toSlot slot => schedule.extendToSlot slot

/-- The epoch that a call asks for. -/
def epoch (seed : EraSummary) : ExtendCall → EpochNo
  | .toEpoch target => target
  | .toSlot slot =>
      if slot < seed.startSlot then seed.startEpoch
      else seed.startEpoch + (slot - seed.startSlot) / seed.epochLengthSlots.toUInt64

/-- The arithmetic of a call does not overflow. -/
def Fits (seed : EraSummary) : ExtendCall → Prop
  | .toEpoch target => seed.startSlot.toNat +
      (target.toNat - seed.startEpoch.toNat) * seed.epochLengthSlots.toNat < 2 ^ 64
  | .toSlot slot => seed.startEpoch.toNat +
      (slot.toNat - seed.startSlot.toNat) / seed.epochLengthSlots.toNat < 2 ^ 64

end ExtendCall

def extendAll (schedule : EraSchedule) (calls : List ExtendCall) : EraSchedule :=
  calls.foldl ExtendCall.apply schedule

/-- The largest epoch asked for, from an epoch on. -/
def largestEpoch (seed : EraSummary) (epoch : EpochNo) (calls : List ExtendCall) : EpochNo :=
  calls.foldl (fun epoch call => if epoch < call.epoch seed then call.epoch seed else epoch) epoch

variable {call : ExtendCall} {calls : List ExtendCall} {slot : SlotNo} {epoch : EpochNo}

theorem slotEpoch_toNat (le : seed.startSlot ≤ slot) (fits : (ExtendCall.toSlot slot).Fits seed) :
    (seed.startEpoch + (slot - seed.startSlot) / seed.epochLengthSlots.toUInt64).toNat =
      seed.startEpoch.toNat + (slot.toNat - seed.startSlot.toNat) / seed.epochLengthSlots.toNat := by
  rw [UInt64.toNat_add, UInt64.toNat_div, UInt64.toNat_sub_of_le _ _ le, UInt32.toNat_toUInt64]
  exact Nat.mod_eq_of_lt fits

theorem inRange_of_fits (fits : call.Fits seed) :
    InRange seed ((call.epoch seed).toNat - seed.startEpoch.toNat) := by
  have epoch_lt := (call.epoch seed).toNat_lt
  have seed_lt := seed.startEpoch.toNat_lt
  refine ⟨by omega, ?_⟩
  cases call with
  | toEpoch target => exact fits
  | toSlot slot =>
      rw [ExtendCall.epoch]
      split_ifs with before
      · rw [Nat.sub_self, Nat.zero_mul]
        exact seed.startSlot.toNat_lt
      · have le := UInt64.not_lt.mp before
        rw [slotEpoch_toNat le fits, Nat.add_sub_cancel_left]
        have whole := Nat.div_mul_le_self (slot.toNat - seed.startSlot.toNat) seed.epochLengthSlots.toNat
        have low := UInt64.le_iff_toNat_le.mp le
        have high := slot.toNat_lt
        omega

theorem apply_reaches (reaches : Reaches seed count schedule) (fits : call.Fits seed) :
    Reaches seed (max count ((call.epoch seed).toNat - seed.startEpoch.toNat))
      (call.apply schedule) := by
  have range := inRange_of_fits fits
  cases call with
  | toEpoch target => exact extendToEpoch_reaches reaches range
  | toSlot slot =>
      rw [ExtendCall.epoch] at range ⊢
      rw [ExtendCall.apply]
      split_ifs at range ⊢ with before
      · rwa [extendToSlot_of_lt reaches before, Nat.sub_self, Nat.max_eq_left (Nat.zero_le _)]
      · rw [extendToSlot_eq reaches (UInt64.not_lt.mp before)]
        exact extendToEpoch_reaches reaches range

theorem extendAll_reaches
    (reaches : Reaches seed (epoch.toNat - seed.startEpoch.toNat) schedule)
    (fits : ∀ call ∈ calls, call.Fits seed) :
    Reaches seed ((largestEpoch seed epoch calls).toNat - seed.startEpoch.toNat)
      (extendAll schedule calls) := by
  induction calls generalizing schedule epoch with
  | nil => exact reaches
  | cons call calls ih =>
      have stepped := apply_reaches reaches (fits call (List.mem_cons_self ..))
      refine ih ?_ fun other member => fits other (List.mem_cons_of_mem _ member)
      have largest : max (epoch.toNat - seed.startEpoch.toNat)
          ((call.epoch seed).toNat - seed.startEpoch.toNat) =
          (if epoch < call.epoch seed then call.epoch seed else epoch).toNat -
            seed.startEpoch.toNat := by
        split_ifs with later
        · have lt := UInt64.lt_iff_toNat_lt.mp later
          omega
        · have le := UInt64.le_iff_toNat_le.mp (UInt64.not_lt.mp later)
          omega
      rwa [largest] at stepped

/-! ## What a slot is located as -/

/-- The position of a slot, without the index of its era. -/
def coordinates (location : EraLocation) : CardanoEra × EpochNo × UInt32 :=
  (location.era, location.epoch, location.relativeSlotInEpoch)

/-- The position of a slot by the geometry of the seed alone. -/
def locatedBySeed (seed : EraSummary) (slot : SlotNo) :
    Except HFCError (CardanoEra × EpochNo × UInt32) :=
  let epochLength := seed.epochLengthSlots.toUInt64
  let slotsIntoEra := slot - seed.startSlot
  if seed.startEpoch.toNat + (slot.toNat - seed.startSlot.toNat) / seed.epochLengthSlots.toNat < 2 ^ 64 then
    .ok (seed.era, seed.startEpoch + slotsIntoEra / epochLength, (slotsIntoEra % epochLength).toUInt32)
  else .error (.slotAfterLastEra slot (UInt64.ofNat (2 ^ 64 - 1)))

/-- A slot in a later span, counted from the span and from the seed. -/
theorem count_from_span (fits : InRange seed index) (positive : 0 < seed.epochLengthSlots.toNat)
    (reached : (spanAt seed index).startSlot ≤ slot) :
    (slot.toNat - seed.startSlot.toNat) / seed.epochLengthSlots.toNat =
        index + (slot.toNat - (spanAt seed index).startSlot.toNat) / seed.epochLengthSlots.toNat ∧
      (slot.toNat - seed.startSlot.toNat) % seed.epochLengthSlots.toNat =
        (slot.toNat - (spanAt seed index).startSlot.toNat) % seed.epochLengthSlots.toNat := by
  rw [UInt64.le_iff_toNat_le] at reached
  rw [spanAt_startSlot fits] at reached ⊢
  have split : slot.toNat - seed.startSlot.toNat =
      slot.toNat - (seed.startSlot.toNat + index * seed.epochLengthSlots.toNat) +
        index * seed.epochLengthSlots.toNat := by
    omega
  rw [split, Nat.add_mul_div_right _ _ positive, Nat.add_mul_mod_self_right]
  exact ⟨Nat.add_comm _ _, rfl⟩

theorem locate_reaches (reaches : Reaches seed count schedule) (le : seed.startSlot ≤ slot) :
    (schedule.locate slot).map coordinates = locatedBySeed seed slot := by
  have low : ∀ first ∈ schedule.eras.head?, first.startSlot ≤ slot := by
    intro first found
    rw [reaches.eras, head?_spans] at found
    cases found
    exact le
  have positive : 0 < seed.epochLengthSlots.toNat := by
    have epochLength := reaches.seed_lengths.2
    rw [ne_eq, ← UInt32.toNat_inj] at epochLength
    exact Nat.pos_of_ne_zero epochLength
  have member : eraOf schedule slot ∈ spans seed count := reaches.eras ▸ List.get_mem ..
  obtain ⟨index, inside, chosen⟩ := List.mem_map.mp member
  have fits := reaches.inRange.mono (Nat.lt_succ_iff.mp (List.mem_range.mp inside))
  have reached : (spanAt seed index).startSlot ≤ slot := chosen ▸ eraOf_le low
  obtain ⟨quotient, remainder⟩ := count_from_span fits positive reached
  have epoch := spanAt_startEpoch fits
  have inEpoch : EpochFits schedule slot ↔ seed.startEpoch.toNat +
      (slot.toNat - seed.startSlot.toNat) / seed.epochLengthSlots.toNat < 2 ^ 64 := by
    unfold EpochFits
    dsimp only
    rw [← chosen, spanAt_epochLengthSlots, epoch, quotient, Nat.add_assoc]
  have epochs : (spanAt seed index).startEpoch +
      (slot - (spanAt seed index).startSlot) / seed.epochLengthSlots.toUInt64 =
        seed.startEpoch + (slot - seed.startSlot) / seed.epochLengthSlots.toUInt64 := by
    rw [← UInt64.toNat_inj, UInt64.toNat_add, UInt64.toNat_add, UInt64.toNat_div, UInt64.toNat_div,
      UInt64.toNat_sub_of_le _ _ reached, UInt64.toNat_sub_of_le _ _ le, UInt32.toNat_toUInt64,
      epoch, quotient, Nat.add_assoc]
  have relative : (slot - (spanAt seed index).startSlot) % seed.epochLengthSlots.toUInt64 =
      (slot - seed.startSlot) % seed.epochLengthSlots.toUInt64 := by
    rw [← UInt64.toNat_inj, UInt64.toNat_mod, UInt64.toNat_mod, UInt64.toNat_sub_of_le _ _ reached,
      UInt64.toNat_sub_of_le _ _ le, UInt32.toNat_toUInt64, remainder]
  rw [locate_eq low, locatedBySeed]
  simp only [inEpoch]
  rw [← chosen]
  split_ifs
  · simp only [Except.map, coordinates, spanAt_era, spanAt_epochLengthSlots, epochs, relative]
  · rfl

/-! ## The forecast horizon -/

theorem checkForecastHorizon_reaches (reaches : Reaches seed count schedule) :
    schedule.checkForecastHorizon slot = .ok () ↔ slot.toNat ≤
      (spanAt seed count).startSlot.toNat + (spanAt seed count).safeZoneSlots.toNat := by
  unfold EraSchedule.checkForecastHorizon
  rw [reaches.eras, getLast?_spans]
  dsimp only
  rw [← UInt32.toNat_toUInt64, ← le_saturatingAdd]
  split_ifs with beyond
  · exact iff_of_false (fun failed => by cases failed) (UInt64.not_le.mpr beyond)
  · exact iff_of_true rfl (UInt64.not_lt.mp beyond)

/-- Only a schedule that was extended has a horizon at the end of its last epoch. -/
theorem horizon_of_extended (reaches : Reaches seed count schedule)
    (covers : (slot.toNat - seed.startSlot.toNat) / seed.epochLengthSlots.toNat ≤ count) :
    schedule.checkForecastHorizon slot = .ok () ↔
      slot.toNat ≤ seed.startSlot.toNat + seed.safeZoneSlots.toNat ∨ 0 < count := by
  rw [checkForecastHorizon_reaches reaches, spanAt_startSlot reaches.inRange]
  cases count with
  | zero => simp [spanAt]
  | succ count =>
      have positive : 0 < seed.epochLengthSlots.toNat := by
        have epochLength := reaches.seed_lengths.2
        rw [ne_eq, ← UInt32.toNat_inj] at epochLength
        exact Nat.pos_of_ne_zero epochLength
      have before := Nat.lt_mul_of_div_lt (Nat.lt_succ_of_le covers) positive
      have zone : (spanAt seed (count + 1)).safeZoneSlots = seed.epochLengthSlots := rfl
      rw [Nat.succ_mul] at before
      rw [zone]
      exact iff_of_true (by omega) (.inr (Nat.succ_pos count))

/-! ## Every sequence of extensions -/

theorem reaches_of_single (single : schedule.eras = [seed]) : Reaches seed 0 schedule where
  eras := single
  inRange := ⟨seed.startEpoch.toNat_lt, by
    rw [Nat.zero_mul]
    exact seed.startSlot.toNat_lt⟩

/-- A slot in the safe zone of the seed, or an epoch after the seed's asked for. -/
def Covered (seed : EraSummary) (calls : List ExtendCall) (slot : SlotNo) : Prop :=
  slot.toNat ≤ seed.startSlot.toNat + seed.safeZoneSlots.toNat ∨
    seed.startEpoch < largestEpoch seed seed.startEpoch (calls ++ [.toSlot slot])

theorem slotEpoch_le_largest (le : seed.startSlot ≤ slot) (fits : (ExtendCall.toSlot slot).Fits seed) :
    (slot.toNat - seed.startSlot.toNat) / seed.epochLengthSlots.toNat ≤
      (largestEpoch seed epoch (calls ++ [.toSlot slot])).toNat - seed.startEpoch.toNat := by
  have asked : ((ExtendCall.toSlot slot).epoch seed).toNat = seed.startEpoch.toNat +
      (slot.toNat - seed.startSlot.toNat) / seed.epochLengthSlots.toNat := by
    rw [ExtendCall.epoch, if_neg (UInt64.not_lt.mpr le), slotEpoch_toNat le fits]
  have above : ((ExtendCall.toSlot slot).epoch seed).toNat ≤
      (largestEpoch seed epoch (calls ++ [.toSlot slot])).toNat := by
    unfold largestEpoch
    rw [List.foldl_append, List.foldl_cons, List.foldl_nil]
    split_ifs with later
    · exact Nat.le_refl _
    · exact UInt64.le_iff_toNat_le.mp (UInt64.not_lt.mp later)
  omega

/-- Extensions keep what slots are located as and depend on the largest epoch alone; they cover
a slot of the seed's own epoch only up to the seed's safe zone. -/
theorem extensions_agree (schedule : EraSchedule) (seed : EraSummary) (single : schedule.eras = [seed])
    (calls : List ExtendCall) (slot : SlotNo) (le : seed.startSlot ≤ slot)
    (fits : ∀ call ∈ calls ++ [.toSlot slot], call.Fits seed) :
    (∀ located, seed.startSlot ≤ located →
      ((extendAll schedule calls).locate located).map coordinates =
        (schedule.locate located).map coordinates) ∧
      extendAll schedule calls = schedule.extendToEpoch (largestEpoch seed seed.startEpoch calls) ∧
      (((extendAll schedule calls).extendToSlot slot).checkForecastHorizon slot = .ok () ↔
        Covered seed calls slot) := by
  have initial := reaches_of_single single
  have from_seed : Reaches seed (seed.startEpoch.toNat - seed.startEpoch.toNat) schedule := by
    rw [Nat.sub_self]
    exact initial
  have extended := extendAll_reaches from_seed fun call member =>
    fits call (List.mem_append_left _ member)
  have once := extendToEpoch_reaches initial extended.inRange
  rw [Nat.max_eq_right (Nat.zero_le _)] at once
  refine ⟨fun located low => ?_, schedule_ext (extended.eras.trans once.eras.symm), ?_⟩
  · rw [locate_reaches extended low, locate_reaches initial low]
  · have final := extendAll_reaches from_seed fits
    have asked := @slotEpoch_le_largest seed calls slot seed.startEpoch le
      (fits (.toSlot slot) (List.mem_append_right _ (List.mem_singleton_self _)))
    have unfolded : extendAll schedule (calls ++ [.toSlot slot]) =
        (extendAll schedule calls).extendToSlot slot := by
      unfold extendAll
      rw [List.foldl_append]
      rfl
    rw [← unfolded, horizon_of_extended final asked, Covered, UInt64.lt_iff_toNat_lt, Nat.sub_pos_iff_lt]

section Samples

/-- An epoch longer than its safe zone. -/
def sampleSeed : EraSummary := ⟨.conway, 0, 0, 1000, 432000, 129600, some 172800⟩

def seedSchedule : EraSchedule where
  eras := [sampleSeed]
  nonempty := by simp
  lengths := by simp [sampleSeed]
  monotone := .singleton _

theorem extensions_agree_in_next_epoch :
    extendAll seedSchedule [.toEpoch 2, .toSlot 500000] = seedSchedule.extendToEpoch 2 ∧
      ((extendAll seedSchedule [.toEpoch 2, .toSlot 500000]).extendToSlot 600000).checkForecastHorizon
        600000 = .ok () := by
  obtain ⟨-, same, covered⟩ := extensions_agree seedSchedule sampleSeed rfl
    [.toEpoch 2, .toSlot 500000] 600000 (by decide) (by
      intro call member
      simp only [List.cons_append, List.nil_append, List.mem_cons, List.not_mem_nil, or_false] at member
      rcases member with rfl | rfl | rfl <;> simp [ExtendCall.Fits, sampleSeed])
  exact ⟨same, covered.mpr (.inr (by decide))⟩

theorem seed_epoch_is_not_covered : ¬ ∀ schedule seed, schedule.eras = [seed] →
    ∀ calls slot, seed.startSlot ≤ slot → (∀ call ∈ calls ++ [.toSlot slot], call.Fits seed) →
      ((extendAll schedule calls).extendToSlot slot).checkForecastHorizon slot = .ok () := by
  intro always
  have covered := always seedSchedule sampleSeed rfl [] 200000 (by decide) (by
    simp [ExtendCall.Fits, sampleSeed])
  have refused : ((extendAll seedSchedule []).extendToSlot 200000).checkForecastHorizon 200000 =
      .error ⟨200000, 129600⟩ := by
    decide
  cases refused.symm.trans covered

end Samples

end Ade.Proof.Consensus
