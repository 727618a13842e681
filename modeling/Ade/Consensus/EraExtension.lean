import Ade.Consensus.Header

/-! The checked constructor of a schedule, and its extension one epoch at a time. -/

namespace Ade.Consensus
open Library

def checkLengths : (index : Nat) → List EraSummary → Except HFCError Unit
  | _, [] => .ok ()
  | index, era :: rest =>
      if era.slotLengthMs = 0 then .error (.zeroSlotLength (UInt8.ofNat index))
      else if era.epochLengthSlots = 0 then .error (.zeroEpochLength (UInt8.ofNat index))
      else checkLengths (index + 1) rest

def checkMonotone : List EraSummary → Except HFCError Unit
  | prev :: next :: rest =>
      if next.startSlot ≤ prev.startSlot then
        .error (.nonMonotonicEras prev.startSlot next.startSlot)
      else checkMonotone (next :: rest)
  | _ => .ok ()

theorem checkLengths_eq_ok {eras : List EraSummary} {index : Nat} :
    checkLengths index eras = .ok () ↔
      ∀ era ∈ eras, era.slotLengthMs ≠ 0 ∧ era.epochLengthSlots ≠ 0 := by
  induction eras generalizing index with
  | nil => simp [checkLengths]
  | cons era rest ih =>
      rw [checkLengths, List.forall_mem_cons]
      split_ifs with slot epoch
      · simp [slot]
      · simp [epoch]
      · rw [ih]
        exact (and_iff_right ⟨slot, epoch⟩).symm

theorem checkMonotone_eq_ok {eras : List EraSummary} :
    checkMonotone eras = .ok () ↔ eras.IsChain fun era next => era.startSlot < next.startSlot := by
  induction eras with
  | nil => simp [checkMonotone]
  | cons era rest ih =>
      cases rest with
      | nil => simp [checkMonotone]
      | cons next rest =>
          rw [checkMonotone, List.isChain_cons_cons]
          split_ifs with back
          · simp [UInt64.not_lt.mpr back]
          · rw [ih]
            exact (and_iff_right (UInt64.not_le.mp back)).symm

namespace EraSchedule

def new (eras : List EraSummary) : Except HFCError EraSchedule :=
  if nonempty : eras = [] then .error .emptyEraList
  else
    match lengths : checkLengths 0 eras with
    | .error failure => .error failure
    | .ok _ =>
        match monotone : checkMonotone eras with
        | .error failure => .error failure
        | .ok _ => .ok
            { eras, nonempty
              lengths := checkLengths_eq_ok.mp lengths
              monotone := checkMonotone_eq_ok.mp monotone }

theorem new_eq_ok {schedule : EraSchedule} : new schedule.eras = .ok schedule := by
  unfold new
  rw [dif_neg schedule.nonempty]
  have lengths : checkLengths 0 schedule.eras = .ok () := checkLengths_eq_ok.mpr schedule.lengths
  have monotone := checkMonotone_eq_ok.mpr schedule.monotone
  split
  · rename_i failed
    cases lengths.symm.trans failed
  · split
    · rename_i failed
      cases monotone.symm.trans failed
    · rfl

end EraSchedule

/-- The summary of one epoch, with the geometry of the first era. -/
def extensionEra (seed : EraSummary) (epoch : EpochNo) : EraSummary where
  era := seed.era
  startSlot := seed.startSlot + (epoch - seed.startEpoch) * seed.epochLengthSlots.toUInt64
  startEpoch := epoch
  slotLengthMs := seed.slotLengthMs
  epochLengthSlots := seed.epochLengthSlots
  safeZoneSlots := seed.epochLengthSlots
  randomnessStabilisationWindowSlots := seed.randomnessStabilisationWindowSlots

namespace EraSchedule

/-- The epochs after the last one, up to the target. -/
def missingEpochs (last target : EpochNo) : List EpochNo :=
  (List.range (target - last).toNat).map fun index => last + 1 + UInt64.ofNat index

/-- An extension that the constructor refuses leaves the schedule as it is. -/
def extendToEpoch (schedule : EraSchedule) (target : EpochNo) : EraSchedule :=
  match schedule.eras.head?, schedule.eras.getLast? with
  | some seed, some last =>
      if target ≤ last.startEpoch then schedule
      else
        match new (schedule.eras ++ (missingEpochs last.startEpoch target).map (extensionEra seed)) with
        | .ok extended => extended
        | .error _ => schedule
  | _, _ => schedule

def extendToSlot (schedule : EraSchedule) (slot : SlotNo) : EraSchedule :=
  match schedule.eras.head? with
  | some seed =>
      let epochLength := seed.epochLengthSlots.toUInt64
      if epochLength = 0 ∨ slot < seed.startSlot then schedule
      else schedule.extendToEpoch (seed.startEpoch + (slot - seed.startSlot) / epochLength)
  | none => schedule

end EraSchedule

end Ade.Consensus
