import Ade.Consensus.Header

/-! Slots and instants: the walks over a schedule, and the anchor that keeps a part of it. -/

namespace Ade.Consensus
open Library

/-- A schedule with the instant that its first era starts at, in milliseconds. -/
structure TimedSchedule extends EraSchedule where
  systemStartUnixMs : UInt64

inductive SlotDerivationError where
  | beforeSystemStart (capturedMs systemStartMs : UInt64)
  | emptySchedule
  | scheduleDoesNotCoverSystemStart (firstEraStartSlot : UInt64)
  | zeroSlotLength (eraIndex : UInt8)
  | overflow
deriving DecidableEq, Repr

inductive SlotTimeError where
  | hfc (failure : HFCError)
  | overflow
deriving DecidableEq, Repr

inductive TimingAnchorError where
  | domainStartNotDerivable (failure : SlotDerivationError)
  | beforeDomainStart (capturedMs domainStartMs : UInt64)
  | malformedSegments
  | overflow
deriving DecidableEq, Repr

/-! ## Segments -/

/-- The instant at which the next era starts. -/
def nextStartMs (segStartMs : UInt64) (era next : EraSummary) : Option UInt64 := do
  let spanSlots ← checkedSub next.startSlot era.startSlot
  let spanMs ← checkedMul spanSlots era.slotLengthMs.toUInt64
  checkedAdd segStartMs spanMs

/-- The slot of an instant, from the start of its segment. -/
def slotWithin (segStartMs : UInt64) (startSlot : SlotNo) (slotLengthMs : UInt32) (capturedMs : UInt64) :
    Option SlotNo := do
  let elapsedMs ← checkedSub capturedMs segStartMs
  checkedAdd startSlot (elapsedMs / slotLengthMs.toUInt64)

/-- The start of a slot, from the start of its segment. -/
def timeWithin (segStartMs : UInt64) (era : EraSummary) (slot : SlotNo) : Option UInt64 := do
  let offset ← checkedSub slot era.startSlot
  let offsetMs ← checkedMul offset era.slotLengthMs.toUInt64
  checkedAdd segStartMs offsetMs

def okOr {ε α : Type} (failure : ε) (found : Option α) : Except ε α :=
  match found with
  | some value => .ok value
  | none => .error failure

/-! ## From an instant to a slot -/

/-- The start of the next segment is computed first, whether or not the instant is before it. -/
def slotInSegments (capturedMs segStartMs : UInt64) :
    (index : Nat) → List EraSummary → Except SlotDerivationError SlotNo
  | _, [] => .error .emptySchedule
  | index, [era] =>
      if era.slotLengthMs = 0 then .error (.zeroSlotLength (UInt8.ofNat index))
      else okOr .overflow (slotWithin segStartMs era.startSlot era.slotLengthMs capturedMs)
  | index, era :: next :: rest =>
      if era.slotLengthMs = 0 then .error (.zeroSlotLength (UInt8.ofNat index))
      else
        match nextStartMs segStartMs era next with
        | none => .error .overflow
        | some nextMs =>
            if capturedMs < nextMs then
              okOr .overflow (slotWithin segStartMs era.startSlot era.slotLengthMs capturedMs)
            else slotInSegments capturedMs nextMs (index + 1) (next :: rest)

def expectFromZero (schedule : TimedSchedule) : Except SlotDerivationError Unit :=
  match schedule.eras with
  | [] => .error .emptySchedule
  | first :: _ =>
      if first.startSlot ≠ 0 then .error (.scheduleDoesNotCoverSystemStart first.startSlot) else .ok ()

def slotAt (schedule : TimedSchedule) (capturedMs : UInt64) : Except SlotDerivationError SlotNo := do
  expectFromZero schedule
  if capturedMs < schedule.systemStartUnixMs then
    throw (.beforeSystemStart capturedMs schedule.systemStartUnixMs)
  slotInSegments capturedMs schedule.systemStartUnixMs 0 schedule.eras

/-! ## From a slot to an instant -/

def startInSegments (slot : SlotNo) (segStartMs : UInt64) :
    (index : Nat) → List EraSummary → Except SlotDerivationError UInt64
  | _, [] => .error .emptySchedule
  | index, [era] =>
      if era.slotLengthMs = 0 then .error (.zeroSlotLength (UInt8.ofNat index))
      else okOr .overflow (timeWithin segStartMs era slot)
  | index, era :: next :: rest =>
      if era.slotLengthMs = 0 then .error (.zeroSlotLength (UInt8.ofNat index))
      else if slot < next.startSlot then okOr .overflow (timeWithin segStartMs era slot)
      else
        match nextStartMs segStartMs era next with
        | none => .error .overflow
        | some nextMs => startInSegments slot nextMs (index + 1) (next :: rest)

def slotStartTimeMs (schedule : TimedSchedule) (slot : SlotNo) : Except SlotDerivationError UInt64 := do
  expectFromZero schedule
  startInSegments slot schedule.systemStartUnixMs 0 schedule.eras

/-- The start of the era with an index. An index past the end never occurs. -/
def eraStartMs (accMs : UInt64) : (eraIndex : Nat) → List EraSummary → Option UInt64
  | 0, _ => some accMs
  | eraIndex + 1, prior :: next :: rest => do
      let accMs ← nextStartMs accMs prior next
      eraStartMs accMs eraIndex (next :: rest)
  | _ + 1, _ => none

namespace TimedSchedule

/-- The index of the located era has eight bits. -/
def slotToTimeMs (schedule : TimedSchedule) (slot : SlotNo) : Except SlotTimeError UInt64 := do
  let location ← (schedule.locate slot).mapError .hfc
  let eraIndex := location.eraIndex.toNat
  let accMs ← okOr .overflow (eraStartMs schedule.systemStartUnixMs eraIndex schedule.eras)
  let current ← okOr .overflow schedule.eras[eraIndex]?
  okOr .overflow (timeWithin accMs current slot)

end TimedSchedule

/-! ## The anchor -/

structure TimingSegment where
  startSlot : SlotNo
  slotLengthMs : UInt32
  startMs : UInt64
deriving DecidableEq

/-- The hash of a schedule's timing. -/
abbrev ScheduleCommitment := Hash32

structure DerivedTimingAnchor where
  domainStartMs : UInt64
  domainStartSlot : SlotNo
  segments : List TimingSegment
  sourceScheduleCommitment : ScheduleCommitment
deriving DecidableEq

variable (blake2b256 : Bytes → Hash32)

def timingScheduleTag : Bytes := "ade.live2c.timing-schedule.v1".toUTF8.toList

def scheduleTimingCommitment (schedule : TimedSchedule) : ScheduleCommitment :=
  blake2b256 (timingScheduleTag ++ toBeBytes 8 schedule.systemStartUnixMs.toNat ++
    toBeBytes 8 schedule.eras.length ++ schedule.eras.flatMap fun era =>
      toBeBytes 8 era.startSlot.toNat ++ toBeBytes 8 era.slotLengthMs.toNat)

/-- Every era with its start. -/
def timingSegments (segMs : UInt64) : List EraSummary → Except TimingAnchorError (List TimingSegment)
  | [] => .ok []
  | [era] =>
      if era.slotLengthMs = 0 then .error .malformedSegments
      else .ok [⟨era.startSlot, era.slotLengthMs, segMs⟩]
  | era :: next :: rest =>
      if era.slotLengthMs = 0 then .error .malformedSegments
      else if next.startSlot < era.startSlot then .error .malformedSegments
      else do
        let nextMs ← okOr .overflow (nextStartMs segMs era next)
        let later ← timingSegments nextMs (next :: rest)
        return ⟨era.startSlot, era.slotLengthMs, segMs⟩ :: later

/-- The last position whose item satisfies the predicate. -/
def rposition {α : Type} (items : List α) (found : α → Bool) : Option Nat :=
  (items.reverse.findIdx? found).map (items.length - 1 - ·)

namespace DerivedTimingAnchor

def derive (schedule : TimedSchedule) (domainStartMs : UInt64) :
    Except TimingAnchorError DerivedTimingAnchor := do
  let domainStartSlot ← (slotAt schedule domainStartMs).mapError .domainStartNotDerivable
  let all ← timingSegments schedule.systemStartUnixMs schedule.eras
  let firstIdx ← okOr .malformedSegments
    (rposition all fun segment => segment.startSlot ≤ domainStartSlot)
  let segments := all.drop firstIdx
  if segments.isEmpty then throw .malformedSegments
  return ⟨domainStartMs, domainStartSlot, segments, scheduleTimingCommitment blake2b256 schedule⟩

def deriveForBootstrapAnchor (schedule : TimedSchedule) (bootstrapAnchorSlot : SlotNo) :
    Except TimingAnchorError DerivedTimingAnchor := do
  let domainStartMs ← (slotStartTimeMs schedule bootstrapAnchorSlot).mapError .domainStartNotDerivable
  let anchor ← derive blake2b256 schedule domainStartMs
  if anchor.domainStartSlot ≠ bootstrapAnchorSlot then throw .malformedSegments
  return anchor

/-- The kept segments carry their own starts. -/
def slotInAnchor (capturedMs : UInt64) : List TimingSegment → Except TimingAnchorError SlotNo
  | [] => .error .malformedSegments
  | [segment] =>
      okOr .overflow (slotWithin segment.startMs segment.startSlot segment.slotLengthMs capturedMs)
  | segment :: next :: rest =>
      if capturedMs < next.startMs then
        okOr .overflow (slotWithin segment.startMs segment.startSlot segment.slotLengthMs capturedMs)
      else slotInAnchor capturedMs (next :: rest)

def slotAt (anchor : DerivedTimingAnchor) (capturedMs : UInt64) : Except TimingAnchorError SlotNo :=
  if capturedMs < anchor.domainStartMs then
    .error (.beforeDomainStart capturedMs anchor.domainStartMs)
  else slotInAnchor capturedMs anchor.segments

end DerivedTimingAnchor

end Ade.Consensus
