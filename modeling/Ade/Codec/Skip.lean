import Ade.Codec.Cbor

/-! Skipping a CBOR item: the iterative walker, the recursive one that it replaced, and a walker that
keeps track of map entries. -/

namespace Ade.Codec
open Library

/-- A result and the offset at which it leaves the reader. -/
abbrev Outcome (α : Type) := Except CodecError α × Nat

/-- What the head of an item announces. -/
inductive ItemHead where
  | leaf
  | array (count : UInt64)
  | map (count : UInt64)
  | indefinite
  | indefiniteMap
  | tag
deriving DecidableEq, Repr

/-- The rest of a head, after its initial byte. -/
def readHeadTail (data : Bytes) (start major ai : Nat) : Read ItemHead := do
  if major = majorUnsigned ∨ major = majorNegative then
    if ai < 24 then return .leaf
    else
      let _ ← decodeArgument data ai start
      return .leaf
  else if major = majorBytes ∨ major = majorText then
    if ai = 31 then return .indefinite
    else
      let (len, _) ← decodeArgument data ai start
      let _ ← readPayload data len.toNat
      return .leaf
  else if major = majorArray then
    if ai = 31 then return .indefinite
    else
      let (count, _) ← decodeArgument data ai start
      return .array count
  else if major = majorMap then
    if ai = 31 then return .indefiniteMap
    else
      let (count, _) ← decodeArgument data ai start
      return .map count
  else if major = majorTag then
    let _ ← decodeArgument data ai start
    return .tag
  else if ai ≤ 23 then return .leaf
  else if ai = 24 then
    let _ ← readByte data
    return .leaf
  else if ai = 25 then
    let _ ← readPayload data 2
    return .leaf
  else if ai = 26 then
    let _ ← readPayload data 4
    return .leaf
  else if ai = 27 then
    let _ ← readPayload data 8
    return .leaf
  else if ai = 31 then
    throw (.invalidCborStructure start "unexpected break code outside indefinite container")
  else
    throw (.invalidCborStructure start "reserved additional info in simple/float")

/-- One head with its inline payload, as both walkers read it. -/
def readHead (data : Bytes) : Read ItemHead := do
  let start ← get
  let (major, ai) ← decodeInitial data
  readHeadTail data start major ai

/-! ## Every head takes at least its initial byte -/

section Progress

variable {data : Bytes} {start : Nat}

/-- Failures about the structure point at or behind `start`. -/
def PointsFrom (start : Nat) (failure : CodecError) : Prop :=
  ∀ offset detail, failure = .invalidCborStructure offset detail → start ≤ offset

theorem pointsFrom_eof (offset needed : Nat) : PointsFrom start (.unexpectedEof offset needed) := by
  intro other detail same
  cases same

/-- Readers fail by running out of bytes, if nothing else is said. -/
theorem readByte_ensures {fails : CodecError → Prop}
    (eof : ∀ offset needed, fails (.unexpectedEof offset needed)) (least : Nat) :
    Cursor.Ensures (least ≤ ·) fails (readByte data) := by
  intro offset reached
  cases peeked : peekByte data offset with
  | error failure =>
      have ran : (readByte data).runAt offset = (.error failure, offset) := by
        simp [readByte, Cursor.runAt_bind, peeked]
      rw [ran]
      refine ⟨reached, fun other failed => ?_⟩
      cases failed
      unfold peekByte at peeked
      split at peeked
      · cases peeked
      · cases peeked
        exact eof _ _
  | ok byte =>
      have ran : (readByte data).runAt offset = (.ok byte, offset + 1) := by
        simp [readByte, Cursor.runAt_bind, peeked, Except.map]
      rw [ran]
      refine ⟨Nat.le_succ_of_le reached, fun other failed => ?_⟩
      cases failed

theorem readByte_forward (least : Nat) :
    Cursor.Ensures (least ≤ ·) (PointsFrom start) (readByte data) :=
  readByte_ensures pointsFrom_eof least

theorem readPayload_runAt (data : Bytes) (len offset : Nat) :
    (readPayload data len).runAt offset =
      if offset + len > data.length then (.error (.unexpectedEof offset len), offset)
      else (.ok ((data.drop offset).take len), offset + len) := by
  by_cases short : offset + len > data.length
  · simp [readPayload, Cursor.runAt_bind, short]
  · simp [readPayload, Cursor.runAt_bind, short, Except.map]

theorem readFixed_runAt (data : Bytes) (width offset : Nat) :
    (readFixed data width).runAt offset =
      if offset + width > data.length then (.error (.unexpectedEof offset width), offset)
      else (.ok (UInt64.ofNat (fromBeBytes ((data.drop offset).take width))), offset + width) := by
  by_cases short : offset + width > data.length
  · simp [readFixed, Cursor.runAt_bind, short]
  · simp [readFixed, Cursor.runAt_bind, short, Except.map]

/-- A read that either runs out of bytes or moves the offset by the bytes it takes. -/
theorem ensures_of_runAt {α : Type} {cursor : Read α} {len : Nat} {value : Nat → α}
    {fails : CodecError → Prop} (eof : ∀ offset needed, fails (.unexpectedEof offset needed)) (least : Nat)
    (ran : ∀ offset, cursor.runAt offset =
      if offset + len > data.length then (.error (.unexpectedEof offset len), offset)
      else (.ok (value offset), offset + len)) :
    Cursor.Ensures (least ≤ ·) fails cursor := by
  intro offset reached
  rw [ran]
  split_ifs
  · refine ⟨reached, fun failure failed => ?_⟩
    cases failed
    exact eof _ _
  · refine ⟨Nat.le_add_right_of_le reached, fun failure failed => ?_⟩
    cases failed

theorem readPayload_forward (least len : Nat) :
    Cursor.Ensures (least ≤ ·) (PointsFrom start) (readPayload data len) :=
  ensures_of_runAt pointsFrom_eof least (readPayload_runAt data len)

theorem decodeArgument_ensures {fails : CodecError → Prop}
    (eof : ∀ offset needed, fails (.unexpectedEof offset needed))
    (reserved : fails (.invalidCborStructure start "reserved additional info value (28-30)"))
    (least ai : Nat) : Cursor.Ensures (least ≤ ·) fails (decodeArgument data ai start) := by
  unfold decodeArgument
  split_ifs
  · exact .pure _
  · exact (readByte_ensures eof least).bind fun _ => .pure _
  · exact (ensures_of_runAt eof least (readFixed_runAt data 2)).bind fun _ => .pure _
  · exact (ensures_of_runAt eof least (readFixed_runAt data 4)).bind fun _ => .pure _
  · exact (ensures_of_runAt eof least (readFixed_runAt data 8)).bind fun _ => .pure _
  · exact .throw reserved

theorem decodeArgument_forward (least ai : Nat) :
    Cursor.Ensures (least ≤ ·) (PointsFrom start) (decodeArgument data ai start) := by
  refine decodeArgument_ensures pointsFrom_eof ?_ least ai
  intro offset detail same
  cases same
  exact Nat.le_refl _

theorem readHeadTail_forward (least major ai : Nat) :
    Cursor.Ensures (least ≤ ·) (PointsFrom start) (readHeadTail data start major ai) := by
  have here : ∀ detail, PointsFrom start (.invalidCborStructure start detail) := by
    intro detail offset other same
    cases same
    exact Nat.le_refl _
  have argument := @decodeArgument_forward data start least ai
  have leaf : Cursor.Ensures (least ≤ ·) (PointsFrom start) (pure ItemHead.leaf : Read ItemHead) :=
    .pure _
  have payload : ∀ len, Cursor.Ensures (least ≤ ·) (PointsFrom start)
      (readPayload data len >>= fun _ => (pure ItemHead.leaf : Read ItemHead)) :=
    fun len => (readPayload_forward least len).bind fun _ => leaf
  unfold readHeadTail
  apply Cursor.Ensures.ite
  · exact .ite leaf (argument.bind fun _ => leaf)
  apply Cursor.Ensures.ite
  · exact .ite (.pure _) (argument.bind fun _ => payload _)
  apply Cursor.Ensures.ite
  · exact .ite (.pure _) (argument.bind fun _ => .pure _)
  apply Cursor.Ensures.ite
  · exact .ite (.pure _) (argument.bind fun _ => .pure _)
  apply Cursor.Ensures.ite
  · exact argument.bind fun _ => .pure _
  apply Cursor.Ensures.ite leaf
  apply Cursor.Ensures.ite
  · exact (readByte_forward least).bind fun _ => leaf
  apply Cursor.Ensures.ite (payload 2)
  apply Cursor.Ensures.ite (payload 4)
  apply Cursor.Ensures.ite (payload 8)
  exact .ite (.throw (here _)) (.throw (here _))

theorem readHead_runAt (data : Bytes) (offset : Nat) :
    (readHead data).runAt offset =
      match data[offset]? with
      | none => (.error (.unexpectedEof offset 1), offset)
      | some byte =>
          (readHeadTail data offset (byte.toNat / 32) (byte.toNat % 32)).runAt (offset + 1) := by
  cases found : data[offset]? with
  | none => simp [readHead, decodeInitial, readByte, peekByte, Cursor.runAt_bind, found]
  | some byte =>
      simp [readHead, decodeInitial, readByte, peekByte, Cursor.runAt_bind, found]

/-- A head that was read took a byte. -/
theorem readHead_ok {offset after : Nat} {head : ItemHead}
    (ran : (readHead data).runAt offset = (.ok head, after)) :
    offset < data.length ∧ offset < after := by
  rw [readHead_runAt] at ran
  cases found : data[offset]? with
  | none => simp [found] at ran
  | some byte =>
      simp only [found] at ran
      have forward := @readHeadTail_forward data offset (offset + 1) (byte.toNat / 32)
        (byte.toNat % 32) (offset + 1) (Nat.le_refl _)
      rw [ran] at forward
      exact ⟨(List.getElem?_eq_some_iff.mp found).1, forward.1⟩

end Progress

/-! ## The iterative walker

`owed` holds the items still owed by each open container, innermost first; `none` stands for items
until a break byte. -/

def owedBy : ItemHead → List (Option Nat)
  | .leaf => []
  | .array count => [some count.toNat]
  | .map count => [some (count.toNat * 2)]
  | .indefinite => [none]
  | .indefiniteMap => [none]
  | .tag => [some 1]

/-- The inner loop. It returns the stack with which the next item is read, if one is still owed. -/
def settle (data : Bytes) : List (Option Nat) → Nat → Outcome (Option (List (Option Nat)))
  | [], offset => (.ok none, offset)
  | some 0 :: owed, offset => settle data owed offset
  | some (count + 1) :: owed, offset => (.ok (some (some count :: owed)), offset)
  | none :: owed, offset =>
      match peekByte data offset with
      | .error failure => (.error failure, offset)
      | .ok byte =>
          if byte = breakByte then settle data owed (offset + 1)
          else (.ok (some (none :: owed)), offset)

theorem settle_forward {data : Bytes} {owed : List (Option Nat)} {offset : Nat} :
    offset ≤ (settle data owed offset).2 := by
  fun_induction settle data owed offset with
  | case1 | case3 | case4 | case6 => exact Nat.le_refl _
  | case2 offset owed ih => exact ih
  | case5 offset owed peeked ih => exact Nat.le_of_succ_le ih

def skipLoop (data : Bytes) (owed : List (Option Nat)) (offset : Nat) : Outcome Unit :=
  match ran : (readHead data).runAt offset with
  | (.error failure, after) => (.error failure, after)
  | (.ok head, after) =>
      match settled : settle data (owedBy head ++ owed) after with
      | (.error failure, final) => (.error failure, final)
      | (.ok none, final) => (.ok (), final)
      | (.ok (some next), final) => skipLoop data next final
termination_by data.length - offset
decreasing_by
  obtain ⟨available, taken⟩ := readHead_ok ran
  have forward := @settle_forward data (owedBy head ++ owed) after
  rw [settled] at forward
  have passed : after ≤ final := forward
  omega

/-- The range of the item that starts at the offset. -/
def itemRange (offset : Nat) (outcome : Outcome Unit) : Outcome (Nat × Nat) :=
  (outcome.1.map fun _ => (offset, outcome.2), outcome.2)

def skipItem (data : Bytes) (offset : Nat) : Outcome (Nat × Nat) :=
  itemRange offset (skipLoop data [] offset)

theorem skipLoop_forward {data : Bytes} {owed : List (Option Nat)} {offset after : Nat}
    (skipped : skipLoop data owed offset = (.ok (), after)) :
    offset < data.length ∧ offset < after := by
  fun_induction skipLoop data owed offset with
  | case1 owed offset failure final ran => cases skipped
  | case2 owed offset head middle ran failure final settled => cases skipped
  | case3 owed offset head middle ran final settled =>
      cases skipped
      obtain ⟨available, taken⟩ := readHead_ok ran
      have forward := @settle_forward data (owedBy head ++ owed) middle
      rw [settled] at forward
      exact ⟨available, Nat.lt_of_lt_of_le taken forward⟩
  | case4 owed offset head middle ran next final settled ih =>
      obtain ⟨available, taken⟩ := readHead_ok ran
      have forward := @settle_forward data (owedBy head ++ owed) middle
      rw [settled] at forward
      have passed : middle ≤ final := forward
      exact ⟨available, by have later := (ih skipped).2; omega⟩

theorem skipItem_forward {data : Bytes} {offset after : Nat} {range : Nat × Nat}
    (skipped : skipItem data offset = (.ok range, after)) :
    offset < data.length ∧ offset < after := by
  unfold skipItem itemRange at skipped
  rcases ran : skipLoop data [] offset with ⟨failure | done, final⟩
  · rw [ran] at skipped
    cases skipped
  · rw [ran] at skipped
    cases skipped
    exact skipLoop_forward ran

/-! ## The recursive formulation

`left` bounds the bytes from the offset on. With none left, reading a head or looking for a break
byte fails as it does at the end of the data. -/

section Reference

variable (skip : Nat → Outcome Unit)

def skipPair (offset : Nat) : Outcome Unit :=
  match skip offset with
  | (.ok (), after) => skip after
  | failed => failed

def repeatSkip : Nat → Nat → Outcome Unit
  | 0, offset => (.ok (), offset)
  | count + 1, offset =>
      match skip offset with
      | (.ok (), after) => repeatSkip count after
      | failed => failed

def skipUntilBreak (data : Bytes) : Nat → Nat → Outcome Unit
  | 0, offset => (.error (.unexpectedEof offset 1), offset)
  | left + 1, offset =>
      match peekByte data offset with
      | .error failure => (.error failure, offset)
      | .ok byte =>
          if byte = breakByte then (.ok (), offset + 1)
          else
            match skip offset with
            | (.ok (), after) => skipUntilBreak data left after
            | failed => failed

end Reference

def skipReferenceWithin (data : Bytes) : Nat → Nat → Outcome Unit
  | 0, offset => (.error (.unexpectedEof offset 1), offset)
  | left + 1, offset =>
      match (readHead data).runAt offset with
      | (.error failure, after) => (.error failure, after)
      | (.ok head, after) =>
          match head with
          | .leaf => (.ok (), after)
          | .array count => repeatSkip (skipReferenceWithin data left) count.toNat after
          | .map count => repeatSkip (skipPair (skipReferenceWithin data left)) count.toNat after
          | .indefinite => skipUntilBreak (skipReferenceWithin data left) data left after
          | .indefiniteMap =>
              skipUntilBreak (skipPair (skipReferenceWithin data left)) data left after
          | .tag => skipReferenceWithin data left after

def skipItemReference (data : Bytes) (offset : Nat) : Outcome (Nat × Nat) :=
  itemRange offset (skipReferenceWithin data (data.length - offset) offset)

/-! ## Map entries

The iterative walk with the entries of indefinite maps told apart: `key` before a key or the break
byte of the map, `value` before the value of an entry. -/

inductive Frame where
  | items (count : Nat)
  | untilBreak
  | key
  | value
deriving DecidableEq, Repr

def framesOf : ItemHead → List Frame
  | .leaf => []
  | .array count => [.items count.toNat]
  | .map count => [.items (count.toNat * 2)]
  | .indefinite => [.untilBreak]
  | .indefiniteMap => [.key]
  | .tag => [.items 1]

inductive Walk where
  | done (offset : Nat)
  | failed (failure : CodecError) (offset : Nat)
  /-- The byte at the offset is a break byte where the value of a map entry is due. -/
  | valueBreak (offset : Nat)
deriving DecidableEq, Repr

def advance (data : Bytes) : List Frame → Nat → Except Walk (List Frame × Nat)
  | [], offset => .error (.done offset)
  | .items 0 :: frames, offset => advance data frames offset
  | .items (count + 1) :: frames, offset => .ok (.items count :: frames, offset)
  | .untilBreak :: frames, offset =>
      match peekByte data offset with
      | .error failure => .error (.failed failure offset)
      | .ok byte =>
          if byte = breakByte then advance data frames (offset + 1)
          else .ok (.untilBreak :: frames, offset)
  | .key :: frames, offset =>
      match peekByte data offset with
      | .error failure => .error (.failed failure offset)
      | .ok byte =>
          if byte = breakByte then advance data frames (offset + 1)
          else .ok (.value :: frames, offset)
  | .value :: frames, offset =>
      match peekByte data offset with
      | .error failure => .error (.failed failure offset)
      | .ok byte =>
          if byte = breakByte then .error (.valueBreak offset)
          else .ok (.key :: frames, offset)

theorem advance_forward {data : Bytes} {frames next : List Frame} {offset after : Nat}
    (advanced : advance data frames offset = .ok (next, after)) : offset ≤ after := by
  fun_induction advance data frames offset with
  | case1 => cases advanced
  | case2 offset frames ih => exact ih advanced
  | case3 | case6 | case9 | case12 =>
      cases advanced
      exact Nat.le_refl _
  | case4 | case7 | case10 | case11 => cases advanced
  | case5 offset frames peeked ih => exact Nat.le_of_succ_le (ih advanced)
  | case8 offset frames peeked ih => exact Nat.le_of_succ_le (ih advanced)

def walkLoop (data : Bytes) (frames : List Frame) (offset : Nat) : Walk :=
  match ran : (readHead data).runAt offset with
  | (.error failure, after) => .failed failure after
  | (.ok head, after) =>
      match advanced : advance data (framesOf head ++ frames) after with
      | .error stopped => stopped
      | .ok (next, final) => walkLoop data next final
termination_by data.length - offset
decreasing_by
  obtain ⟨available, taken⟩ := readHead_ok ran
  have passed := advance_forward advanced
  omega

/-- The walk over the item at the offset comes to a break byte where a value is due. -/
def meetsValueBreak (data : Bytes) (offset : Nat) : Bool :=
  match walkLoop data [] offset with
  | .valueBreak _ => true
  | _ => false

end Ade.Codec
