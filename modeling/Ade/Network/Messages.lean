import Ade.Network.Handshake

/-! The messages of chain-sync, block-fetch and tx-submission. -/

namespace Ade.Network
open Library Codec

/-! ## Shared readers and writers -/

def encodeBytes : Bytes → Bytes := writeBytesCanonical

def decodeBytes (data : Bytes) : Decode Bytes := do return (← wrapped (readBytes data)).1

def encodeBool : Bool → Bytes := writeBool

def readBool (data : Bytes) : Read Bool := do
  let start ← get
  let byte ← readByte data
  if byte = 0xf4 then return false
  else if byte = 0xf5 then return true
  else throw (.invalidCborStructure start "expected CBOR boolean (0xf4/0xf5)")

def decodeBool (data : Bytes) : Decode Bool := wrapped (readBool data)

def decodeU16 (field : String) (data : Bytes) : Decode UInt16 := do
  let value ← decodeU64 data
  if value.toNat ≥ 2 ^ 16 then throw (.invalidIntegerRange field value)
  return value.toUInt16

def decodeHash32 (reason : String) (data : Bytes) : Decode Hash32 := do
  let bytes ← decodeBytes data
  if sized : bytes.toArray.size = 32 then return ⟨bytes.toArray, sized⟩
  else throw (.invalidProtocolMessage reason)

/-- An opaque item, with the bytes as they came. -/
def decodeOpaque (data : Bytes) : Decode Bytes := wrapped (readItem data)

/-- After the header of an array that must have two elements. -/
def decodePair {α : Type} (reason : String) (data : Bytes) (next : Decode α) : Decode α := do
  let len ← decodeArrayHeader data
  if len ≠ 2 then throw (.invalidProtocolMessage reason)
  next

/-- Elements up to a break byte, which is taken. Every element takes at least a byte, so that `left`
never runs out before the data does. -/
def decodeUntilBreak {α : Type} (missing : Nat → MessageError) (data : Bytes) (item : Decode α) :
    Nat → Decode (List α)
  | 0 => do throw (missing (← get))
  | left + 1 => do
      let offset ← get
      match data[offset]? with
      | none => throw (missing offset)
      | some byte =>
          if byte = breakByte then
            set (offset + 1)
            return []
          else
            let first ← item
            let rest ← decodeUntilBreak missing data item left
            return first :: rest

/-- A list of definite or indefinite length. -/
def decodeList {α : Type} (missing : Nat → MessageError) (data : Bytes) (item : Decode α) :
    Decode (List α) := do
  match ← wrapped (readArrayHeader data) with
  | .definite count _ => Cursor.times item count.toNat
  | .indefinite => decodeUntilBreak missing data item data.length

/-- A message is an array of its tag and its fields. -/
def decodeTagged {α : Type} (body : Bytes → (tag arrLen : UInt64) → Decode α) (data : Bytes) : Decode α := do
  let arrLen ← decodeArrayHeader data
  if arrLen < 1 then throw (.invalidProtocolMessage "empty outer array")
  let tag ← decodeU64 data
  body data tag arrLen

/-- A message is all of the bytes. -/
def decodeWhole {α : Type} (message : Bytes → Decode α) (bytes : Bytes) : Except MessageError α :=
  if bytes = [] then .error (.truncated 1 0)
  else
    match (message bytes).runAt 0 with
    | (.error failure, _) => .error failure
    | (.ok decoded, offset) =>
        if offset ≠ bytes.length then .error (.invalidProtocolMessage "trailing bytes after message")
        else .ok decoded

/-! ## Points -/

/-- Chain-sync and block-fetch have a type each, of the same shape. -/
inductive Point where
  | origin
  | block (slot : SlotNo) (hash : Hash32)
deriving DecidableEq, Repr

def encodePoint : Point → Bytes
  | .origin => encodeArrayHeader 0
  | .block slot hash => encodeArrayHeader 2 ++ encodeU64 slot ++ encodeBytes hash.toList

def decodePoint (data : Bytes) : Decode Point := do
  let arrLen ← decodeArrayHeader data
  if arrLen = 0 then return .origin
  else if arrLen = 2 then
    let slot ← decodeU64 data
    return .block slot (← decodeHash32 "point hash not 32 bytes" data)
  else throw (.invalidProtocolMessage "point array must be 0 or 2 elements")

/-! ## Chain-sync -/

structure Tip where
  point : Point
  blockNo : UInt64
deriving DecidableEq, Repr

inductive ChainSyncMessage where
  | requestNext
  | awaitReply
  | rollForward (header : Bytes) (tip : Tip)
  | rollBackward (point : Point) (tip : Tip)
  | findIntersect (points : List Point)
  | intersectFound (point : Point) (tip : Tip)
  | intersectNotFound (tip : Tip)
  | done
deriving DecidableEq, Repr

def encodeTip (tip : Tip) : Bytes := encodeArrayHeader 2 ++ encodePoint tip.point ++ encodeU64 tip.blockNo

def encodeChainSyncMessage : ChainSyncMessage → Bytes
  | .requestNext => encodeArrayHeader 1 ++ encodeU64 0
  | .awaitReply => encodeArrayHeader 1 ++ encodeU64 1
  | .rollForward header tip => encodeArrayHeader 3 ++ encodeU64 2 ++ (header ++ encodeTip tip)
  | .rollBackward point tip => encodeArrayHeader 3 ++ encodeU64 3 ++ (encodePoint point ++ encodeTip tip)
  | .findIntersect points =>
      encodeArrayHeader 2 ++ encodeU64 4 ++
        (encodeArrayHeader (UInt64.ofNat points.length) ++ (points.map encodePoint).flatten)
  | .intersectFound point tip => encodeArrayHeader 3 ++ encodeU64 5 ++ (encodePoint point ++ encodeTip tip)
  | .intersectNotFound tip => encodeArrayHeader 2 ++ encodeU64 6 ++ encodeTip tip
  | .done => encodeArrayHeader 1 ++ encodeU64 7

def decodeTip (data : Bytes) : Decode Tip :=
  decodePair "tip array must be 2 elements" data do
    let point ← decodePoint data
    return ⟨point, ← decodeU64 data⟩

/-- The list of a FindIntersect may be indefinite. -/
def decodeFindIntersectPoints (data : Bytes) : Decode (List Point) :=
  decodeList (fun _ => .invalidProtocolMessage "indefinite FindIntersect points list missing break") data
    (decodePoint data)

def decodeChainSyncBody (data : Bytes) (tag arrLen : UInt64) : Decode ChainSyncMessage := do
  if tag = 0 ∧ arrLen = 1 then return .requestNext
  else if tag = 1 ∧ arrLen = 1 then return .awaitReply
  else if tag = 2 ∧ arrLen = 3 then
    let header ← decodeOpaque data
    return .rollForward header (← decodeTip data)
  else if tag = 3 ∧ arrLen = 3 then
    let point ← decodePoint data
    return .rollBackward point (← decodeTip data)
  else if tag = 4 ∧ arrLen = 2 then return .findIntersect (← decodeFindIntersectPoints data)
  else if tag = 5 ∧ arrLen = 3 then
    let point ← decodePoint data
    return .intersectFound point (← decodeTip data)
  else if tag = 6 ∧ arrLen = 2 then return .intersectNotFound (← decodeTip data)
  else if tag = 7 ∧ arrLen = 1 then return .done
  else throw (.unknownTag tag)

def decodeChainSyncMessage : Bytes → Except MessageError ChainSyncMessage :=
  decodeWhole (decodeTagged decodeChainSyncBody)

/-! ## Block-fetch -/

structure Range where
  from_ : Point
  to_ : Point
deriving DecidableEq, Repr

inductive BlockFetchMessage where
  | requestRange (range : Range)
  | clientDone
  | startBatch
  | noBlocks
  | block (bytes : Bytes)
  | batchDone
deriving DecidableEq, Repr

def encodeBlockFetchMessage : BlockFetchMessage → Bytes
  | .requestRange range =>
      encodeArrayHeader 3 ++ encodeU64 0 ++ (encodePoint range.from_ ++ encodePoint range.to_)
  | .clientDone => encodeArrayHeader 1 ++ encodeU64 1
  | .startBatch => encodeArrayHeader 1 ++ encodeU64 2
  | .noBlocks => encodeArrayHeader 1 ++ encodeU64 3
  | .block bytes => encodeArrayHeader 2 ++ encodeU64 4 ++ bytes
  | .batchDone => encodeArrayHeader 1 ++ encodeU64 5

def decodeBlockFetchBody (data : Bytes) (tag arrLen : UInt64) : Decode BlockFetchMessage := do
  if tag = 0 ∧ arrLen = 3 then
    let from_ ← decodePoint data
    return .requestRange ⟨from_, ← decodePoint data⟩
  else if tag = 1 ∧ arrLen = 1 then return .clientDone
  else if tag = 2 ∧ arrLen = 1 then return .startBatch
  else if tag = 3 ∧ arrLen = 1 then return .noBlocks
  else if tag = 4 ∧ arrLen = 2 then return .block (← decodeOpaque data)
  else if tag = 5 ∧ arrLen = 1 then return .batchDone
  else throw (.unknownTag tag)

def decodeBlockFetchMessage : Bytes → Except MessageError BlockFetchMessage :=
  decodeWhole (decodeTagged decodeBlockFetchBody)

/-! ## Tx-submission -/

/-- The era index is kept as it came. -/
structure TxSubmissionTxId where
  era : UInt64
  id : Hash32
deriving DecidableEq, Repr

structure TxIdAndSize where
  txId : TxSubmissionTxId
  size : UInt32
deriving DecidableEq, Repr

inductive TxSubmission2Message where
  | init
  | requestTxIds (blocking : Bool) (ack req : UInt16)
  | replyTxIds (entries : List TxIdAndSize)
  | requestTxs (ids : List TxSubmissionTxId)
  | replyTxs (txs : List Bytes)
  | done
deriving DecidableEq, Repr

def encodeTxSubmissionTxid (txId : TxSubmissionTxId) : Bytes :=
  encodeArrayHeader 2 ++ encodeU64 txId.era ++ encodeBytes txId.id.toList

def encodeTxIdAndSize (entry : TxIdAndSize) : Bytes :=
  encodeArrayHeader 2 ++ encodeTxSubmissionTxid entry.txId ++ encodeU64 entry.size.toUInt64

/-- Lists are written in the indefinite form. -/
def encodeSeq (items : List Bytes) : Bytes := writeArrayHeader .indefinite ++ (items.flatten ++ [breakByte])

def encodeTxSubmissionMessage : TxSubmission2Message → Bytes
  | .init => encodeArrayHeader 1 ++ encodeU64 6
  | .requestTxIds blocking ack req =>
      encodeArrayHeader 4 ++ encodeU64 0 ++
        (encodeBool blocking ++ (encodeU64 ack.toUInt64 ++ encodeU64 req.toUInt64))
  | .replyTxIds entries =>
      encodeArrayHeader 2 ++ encodeU64 1 ++ encodeSeq (entries.map encodeTxIdAndSize)
  | .requestTxs ids => encodeArrayHeader 2 ++ encodeU64 2 ++ encodeSeq (ids.map encodeTxSubmissionTxid)
  | .replyTxs txs => encodeArrayHeader 2 ++ encodeU64 3 ++ encodeSeq txs
  | .done => encodeArrayHeader 1 ++ encodeU64 4

def decodeTxSubmissionTxid (data : Bytes) : Decode TxSubmissionTxId :=
  decodePair "tx-submission2 txid must be [eraIndex, hash]" data do
    let era ← decodeU64 data
    return ⟨era, ← decodeHash32 "tx-submission2 txid hash not 32 bytes" data⟩

def decodeTxIdAndSize (data : Bytes) : Decode TxIdAndSize :=
  decodePair "txid/size pair must be 2 elements" data do
    let txId ← decodeTxSubmissionTxid data
    return ⟨txId, ← decodeU32 "tx size" data⟩

def decodeSeq {α : Type} (data : Bytes) (item : Decode α) : Decode (List α) :=
  decodeList (fun offset => .truncated (offset + 1) data.length) data item

def decodeTxSubmissionBody (data : Bytes) (tag arrLen : UInt64) : Decode TxSubmission2Message := do
  if tag = 6 ∧ arrLen = 1 then return .init
  else if tag = 0 ∧ arrLen = 4 then
    let blocking ← decodeBool data
    let ack ← decodeU16 "ack" data
    return .requestTxIds blocking ack (← decodeU16 "req" data)
  else if tag = 1 ∧ arrLen = 2 then return .replyTxIds (← decodeSeq data (decodeTxIdAndSize data))
  else if tag = 2 ∧ arrLen = 2 then return .requestTxs (← decodeSeq data (decodeTxSubmissionTxid data))
  else if tag = 3 ∧ arrLen = 2 then return .replyTxs (← decodeSeq data (decodeOpaque data))
  else if tag = 4 ∧ arrLen = 1 then return .done
  else throw (.unknownTag tag)

def decodeTxSubmissionMessage : Bytes → Except MessageError TxSubmission2Message :=
  decodeWhole (decodeTagged decodeTxSubmissionBody)

end Ade.Network
