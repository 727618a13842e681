import Ade.Network.Messages

/-! The messages of keep-alive, of peer-sharing and of the protocols between a node and its clients. -/

namespace Ade.Network
open Library Codec

/-! ## Keep-alive -/

inductive KeepAliveMessage where
  | keepAlive (cookie : UInt16)
  | responseKeepAlive (cookie : UInt16)
  | done
deriving DecidableEq, Repr

def encodeKeepAliveMessage : KeepAliveMessage → Bytes
  | .keepAlive cookie => encodeArrayHeader 2 ++ encodeU64 0 ++ encodeU64 cookie.toUInt64
  | .responseKeepAlive cookie => encodeArrayHeader 2 ++ encodeU64 1 ++ encodeU64 cookie.toUInt64
  | .done => encodeArrayHeader 1 ++ encodeU64 2

def decodeKeepAliveBody (data : Bytes) (tag arrLen : UInt64) : Decode KeepAliveMessage := do
  if tag = 0 ∧ arrLen = 2 then return .keepAlive (← decodeU16 "cookie" data)
  else if tag = 1 ∧ arrLen = 2 then return .responseKeepAlive (← decodeU16 "cookie" data)
  else if tag = 2 ∧ arrLen = 1 then return .done
  else throw (.unknownTag tag)

def decodeKeepAliveMessage : Bytes → Except MessageError KeepAliveMessage :=
  decodeWhole (decodeTagged decodeKeepAliveBody)

/-! ## Peer-sharing -/

inductive PeerAddress where
  | v4 (addr : UInt32) (port : UInt16)
  | v6 (addr : Vector UInt8 16) (port : UInt16) (flowinfo scope : UInt32)
deriving DecidableEq, Repr

inductive PeerSharingMessage where
  | shareRequest (amount : UInt8)
  | sharePeers (peers : List PeerAddress)
  | done
deriving DecidableEq, Repr

def encodePeerAddress : PeerAddress → Bytes
  | .v4 addr port =>
      encodeArrayHeader 3 ++ encodeU64 0 ++ (encodeU64 addr.toUInt64 ++ encodeU64 port.toUInt64)
  | .v6 addr port flowinfo scope =>
      encodeArrayHeader 5 ++ encodeU64 1 ++ (encodeBytes addr.toList ++ (encodeU64 port.toUInt64 ++
        (encodeU64 flowinfo.toUInt64 ++ encodeU64 scope.toUInt64)))

def encodePeerSharingMessage : PeerSharingMessage → Bytes
  | .shareRequest amount => encodeArrayHeader 2 ++ encodeU64 0 ++ encodeU64 amount.toUInt64
  | .sharePeers peers =>
      encodeArrayHeader 2 ++ encodeU64 1 ++
        (encodeArrayHeader (UInt64.ofNat peers.length) ++ (peers.map encodePeerAddress).flatten)
  | .done => encodeArrayHeader 1 ++ encodeU64 2

def decodeIpv6Address (data : Bytes) : Decode (Vector UInt8 16) := do
  let raw ← decodeBytes data
  if sized : raw.toArray.size = 16 then return ⟨raw.toArray, sized⟩
  else throw (.invalidProtocolMessage "ipv6 address not 16 bytes")

def decodePeerAddressBody (data : Bytes) (tag arrLen : UInt64) : Decode PeerAddress := do
  if tag = 0 ∧ arrLen = 3 then
    let addr ← decodeU32 "ipv4 address" data
    return .v4 addr (← decodeU16 "port" data)
  else if tag = 1 ∧ arrLen = 5 then
    let addr ← decodeIpv6Address data
    let port ← decodeU16 "port" data
    let flowinfo ← decodeU32 "flowinfo" data
    return .v6 addr port flowinfo (← decodeU32 "scope" data)
  else throw (.unknownTag tag)

def decodePeerAddress (data : Bytes) : Decode PeerAddress := do
  let arrLen ← decodeArrayHeader data
  if arrLen < 1 then throw (.invalidProtocolMessage "empty peer address array")
  let tag ← decodeU64 data
  decodePeerAddressBody data tag arrLen

def decodeAmount (data : Bytes) : Decode UInt8 := do
  let amount ← decodeU64 data
  if amount.toNat ≥ 2 ^ 8 then throw (.invalidIntegerRange "amount" amount)
  return amount.toUInt8

/-- A list of definite length. -/
def decodeCounted {α : Type} (data : Bytes) (item : Decode α) : Decode (List α) := do
  Cursor.times item (← decodeArrayHeader data).toNat

def decodePeerSharingBody (data : Bytes) (tag arrLen : UInt64) : Decode PeerSharingMessage := do
  if tag = 0 ∧ arrLen = 2 then return .shareRequest (← decodeAmount data)
  else if tag = 1 ∧ arrLen = 2 then
    return .sharePeers (← decodeCounted data (decodePeerAddress data))
  else if tag = 2 ∧ arrLen = 1 then return .done
  else throw (.unknownTag tag)

def decodePeerSharingMessage : Bytes → Except MessageError PeerSharingMessage :=
  decodeWhole (decodeTagged decodePeerSharingBody)

/-! ## Local chain-sync -/

/-- Points and tips are those of chain-sync, in types of their own. -/
inductive LocalChainSyncMessage where
  | requestNext
  | awaitReply
  | rollForward (block : Bytes) (tip : Tip)
  | rollBackward (point : Point) (tip : Tip)
  | findIntersect (points : List Point)
  | intersectFound (point : Point) (tip : Tip)
  | intersectNotFound (tip : Tip)
  | done
deriving DecidableEq, Repr

/-- Unlike a header of chain-sync, a block is wrapped in a byte string. -/
def encodeLocalChainSyncMessage : LocalChainSyncMessage → Bytes
  | .requestNext => encodeArrayHeader 1 ++ encodeU64 0
  | .awaitReply => encodeArrayHeader 1 ++ encodeU64 1
  | .rollForward block tip => encodeArrayHeader 3 ++ encodeU64 2 ++ (encodeBytes block ++ encodeTip tip)
  | .rollBackward point tip => encodeArrayHeader 3 ++ encodeU64 3 ++ (encodePoint point ++ encodeTip tip)
  | .findIntersect points =>
      encodeArrayHeader 2 ++ encodeU64 4 ++
        (encodeArrayHeader (UInt64.ofNat points.length) ++ (points.map encodePoint).flatten)
  | .intersectFound point tip => encodeArrayHeader 3 ++ encodeU64 5 ++ (encodePoint point ++ encodeTip tip)
  | .intersectNotFound tip => encodeArrayHeader 2 ++ encodeU64 6 ++ encodeTip tip
  | .done => encodeArrayHeader 1 ++ encodeU64 7

def decodeLocalChainSyncBody (data : Bytes) (tag arrLen : UInt64) : Decode LocalChainSyncMessage := do
  if tag = 0 ∧ arrLen = 1 then return .requestNext
  else if tag = 1 ∧ arrLen = 1 then return .awaitReply
  else if tag = 2 ∧ arrLen = 3 then
    let block ← decodeBytes data
    return .rollForward block (← decodeTip data)
  else if tag = 3 ∧ arrLen = 3 then
    let point ← decodePoint data
    return .rollBackward point (← decodeTip data)
  else if tag = 4 ∧ arrLen = 2 then return .findIntersect (← decodeCounted data (decodePoint data))
  else if tag = 5 ∧ arrLen = 3 then
    let point ← decodePoint data
    return .intersectFound point (← decodeTip data)
  else if tag = 6 ∧ arrLen = 2 then return .intersectNotFound (← decodeTip data)
  else if tag = 7 ∧ arrLen = 1 then return .done
  else throw (.unknownTag tag)

def decodeLocalChainSyncMessage : Bytes → Except MessageError LocalChainSyncMessage :=
  decodeWhole (decodeTagged decodeLocalChainSyncBody)

/-! ## Local state-query -/

inductive AcquireFailure where
  | pointTooOld
  | pointNotOnChain
deriving DecidableEq, Repr

inductive LocalStateQueryMessage where
  | acquire (point : Point)
  | acquireNoPoint
  | acquired
  | failure (reason : AcquireFailure)
  | query (payload : Bytes)
  | result (payload : Bytes)
  | release
  | reAcquire (point : Point)
  | reAcquireNoPoint
  | done
deriving DecidableEq, Repr

def AcquireFailure.code : AcquireFailure → UInt64
  | .pointTooOld => 0
  | .pointNotOnChain => 1

def encodeLocalStateQueryMessage : LocalStateQueryMessage → Bytes
  | .acquire point => encodeArrayHeader 2 ++ encodeU64 0 ++ encodePoint point
  | .acquired => encodeArrayHeader 1 ++ encodeU64 1
  | .failure reason => encodeArrayHeader 2 ++ encodeU64 2 ++ encodeU64 reason.code
  | .query payload => encodeArrayHeader 2 ++ encodeU64 3 ++ encodeBytes payload
  | .result payload => encodeArrayHeader 2 ++ encodeU64 4 ++ encodeBytes payload
  | .release => encodeArrayHeader 1 ++ encodeU64 5
  | .reAcquire point => encodeArrayHeader 2 ++ encodeU64 6 ++ encodePoint point
  | .done => encodeArrayHeader 1 ++ encodeU64 7
  | .acquireNoPoint => encodeArrayHeader 1 ++ encodeU64 8
  | .reAcquireNoPoint => encodeArrayHeader 1 ++ encodeU64 9

def decodeAcquireFailure (data : Bytes) : Decode AcquireFailure := do
  let code ← decodeU64 data
  if code = 0 then return .pointTooOld
  else if code = 1 then return .pointNotOnChain
  else throw (.invalidIntegerRange "acquire failure code" code)

def decodeLocalStateQueryBody (data : Bytes) (tag arrLen : UInt64) : Decode LocalStateQueryMessage := do
  if tag = 0 ∧ arrLen = 2 then return .acquire (← decodePoint data)
  else if tag = 1 ∧ arrLen = 1 then return .acquired
  else if tag = 2 ∧ arrLen = 2 then return .failure (← decodeAcquireFailure data)
  else if tag = 3 ∧ arrLen = 2 then return .query (← decodeBytes data)
  else if tag = 4 ∧ arrLen = 2 then return .result (← decodeBytes data)
  else if tag = 5 ∧ arrLen = 1 then return .release
  else if tag = 6 ∧ arrLen = 2 then return .reAcquire (← decodePoint data)
  else if tag = 7 ∧ arrLen = 1 then return .done
  else if tag = 8 ∧ arrLen = 1 then return .acquireNoPoint
  else if tag = 9 ∧ arrLen = 1 then return .reAcquireNoPoint
  else throw (.unknownTag tag)

def decodeLocalStateQueryMessage : Bytes → Except MessageError LocalStateQueryMessage :=
  decodeWhole (decodeTagged decodeLocalStateQueryBody)

/-! ## Local tx-submission -/

inductive LocalTxSubmissionMessage where
  | submitTx (txBytes : Bytes)
  | acceptTx
  | rejectTx (rejection : Bytes)
  | done
deriving DecidableEq, Repr

/-- A transaction and a rejection are items of their own, not byte strings. -/
def encodeLocalTxSubmissionMessage : LocalTxSubmissionMessage → Bytes
  | .submitTx txBytes => encodeArrayHeader 2 ++ encodeU64 0 ++ txBytes
  | .acceptTx => encodeArrayHeader 1 ++ encodeU64 1
  | .rejectTx rejection => encodeArrayHeader 2 ++ encodeU64 2 ++ rejection
  | .done => encodeArrayHeader 1 ++ encodeU64 3

def decodeLocalTxSubmissionBody (data : Bytes) (tag arrLen : UInt64) :
    Decode LocalTxSubmissionMessage := do
  if tag = 0 ∧ arrLen = 2 then return .submitTx (← decodeOpaque data)
  else if tag = 1 ∧ arrLen = 1 then return .acceptTx
  else if tag = 2 ∧ arrLen = 2 then return .rejectTx (← decodeOpaque data)
  else if tag = 3 ∧ arrLen = 1 then return .done
  else throw (.unknownTag tag)

def decodeLocalTxSubmissionMessage : Bytes → Except MessageError LocalTxSubmissionMessage :=
  decodeWhole (decodeTagged decodeLocalTxSubmissionBody)

/-! ## Local tx-monitor -/

structure MempoolSizeAndCapacity where
  capacityBytes : UInt32
  sizeBytes : UInt32
  txCount : UInt32
deriving DecidableEq, Repr

structure MeasureSizeAndCapacity where
  size : UInt64
  capacity : UInt64
deriving DecidableEq, Repr

/-- The order of names is that of their UTF-8 bytes, which is that of their code points. -/
structure MempoolMeasures where
  txCount : UInt32
  measures : BTreeMap String MeasureSizeAndCapacity
deriving DecidableEq

inductive LocalTxMonitorMessage where
  | done
  | acquire
  | acquired (slot : SlotNo)
  | release
  | nextTx
  | replyNextTx (txBytes : Option Bytes)
  | hasTx (txId : Hash32)
  | replyHasTx (present : Bool)
  | getSizes
  | replyGetSizes (sizes : MempoolSizeAndCapacity)
  | getMeasures
  | replyGetMeasures (measures : MempoolMeasures)
deriving DecidableEq

def encodeSizes (sizes : MempoolSizeAndCapacity) : Bytes :=
  encodeArrayHeader 3 ++ encodeU64 sizes.capacityBytes.toUInt64 ++
    (encodeU64 sizes.sizeBytes.toUInt64 ++ encodeU64 sizes.txCount.toUInt64)

def encodeMeasure (measure : String × MeasureSizeAndCapacity) : Bytes :=
  writeTextCanonical measure.1 ++
    (encodeArrayHeader 2 ++ encodeU64 measure.2.size ++ encodeU64 measure.2.capacity)

def encodeMeasures (measures : MempoolMeasures) : Bytes :=
  let len := UInt64.ofNat measures.measures.size
  encodeU64 measures.txCount.toUInt64 ++
    (writeMapHeader (.definite len (canonicalWidth len)) ++
      (measures.measures.toList.map encodeMeasure).flatten)

/-- Without a transaction, the reply to NextTx is its tag alone. -/
def encodeLocalTxMonitorMessage : LocalTxMonitorMessage → Bytes
  | .done => encodeArrayHeader 1 ++ encodeU64 0
  | .acquire => encodeArrayHeader 1 ++ encodeU64 1
  | .acquired slot => encodeArrayHeader 2 ++ encodeU64 2 ++ encodeU64 slot
  | .release => encodeArrayHeader 1 ++ encodeU64 3
  | .nextTx => encodeArrayHeader 1 ++ encodeU64 5
  | .replyNextTx none => encodeArrayHeader 1 ++ encodeU64 6
  | .replyNextTx (some tx) => encodeArrayHeader 2 ++ encodeU64 6 ++ encodeBytes tx
  | .hasTx txId => encodeArrayHeader 2 ++ encodeU64 7 ++ encodeBytes txId.toList
  | .replyHasTx present => encodeArrayHeader 2 ++ encodeU64 8 ++ encodeBool present
  | .getSizes => encodeArrayHeader 1 ++ encodeU64 9
  | .replyGetSizes sizes => encodeArrayHeader 2 ++ encodeU64 10 ++ encodeSizes sizes
  | .getMeasures => encodeArrayHeader 1 ++ encodeU64 11
  | .replyGetMeasures measures => encodeArrayHeader 3 ++ encodeU64 12 ++ encodeMeasures measures

/-- After the header of an array that must have the given length. -/
def decodeArrayOfLen {α : Type} (expected : UInt64) (data : Bytes) (next : Decode α) : Decode α := do
  let len ← decodeArrayHeader data
  if len ≠ expected then throw (.invalidProtocolMessage "wrong array length")
  next

def decodeSizes (data : Bytes) : Decode MempoolSizeAndCapacity :=
  decodeArrayOfLen 3 data do
    let capacityBytes ← decodeU32 "capacityBytes" data
    let sizeBytes ← decodeU32 "sizeBytes" data
    return ⟨capacityBytes, sizeBytes, ← decodeU32 "txCount" data⟩

def decodeMeasure (data : Bytes) : Decode (String × MeasureSizeAndCapacity) := do
  let name ← decodeText "measure name" data
  decodeArrayOfLen 2 data do
    let size ← decodeU64 data
    return (name, ⟨size, ← decodeU64 data⟩)

/-- A later measure of a name replaces an earlier one. -/
def decodeMeasures (data : Bytes) : Decode MempoolMeasures := do
  let txCount ← decodeU32 "txCount" data
  match ← wrapped (readMapHeader data) with
  | .definite len _ =>
      let measures ← Cursor.times (decodeMeasure data) len.toNat
      return ⟨txCount, Std.ExtTreeMap.ofList measures compare⟩
  | .indefinite => throw (.invalidProtocolMessage "indefinite-length measure map not allowed")

def decodeLocalTxMonitorBody (data : Bytes) (tag arrLen : UInt64) : Decode LocalTxMonitorMessage := do
  if tag = 0 ∧ arrLen = 1 then return .done
  else if tag = 1 ∧ arrLen = 1 then return .acquire
  else if tag = 2 ∧ arrLen = 2 then return .acquired (← decodeU64 data)
  else if tag = 3 ∧ arrLen = 1 then return .release
  else if tag = 5 ∧ arrLen = 1 then return .nextTx
  else if tag = 6 ∧ arrLen = 1 then return .replyNextTx none
  else if tag = 6 ∧ arrLen = 2 then return .replyNextTx (some (← decodeBytes data))
  else if tag = 7 ∧ arrLen = 2 then return .hasTx (← decodeHash32 "TxId not 32 bytes" data)
  else if tag = 8 ∧ arrLen = 2 then return .replyHasTx (← decodeBool data)
  else if tag = 9 ∧ arrLen = 1 then return .getSizes
  else if tag = 10 ∧ arrLen = 2 then return .replyGetSizes (← decodeSizes data)
  else if tag = 11 ∧ arrLen = 1 then return .getMeasures
  else if tag = 12 ∧ arrLen = 3 then return .replyGetMeasures (← decodeMeasures data)
  else throw (.unknownTag tag)

def decodeLocalTxMonitorMessage : Bytes → Except MessageError LocalTxMonitorMessage :=
  decodeWhole (decodeTagged decodeLocalTxMonitorBody)

end Ade.Network
