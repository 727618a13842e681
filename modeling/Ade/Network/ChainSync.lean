import Ade.Network.Messages

/-! The chain-sync state machine and the server that answers over it. -/

namespace Ade.Network
open Library Codec

inductive ChainSyncState where
  | idle | canAwait | mustReply | intersect | done
deriving DecidableEq, Repr

inductive ChainSyncAgency where
  | client | server | neither
deriving DecidableEq, Repr

inductive ForkChoiceSignal where
  | rollForward (headerBytes : Bytes) (tip : Tip)
  | rollBackward (point : Point) (tip : Tip)
  | intersected (point : Point) (tip : Tip)
  | noIntersection (tip : Tip)
deriving DecidableEq, Repr

inductive ChainSyncOutput where
  | reply (msg : ChainSyncMessage)
  | signal (signal : ForkChoiceSignal)
  | done
deriving DecidableEq, Repr

inductive ChainSyncError where
  | illegalTransition (state : ChainSyncState) (messageTag agency : String)
  | invalidForVersion (version : UInt16) (messageTag : String)
  | malformedMessage (reason : String)
deriving DecidableEq, Repr

def ChainSyncMessage.messageTag : ChainSyncMessage → String
  | .requestNext => "RequestNext"
  | .awaitReply => "AwaitReply"
  | .rollForward _ _ => "RollForward"
  | .rollBackward _ _ => "RollBackward"
  | .findIntersect _ => "FindIntersect"
  | .intersectFound _ _ => "IntersectFound"
  | .intersectNotFound _ => "IntersectNotFound"
  | .done => "Done"

def ChainSyncAgency.agencyTag : ChainSyncAgency → String
  | .client => "Client"
  | .server => "Server"
  | .neither => "Neither"

def maxChainSyncVersion : UInt16 := 100

/-- `agency` is the one that the sender of the message held. -/
def chainSyncTransition (state : ChainSyncState) (agency : ChainSyncAgency) (version : UInt16)
    (msg : ChainSyncMessage) : Except ChainSyncError (ChainSyncState × ChainSyncOutput) :=
  if maxChainSyncVersion < version then .error (.invalidForVersion version msg.messageTag)
  else
    match state, agency, msg with
    | .idle, .client, .requestNext => .ok (.canAwait, .reply .requestNext)
    | .idle, .client, .findIntersect points =>
        if points = [] then .error (.malformedMessage "FindIntersect carried an empty points list")
        else .ok (.intersect, .reply (.findIntersect points))
    | .idle, .client, .done => .ok (.done, .done)
    | .canAwait, .server, .rollForward header tip => .ok (.idle, .signal (.rollForward header tip))
    | .canAwait, .server, .rollBackward point tip => .ok (.idle, .signal (.rollBackward point tip))
    | .canAwait, .server, .awaitReply => .ok (.mustReply, .reply .awaitReply)
    | .mustReply, .server, .rollForward header tip => .ok (.idle, .signal (.rollForward header tip))
    | .mustReply, .server, .rollBackward point tip => .ok (.idle, .signal (.rollBackward point tip))
    | .intersect, .server, .intersectFound point tip => .ok (.idle, .signal (.intersected point tip))
    | .intersect, .server, .intersectNotFound tip => .ok (.idle, .signal (.noIntersection tip))
    | state, agency, msg => .error (.illegalTransition state msg.messageTag agency.agencyTag)

/-! ## The server -/

/-- The era's index on the wire counts both Byron variants as one. -/
def chainSyncWireEraIndex (era : CardanoEra) : UInt64 :=
  if era.asU64 = 0 then 0 else era.asU64 - 1

def wrapTag24 (inner : Bytes) : Bytes := writeArgument majorTag 24 .i8 ++ writeBytesCanonical inner

def composeRollforwardHeader (era : CardanoEra) (headerCbor : Bytes) : Bytes :=
  encodeArrayHeader 2 ++ encodeU64 (chainSyncWireEraIndex era) ++ wrapTag24 headerCbor

inductive ServerReply where
  | rollForward (header : Bytes) (tip : Tip)
  | rollBackward (point : Point) (tip : Tip)
  | awaitReply
  | intersectFound (point : Point) (tip : Tip)
  | intersectNotFound (tip : Tip)
deriving DecidableEq, Repr

def ServerReply.intoMessage : ServerReply → ChainSyncMessage
  | .rollForward header tip => .rollForward header tip
  | .rollBackward point tip => .rollBackward point tip
  | .awaitReply => .awaitReply
  | .intersectFound point tip => .intersectFound point tip
  | .intersectNotFound tip => .intersectNotFound tip

structure HeaderProjection where
  slot : SlotNo
  hash : Hash32
  blockNo : UInt64
  era : CardanoEra
  headerBytes : Bytes
deriving DecidableEq, Repr

/-- What the server reads of the chain that it serves. A cursor is the slot and hash of a block. -/
structure ServedHeaderLookup where
  nextAfter : Option Ade.Point → Option HeaderProjection
  intersect : List Point → Option Ade.Point
  tip : Option (Ade.Point × UInt64)

structure ProducerChainSyncServerState where
  state : ChainSyncState
  lastAnnounced : Option Ade.Point
deriving DecidableEq, Repr

def ProducerChainSyncServerState.new : ProducerChainSyncServerState := ⟨.idle, none⟩

inductive ProducerServerError where
  | grammar (failure : ChainSyncError)
deriving DecidableEq, Repr

inductive ServerStep where
  | done
  | reply (reply : ServerReply)
deriving DecidableEq, Repr

def tipFromLookup (served : ServedHeaderLookup) : Tip :=
  match served.tip with
  | some (point, blockNo) => ⟨.block point.slot point.hash, blockNo⟩
  | none => ⟨.origin, 0⟩

/-- The reply that serves the projected header, and the state after it. -/
def announce (served : ServedHeaderLookup) (proj : HeaderProjection) :
    ProducerChainSyncServerState × ServerReply :=
  (⟨.idle, some ⟨proj.slot, proj.hash⟩⟩,
    .rollForward (composeRollforwardHeader proj.era proj.headerBytes) (tipFromLookup served))

/-- Origin is an ancestor of every chain. -/
def matchPoint (served : ServedHeaderLookup) : Point → Option Point
  | .origin => some .origin
  | .block slot hash =>
      (served.intersect [.block slot hash]).map fun found => .block found.slot found.hash

def Point.cursor : Point → Option Ade.Point
  | .origin => none
  | .block slot hash => some ⟨slot, hash⟩

def producerChainSyncServe (state : ProducerChainSyncServerState) (inMsg : ChainSyncMessage)
    (served : ServedHeaderLookup) (version : UInt16) :
    Except ProducerServerError (ProducerChainSyncServerState × ServerStep) :=
  match chainSyncTransition state.state .client version inMsg with
  | .error failure => .error (.grammar failure)
  | .ok (newState, _) =>
      match inMsg with
      | .requestNext =>
          match served.nextAfter state.lastAnnounced with
          | some proj => .ok ((announce served proj).1, .reply (announce served proj).2)
          | none => .ok ({ state with state := .mustReply }, .reply .awaitReply)
      | .findIntersect points =>
          match points.findSome? (matchPoint served) with
          | some point =>
              .ok (⟨.idle, point.cursor⟩, .reply (.intersectFound point (tipFromLookup served)))
          | none =>
              .ok ({ state with state := .idle }, .reply (.intersectNotFound (tipFromLookup served)))
      | .done => .ok ({ state with state := newState }, .done)
      | _ => .error (.grammar (.illegalTransition newState
          "server-originated message arrived as Client" "Client"))

/-- A deferred answer, when the client waits for one and there is a block past the cursor. -/
def producerChainSyncAdvanceTip (state : ProducerChainSyncServerState) (served : ServedHeaderLookup) :
    Except ProducerServerError (ProducerChainSyncServerState × Option ServerReply) :=
  match state.state with
  | .canAwait | .mustReply =>
      match served.nextAfter state.lastAnnounced with
      | some proj => .ok ((announce served proj).1, some (announce served proj).2)
      | none => .ok (state, none)
  | .idle | .intersect | .done => .ok (state, none)

end Ade.Network
