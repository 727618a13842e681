import Ade.Library.Conversation
import Ade.Network.BlockFetch
import Ade.Network.LocalMessages

/-! The state machines of the other mini-protocols, and all of them as conversations. -/

namespace Ade.Network
open Library Codec

/-- Every protocol has a type of its own of this shape. -/
inductive Agency where
  | client | server | neither
deriving DecidableEq, Repr

/-- The errors of a protocol with the given states. -/
inductive TransitionError (State : Type) where
  | illegalTransition (state : State) (messageTag : String) (agency : Agency)
  | invalidForVersion (version : UInt16) (messageTag : String)
  | malformedMessage (reason : String)
deriving DecidableEq, Repr

/-- All protocols accept versions up to the same one. -/
def maxProtocolVersion : UInt16 := 100

/-! ## Tx-submission -/

inductive TxSubmission2State where
  | init
  | idle
  | txIdsBlocking (req : UInt16)
  | txIdsNonBlocking (req : UInt16)
  | txsRequested (reqCount : Nat)
  | done
deriving DecidableEq, Repr

inductive InventoryEvent where
  | serverOpened
  | idsRequested (blocking : Bool) (ack req : UInt16)
  | idsDelivered (entries : List TxIdAndSize)
  | txsRequested (ids : List TxSubmissionTxId)
  | txsDelivered (txBytes : List Bytes)
deriving DecidableEq, Repr

inductive TxSubmission2Output where
  | event (event : InventoryEvent)
  | done
deriving DecidableEq, Repr

def TxSubmission2Message.messageTag : TxSubmission2Message → String
  | .init => "Init"
  | .requestTxIds _ _ _ => "RequestTxIds"
  | .replyTxIds _ => "ReplyTxIds"
  | .requestTxs _ => "RequestTxs"
  | .replyTxs _ => "ReplyTxs"
  | .done => "Done"

def txSubmission2Transition (state : TxSubmission2State) (agency : Agency) (version : UInt16)
    (msg : TxSubmission2Message) :
    Except (TransitionError TxSubmission2State) (TxSubmission2State × TxSubmission2Output) :=
  if maxProtocolVersion < version then .error (.invalidForVersion version msg.messageTag)
  else
    match state, agency, msg with
    | .init, .client, .init => .ok (.idle, .event .serverOpened)
    | .idle, .server, .requestTxIds blocking ack req =>
        .ok (if blocking then .txIdsBlocking req else .txIdsNonBlocking req,
          .event (.idsRequested blocking ack req))
    | .txIdsBlocking req, .client, .replyTxIds entries =>
        if entries = [] then .error (.malformedMessage "blocking ReplyTxIds must be non-empty")
        else if entries.length > req.toNat then
          .error (.malformedMessage "ReplyTxIds count exceeds requested req")
        else .ok (.idle, .event (.idsDelivered entries))
    | .txIdsNonBlocking req, .client, .replyTxIds entries =>
        if entries.length > req.toNat then
          .error (.malformedMessage "ReplyTxIds count exceeds requested req")
        else .ok (.idle, .event (.idsDelivered entries))
    | .idle, .server, .requestTxs ids =>
        if ids = [] then .error (.malformedMessage "RequestTxs must request at least one tx")
        else .ok (.txsRequested ids.length, .event (.txsRequested ids))
    | .txsRequested reqCount, .client, .replyTxs txBytes =>
        if txBytes.length > reqCount then
          .error (.malformedMessage "ReplyTxs count exceeds requested req_count")
        else .ok (.idle, .event (.txsDelivered txBytes))
    | .idle, .server, .done => .ok (.done, .done)
    | state, agency, msg => .error (.illegalTransition state msg.messageTag agency)

/-! ## Keep-alive -/

inductive KeepAliveState where
  | clientIdle
  | serverHasAgency (cookie : UInt16)
  | done
deriving DecidableEq, Repr

inductive KeepAliveEvent where
  | pingSent (cookie : UInt16)
  | pongReceived (cookie : UInt16)
deriving DecidableEq, Repr

inductive KeepAliveOutput where
  | event (event : KeepAliveEvent)
  | done
deriving DecidableEq, Repr

def KeepAliveMessage.messageTag : KeepAliveMessage → String
  | .keepAlive _ => "KeepAlive"
  | .responseKeepAlive _ => "ResponseKeepAlive"
  | .done => "Done"

def keepAliveTransition (state : KeepAliveState) (agency : Agency) (version : UInt16)
    (msg : KeepAliveMessage) :
    Except (TransitionError KeepAliveState) (KeepAliveState × KeepAliveOutput) :=
  if maxProtocolVersion < version then .error (.invalidForVersion version msg.messageTag)
  else
    match state, agency, msg with
    | .clientIdle, .client, .keepAlive cookie =>
        .ok (.serverHasAgency cookie, .event (.pingSent cookie))
    | .serverHasAgency cookie, .server, .responseKeepAlive respCookie =>
        if cookie ≠ respCookie then
          .error (.malformedMessage "ResponseKeepAlive cookie does not match request")
        else .ok (.clientIdle, .event (.pongReceived cookie))
    | .clientIdle, .client, .done => .ok (.done, .done)
    | state, agency, msg => .error (.illegalTransition state msg.messageTag agency)

/-! ## Peer-sharing -/

inductive PeerSharingState where
  | idle
  | busy (amount : UInt8)
  | done
deriving DecidableEq, Repr

inductive PeerSharingEvent where
  | sharingRequested (amount : UInt8)
  | peersShared (peers : List PeerAddress)
deriving DecidableEq, Repr

inductive PeerSharingOutput where
  | event (event : PeerSharingEvent)
  | done
deriving DecidableEq, Repr

def PeerSharingMessage.messageTag : PeerSharingMessage → String
  | .shareRequest _ => "ShareRequest"
  | .sharePeers _ => "SharePeers"
  | .done => "Done"

def peerSharingTransition (state : PeerSharingState) (agency : Agency) (version : UInt16)
    (msg : PeerSharingMessage) :
    Except (TransitionError PeerSharingState) (PeerSharingState × PeerSharingOutput) :=
  if maxProtocolVersion < version then .error (.invalidForVersion version msg.messageTag)
  else
    match state, agency, msg with
    | .idle, .client, .shareRequest amount => .ok (.busy amount, .event (.sharingRequested amount))
    | .busy amount, .server, .sharePeers peers =>
        if peers.length > amount.toNat then
          .error (.malformedMessage "SharePeers count exceeds requested amount")
        else .ok (.idle, .event (.peersShared peers))
    | .idle, .client, .done => .ok (.done, .done)
    | state, agency, msg => .error (.illegalTransition state msg.messageTag agency)

/-! ## Local chain-sync -/

inductive LocalChainSyncState where
  | idle | canAwait | mustReply | intersect | done
deriving DecidableEq, Repr

inductive LocalChainSyncEvent where
  | rollForward (blockBytes : Bytes) (tip : Tip)
  | rollBackward (point : Point) (tip : Tip)
  | intersected (point : Point) (tip : Tip)
  | noIntersection (tip : Tip)
deriving DecidableEq, Repr

inductive LocalChainSyncOutput where
  | reply (msg : LocalChainSyncMessage)
  | event (event : LocalChainSyncEvent)
  | done
deriving DecidableEq, Repr

def LocalChainSyncMessage.messageTag : LocalChainSyncMessage → String
  | .requestNext => "RequestNext"
  | .awaitReply => "AwaitReply"
  | .rollForward _ _ => "RollForward"
  | .rollBackward _ _ => "RollBackward"
  | .findIntersect _ => "FindIntersect"
  | .intersectFound _ _ => "IntersectFound"
  | .intersectNotFound _ => "IntersectNotFound"
  | .done => "Done"

def localChainSyncTransition (state : LocalChainSyncState) (agency : Agency) (version : UInt16)
    (msg : LocalChainSyncMessage) :
    Except (TransitionError LocalChainSyncState) (LocalChainSyncState × LocalChainSyncOutput) :=
  if maxProtocolVersion < version then .error (.invalidForVersion version msg.messageTag)
  else
    match state, agency, msg with
    | .idle, .client, .requestNext => .ok (.canAwait, .reply .requestNext)
    | .idle, .client, .findIntersect points =>
        if points = [] then .error (.malformedMessage "FindIntersect carried an empty points list")
        else .ok (.intersect, .reply (.findIntersect points))
    | .idle, .client, .done => .ok (.done, .done)
    | .canAwait, .server, .rollForward block tip => .ok (.idle, .event (.rollForward block tip))
    | .canAwait, .server, .rollBackward point tip => .ok (.idle, .event (.rollBackward point tip))
    | .canAwait, .server, .awaitReply => .ok (.mustReply, .reply .awaitReply)
    | .mustReply, .server, .rollForward block tip => .ok (.idle, .event (.rollForward block tip))
    | .mustReply, .server, .rollBackward point tip => .ok (.idle, .event (.rollBackward point tip))
    | .intersect, .server, .intersectFound point tip => .ok (.idle, .event (.intersected point tip))
    | .intersect, .server, .intersectNotFound tip => .ok (.idle, .event (.noIntersection tip))
    | state, agency, msg => .error (.illegalTransition state msg.messageTag agency)

/-! ## Local state-query -/

inductive LocalStateQueryState where
  | idle | acquiring | acquired | querying | done
deriving DecidableEq, Repr

inductive LocalStateQueryEvent where
  | acquireRequested (point : Option Point)
  | snapshotAcquired
  | acquireFailed (reason : AcquireFailure)
  | queryRequested (payload : Bytes)
  | queryReplied (payload : Bytes)
  | snapshotReleased
  | reAcquireRequested (point : Option Point)
deriving DecidableEq, Repr

inductive LocalStateQueryOutput where
  | event (event : LocalStateQueryEvent)
  | done
deriving DecidableEq, Repr

def LocalStateQueryMessage.messageTag : LocalStateQueryMessage → String
  | .acquire _ => "Acquire"
  | .acquireNoPoint => "AcquireNoPoint"
  | .acquired => "Acquired"
  | .failure _ => "Failure"
  | .query _ => "Query"
  | .result _ => "Result"
  | .release => "Release"
  | .reAcquire _ => "ReAcquire"
  | .reAcquireNoPoint => "ReAcquireNoPoint"
  | .done => "Done"

def localStateQueryTransition (state : LocalStateQueryState) (agency : Agency) (version : UInt16)
    (msg : LocalStateQueryMessage) :
    Except (TransitionError LocalStateQueryState) (LocalStateQueryState × LocalStateQueryOutput) :=
  if maxProtocolVersion < version then .error (.invalidForVersion version msg.messageTag)
  else
    match state, agency, msg with
    | .idle, .client, .acquire point => .ok (.acquiring, .event (.acquireRequested (some point)))
    | .idle, .client, .acquireNoPoint => .ok (.acquiring, .event (.acquireRequested none))
    | .idle, .client, .done => .ok (.done, .done)
    | .acquiring, .server, .acquired => .ok (.acquired, .event .snapshotAcquired)
    | .acquiring, .server, .failure reason => .ok (.idle, .event (.acquireFailed reason))
    | .acquired, .client, .query payload => .ok (.querying, .event (.queryRequested payload))
    | .querying, .server, .result payload => .ok (.acquired, .event (.queryReplied payload))
    | .acquired, .client, .release => .ok (.idle, .event .snapshotReleased)
    | .acquired, .client, .reAcquire point => .ok (.acquiring, .event (.reAcquireRequested (some point)))
    | .acquired, .client, .reAcquireNoPoint => .ok (.acquiring, .event (.reAcquireRequested none))
    | .acquired, .client, .done => .ok (.done, .done)
    | state, agency, msg => .error (.illegalTransition state msg.messageTag agency)

/-! ## Local tx-submission -/

inductive LocalTxSubmissionState where
  | idle | busy | done
deriving DecidableEq, Repr

inductive LocalTxSubmissionEvent where
  | txSubmitted (txBytes : Bytes)
  | txAccepted
  | txRejected (rejection : Bytes)
deriving DecidableEq, Repr

inductive LocalTxSubmissionOutput where
  | event (event : LocalTxSubmissionEvent)
  | done
deriving DecidableEq, Repr

def LocalTxSubmissionMessage.messageTag : LocalTxSubmissionMessage → String
  | .submitTx _ => "SubmitTx"
  | .acceptTx => "AcceptTx"
  | .rejectTx _ => "RejectTx"
  | .done => "Done"

def localTxSubmissionTransition (state : LocalTxSubmissionState) (agency : Agency) (version : UInt16)
    (msg : LocalTxSubmissionMessage) :
    Except (TransitionError LocalTxSubmissionState)
      (LocalTxSubmissionState × LocalTxSubmissionOutput) :=
  if maxProtocolVersion < version then .error (.invalidForVersion version msg.messageTag)
  else
    match state, agency, msg with
    | .idle, .client, .submitTx txBytes => .ok (.busy, .event (.txSubmitted txBytes))
    | .idle, .client, .done => .ok (.done, .done)
    | .busy, .server, .acceptTx => .ok (.idle, .event .txAccepted)
    | .busy, .server, .rejectTx rejection => .ok (.idle, .event (.txRejected rejection))
    | state, agency, msg => .error (.illegalTransition state msg.messageTag agency)

/-! ## Local tx-monitor -/

inductive BusyKind where
  | nextTx | hasTx | getSizes | getMeasures
deriving DecidableEq, Repr

inductive LocalTxMonitorState where
  | idle
  | acquiring
  | acquired
  | busy (kind : BusyKind)
  | done
deriving DecidableEq, Repr

inductive LocalTxMonitorEvent where
  | acquireRequested
  | reAcquireRequested
  | mempoolAcquired (slot : SlotNo)
  | mempoolReleased
  | nextTxRequested
  | nextTxReplied (txBytes : Option Bytes)
  | hasTxRequested (txId : Hash32)
  | hasTxReplied (present : Bool)
  | sizesRequested
  | sizesReplied (sizes : MempoolSizeAndCapacity)
  | measuresRequested
  | measuresReplied (measures : MempoolMeasures)
deriving DecidableEq

inductive LocalTxMonitorOutput where
  | event (event : LocalTxMonitorEvent)
  | done
deriving DecidableEq

def LocalTxMonitorMessage.messageTag : LocalTxMonitorMessage → String
  | .done => "Done"
  | .acquire => "Acquire"
  | .acquired _ => "Acquired"
  | .release => "Release"
  | .nextTx => "NextTx"
  | .replyNextTx _ => "ReplyNextTx"
  | .hasTx _ => "HasTx"
  | .replyHasTx _ => "ReplyHasTx"
  | .getSizes => "GetSizes"
  | .replyGetSizes _ => "ReplyGetSizes"
  | .getMeasures => "GetMeasures"
  | .replyGetMeasures _ => "ReplyGetMeasures"

def minMeasuresVersion : UInt16 := 2

/-- The measures are asked for and answered from a version on. -/
def localTxMonitorTransition (state : LocalTxMonitorState) (agency : Agency) (version : UInt16)
    (msg : LocalTxMonitorMessage) :
    Except (TransitionError LocalTxMonitorState) (LocalTxMonitorState × LocalTxMonitorOutput) :=
  if maxProtocolVersion < version then .error (.invalidForVersion version msg.messageTag)
  else
    match state, agency, msg with
    | .idle, .client, .done => .ok (.done, .done)
    | .idle, .client, .acquire => .ok (.acquiring, .event .acquireRequested)
    | .acquiring, .server, .acquired slot => .ok (.acquired, .event (.mempoolAcquired slot))
    | .acquired, .client, .acquire => .ok (.acquiring, .event .reAcquireRequested)
    | .acquired, .client, .release => .ok (.idle, .event .mempoolReleased)
    | .acquired, .client, .nextTx => .ok (.busy .nextTx, .event .nextTxRequested)
    | .acquired, .client, .hasTx txId => .ok (.busy .hasTx, .event (.hasTxRequested txId))
    | .acquired, .client, .getSizes => .ok (.busy .getSizes, .event .sizesRequested)
    | .acquired, .client, .getMeasures =>
        if version < minMeasuresVersion then .error (.invalidForVersion version "GetMeasures")
        else .ok (.busy .getMeasures, .event .measuresRequested)
    | .busy .nextTx, .server, .replyNextTx txBytes => .ok (.acquired, .event (.nextTxReplied txBytes))
    | .busy .hasTx, .server, .replyHasTx present => .ok (.acquired, .event (.hasTxReplied present))
    | .busy .getSizes, .server, .replyGetSizes sizes => .ok (.acquired, .event (.sizesReplied sizes))
    | .busy .getMeasures, .server, .replyGetMeasures measures =>
        if version < minMeasuresVersion then .error (.invalidForVersion version "ReplyGetMeasures")
        else .ok (.acquired, .event (.measuresReplied measures))
    | state, agency, msg => .error (.illegalTransition state msg.messageTag agency)

end Ade.Network
