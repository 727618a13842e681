import Ade.Codec.Skip
import Ade.Library.Except
import Ade.Library.Incremental
import Ade.Network.Handshake

/-! The session with a peer: bytes of the socket come in, effects go out. -/

namespace Ade.Network
open Library Codec Progress

/-! ## The registry of mini-protocols -/

inductive AcceptedMiniProtocol where
  | handshake | chainSync | blockFetch | txSubmission | localChainSync | localTxSubmission
  | localStateQuery | keepAlive | localTxMonitor | peerSharing
deriving DecidableEq, Repr

namespace AcceptedMiniProtocol

def handshakeId : UInt16 := 0

def id : AcceptedMiniProtocol → UInt16
  | handshake => handshakeId
  | chainSync => 2
  | blockFetch => 3
  | txSubmission => 4
  | localChainSync => 5
  | localTxSubmission => 6
  | localStateQuery => 7
  | keepAlive => 8
  | localTxMonitor => 9
  | peerSharing => 10

def all : List AcceptedMiniProtocol :=
  [handshake, chainSync, blockFetch, txSubmission, localChainSync, localTxSubmission,
    localStateQuery, keepAlive, localTxMonitor, peerSharing]

def fromId (number : UInt16) : Option AcceptedMiniProtocol :=
  all.find? fun protocol => protocol.id = number

theorem small (protocol : AcceptedMiniProtocol) : protocol.id ≤ idMask := by
  cases protocol <;> decide

end AcceptedMiniProtocol

/-! ## Events, effects and errors -/

inductive HandshakeRole where
  | initiator
  | responder
deriving DecidableEq, Repr

inductive ByteChunkIn where
  | inbound (bytes : Bytes)
  | outboundFrame (miniProtocol : AcceptedMiniProtocol) (payload : Bytes) (mode : MuxMode)
      (timestamp : UInt32)
  | handshakeStartInitiator (proposal : HandshakeMessage)
deriving DecidableEq, Repr

inductive SessionEffect where
  | sendBytes (bytes : Bytes)
  | deliverPeerFrame (miniProtocol : AcceptedMiniProtocol) (payload : Bytes)
  | handshakeComplete (version : UInt16) (params : VersionData)
deriving DecidableEq, Repr

inductive SessionError where
  | unknownMiniProtocolId (id : UInt16)
  | preHandshakeMiniProtocolFrame (id : UInt16)
  | postHandshakeHandshakeFrame
  | mux (failure : MuxError)
  | handshake (failure : HandshakeError)
  | outboundPayloadTooLarge (len : Nat)
  | protocolPayloadMalformed (protocol : UInt16) (detail : String)
  | reassemblyBufferOverflow (protocol : UInt16) (len cap : Nat)
deriving DecidableEq, Repr

def maxReassemblyTailBytes : Nat := 16 * 1024 * 1024

def maxOutboundPayloadBytes : Nat := 16 * 1024 * 1024

/-! ## States -/

structure HandshakeProgress where
  role : HandshakeRole
  inner : HandshakeState
  buffer : Bytes
  proposalSent : Bool
deriving DecidableEq

/-- One buffer for each mini-protocol. -/
abbrev ProtoBuffers := AcceptedMiniProtocol → Bytes

structure ConnectedState where
  negotiatedVersion : UInt16
  negotiatedParams : VersionData
  buffer : Bytes
  nextOutboundSeq : UInt64
  protoBuffers : ProtoBuffers

def ConnectedState.new (negotiatedVersion : UInt16) (negotiatedParams : VersionData) : ConnectedState :=
  ⟨negotiatedVersion, negotiatedParams, [], 0, fun _ => []⟩

inductive SessionState where
  | handshaking (progress : HandshakeProgress)
  | connected (state : ConnectedState)

def SessionState.newInitiator : SessionState := .handshaking ⟨.initiator, .idle, [], false⟩

def SessionState.newResponder : SessionState := .handshaking ⟨.responder, .idle, [], false⟩

/-- A step that fails leaves no state behind: the peer is dropped. -/
abbrev Stepped := SessionState × List SessionEffect

/-! ## Frames of the socket -/

/-- The first frame in the buffer and what is behind it, if it is complete. -/
def pullOneFrame (buffer : Bytes) : Except SessionError (Option (MuxFrame × Bytes)) :=
  if buffer.length < headerLen then .ok none
  else
    match decodeFrame buffer with
    | .ok (frame, _) => .ok (some (frame, buffer.drop (headerLen + frame.payload.length)))
    | .error (.truncated _ _) => .ok none
    | .error failure => .error (.mux failure)

theorem pullOneFrame_shrinks {buffer rest : Bytes} {frame : MuxFrame}
    (pulled : pullOneFrame buffer = .ok (some (frame, rest))) : rest.length < buffer.length := by
  unfold pullOneFrame at pulled
  split at pulled
  · cases pulled
  · rename_i enough
    split at pulled
    · cases pulled
      rw [List.length_drop]
      unfold headerLen at enough ⊢
      omega
    · cases pulled
    · cases pulled

def encodeInnerFrame (miniProtocol : AcceptedMiniProtocol) (payload : Bytes) (mode : MuxMode)
    (timestamp : UInt32) : Except SessionError Bytes :=
  if payload.length > maxPayload then .error (.outboundPayloadTooLarge payload.length)
  else
    let header : MuxHeader :=
      { timestamp, mode, miniProtocolId := ⟨miniProtocol.id, miniProtocol.small⟩,
        length := UInt16.ofNat payload.length }
    (encodeFrame ⟨header, payload⟩).mapError SessionError.mux

/-! ## While the handshake lasts -/

def agencyOf : HandshakeRole → HandshakeState → HandshakeAgency
  | .responder, .idle => .clientHasAgency
  | .initiator, .proposed => .serverHasAgency
  | _, _ => .nobodyHasAgency

/-- The connected state starts out with no bytes. -/
def handshakeSelected (role : HandshakeRole) (version : UInt16) (params : VersionData) :
    Except SessionError Stepped :=
  let complete := [SessionEffect.handshakeComplete version params]
  let connected := SessionState.connected (.new version params)
  match role with
  | .responder => do
      let accept := encodeHandshakeMessage (.acceptVersion version [0x01])
      let reply ← encodeInnerFrame .handshake accept .responder 0
      return (connected, .sendBytes reply :: complete)
  | .initiator => return (connected, complete)

def handshakeOutput (progress : HandshakeProgress) : N2nHandshakeOutput → Except SessionError Stepped
  | .reply reply => do
      let bytes ← encodeInnerFrame .handshake (encodeHandshakeMessage reply) .responder 0
      return (.handshaking progress, [.sendBytes bytes])
  | .selected version params => handshakeSelected progress.role version params
  | .refused _ | .done => .error (.handshake (.malformedMessage "handshake refused"))

/-- The message that a frame carries while the handshake lasts. -/
def handshakeMessageOf (frame : MuxFrame) : Except SessionError HandshakeMessage :=
  let id := frame.header.miniProtocolId.get
  if id ≠ AcceptedMiniProtocol.handshakeId then
    .error (if AcceptedMiniProtocol.fromId id = none then .unknownMiniProtocolId id
      else .preHandshakeMiniProtocolFrame id)
  else
    (decodeHandshakeMessage frame.payload).mapError fun _ =>
      .handshake (.malformedMessage "handshake frame failed decode")

def handshakeTransition (progress : HandshakeProgress) (frame : MuxFrame) :
    Except SessionError (HandshakeState × N2nHandshakeOutput) := do
  let message ← handshakeMessageOf frame
  (n2nTransition progress.inner (agencyOf progress.role progress.inner) n2nSupported message).mapError
    SessionError.handshake

/-- `rest` is what the buffer still holds behind the frame. -/
def handshakeFrameReceived (progress : HandshakeProgress) (frame : MuxFrame) (rest : Bytes) :
    Except SessionError Stepped := do
  let (inner, output) ← handshakeTransition progress frame
  handshakeOutput { progress with buffer := rest, inner } output

def handshakeAct : SessionState → Option (Except SessionError Stepped)
  | .handshaking progress =>
      match pullOneFrame progress.buffer with
      | .error failure => some (.error failure)
      | .ok none => none
      | .ok (some (frame, rest)) => some (handshakeFrameReceived progress frame rest)
  | .connected _ => none

def handshakeSize : SessionState → Nat
  | .handshaking progress => progress.buffer.length + 1
  | .connected _ => 0

theorem handshakeFrameReceived_ok {progress : HandshakeProgress} {frame : MuxFrame} {rest : Bytes}
    {next : SessionState} {produced : List SessionEffect}
    (received : handshakeFrameReceived progress frame rest = .ok (next, produced)) :
    handshakeSize next ≤ rest.length + 1 := by
  obtain ⟨⟨inner, output⟩, -, answered⟩ := bind_ok received
  cases output with
  | reply reply =>
      obtain ⟨bytes, -, same⟩ := bind_ok answered
      cases same
      exact Nat.le_refl _
  | selected version params =>
      dsimp only [handshakeOutput] at answered
      cases role : progress.role with
      | responder =>
          rw [role] at answered
          obtain ⟨reply, -, same⟩ := bind_ok answered
          cases same
          exact Nat.zero_le _
      | initiator =>
          rw [role] at answered
          cases answered
          exact Nat.zero_le _
  | refused reason => cases answered
  | done => cases answered

theorem handshakeAct_shrinks {state next : SessionState} {produced : List SessionEffect}
    (acted : handshakeAct state = some (.ok (next, produced))) :
    handshakeSize next < handshakeSize state := by
  cases state with
  | connected state => cases acted
  | handshaking progress =>
      unfold handshakeAct at acted
      dsimp only at acted
      split at acted
      · cases acted
      · cases acted
      · rename_i pulled
        rw [Option.some.injEq] at acted
        have smaller := pullOneFrame_shrinks pulled
        exact Nat.lt_of_le_of_lt (handshakeFrameReceived_ok acted) (Nat.succ_lt_succ smaller)

/-- The loop ends when the session gets connected. -/
def handshakeFrames : Consumer SessionError SessionState SessionEffect :=
  ⟨handshakeAct, handshakeSize, handshakeAct_shrinks⟩

def drainHandshakeFrames : SessionState → Except SessionError Stepped := handshakeFrames.drain

/-! ## Once connected -/

def codecErrorDetail : CodecError → String
  | .unexpectedEof _ _ => "unexpected_eof"
  | .unknownEraTag _ => "unknown_era_tag"
  | .unknownCertTag _ _ => "unknown_cert_tag"
  | .invalidCborStructure _ _ => "invalid_cbor_structure"
  | .trailingBytes _ _ => "trailing_bytes"
  | .unexpectedCborType _ _ _ => "unexpected_cbor_type"
  | .invalidLength _ _ => "invalid_length"
  | .duplicateMapKey _ => "duplicate_map_key"

/-- One complete item at the head of the buffer. -/
def itemAct (protocol : AcceptedMiniProtocol) (buffer : Bytes) :
    Option (Except SessionError (Bytes × List SessionEffect)) :=
  if buffer = [] then none
  else
    match skipItem buffer 0 with
    | (.ok _, offset) =>
        some (.ok (buffer.drop offset, [.deliverPeerFrame protocol (buffer.take offset)]))
    | (.error (.unexpectedEof _ _), _) => none
    | (.error failure, _) =>
        some (.error (.protocolPayloadMalformed protocol.id (codecErrorDetail failure)))

theorem itemAct_shrinks {protocol : AcceptedMiniProtocol} {buffer rest : Bytes}
    {produced : List SessionEffect} (acted : itemAct protocol buffer = some (.ok (rest, produced))) :
    rest.length < buffer.length := by
  unfold itemAct at acted
  split at acted
  · cases acted
  · split at acted
    · rename_i skipped
      cases acted
      obtain ⟨available, taken⟩ := skipItem_forward skipped
      rw [List.length_drop]
      omega
    · cases acted
    · cases acted

def protocolItems (protocol : AcceptedMiniProtocol) : Consumer SessionError Bytes SessionEffect :=
  ⟨itemAct protocol, List.length, itemAct_shrinks⟩

def drainProtocolItems (protocol : AcceptedMiniProtocol) :
    Bytes → Except SessionError (Bytes × List SessionEffect) := (protocolItems protocol).drain

/-- The payload of a frame joins what its protocol has buffered. -/
def payloadReceived (connected : ConnectedState) (protocol : AcceptedMiniProtocol) (payload : Bytes) :
    Except SessionError (ConnectedState × List SessionEffect) := do
  let (tail, effects) ← drainProtocolItems protocol (connected.protoBuffers protocol ++ payload)
  if tail.length > maxReassemblyTailBytes then
    throw (.reassemblyBufferOverflow protocol.id tail.length maxReassemblyTailBytes)
  else
    return ({ connected with protoBuffers := Function.update connected.protoBuffers protocol tail },
      effects)

def connectedFrameReceived (connected : ConnectedState) (frame : MuxFrame) :
    Except SessionError (ConnectedState × List SessionEffect) :=
  match AcceptedMiniProtocol.fromId frame.header.miniProtocolId.get with
  | none => .error (.unknownMiniProtocolId frame.header.miniProtocolId.get)
  | some .handshake => .error .postHandshakeHandshakeFrame
  | some protocol => payloadReceived connected protocol frame.payload

def connectedAct (connected : ConnectedState) :
    Option (Except SessionError (ConnectedState × List SessionEffect)) :=
  match pullOneFrame connected.buffer with
  | .error failure => some (.error failure)
  | .ok none => none
  | .ok (some (frame, rest)) => some (connectedFrameReceived { connected with buffer := rest } frame)

theorem connectedFrameReceived_ok {connected next : ConnectedState} {frame : MuxFrame}
    {produced : List SessionEffect}
    (received : connectedFrameReceived connected frame = .ok (next, produced)) :
    next.buffer = connected.buffer := by
  unfold connectedFrameReceived at received
  split at received
  · cases received
  · cases received
  · obtain ⟨⟨tail, effects⟩, -, checked⟩ := bind_ok received
    dsimp only at checked
    split_ifs at checked
    cases checked
    rfl

theorem connectedAct_shrinks {connected next : ConnectedState} {produced : List SessionEffect}
    (acted : connectedAct connected = some (.ok (next, produced))) :
    next.buffer.length < connected.buffer.length := by
  unfold connectedAct at acted
  split at acted
  · cases acted
  · cases acted
  · rename_i pulled
    rw [Option.some.injEq] at acted
    rw [connectedFrameReceived_ok acted]
    exact pullOneFrame_shrinks pulled

def connectedFrames : Consumer SessionError ConnectedState SessionEffect :=
  ⟨connectedAct, fun connected => connected.buffer.length, connectedAct_shrinks⟩

def drainConnectedFrames :
    ConnectedState → Except SessionError (ConnectedState × List SessionEffect) := connectedFrames.drain

/-! ## The reducer -/

def handleInbound (state : SessionState) (bytes : Bytes) : Except SessionError Stepped :=
  match state with
  | .handshaking progress =>
      drainHandshakeFrames (.handshaking { progress with buffer := progress.buffer ++ bytes })
  | .connected connected =>
      (drainConnectedFrames { connected with buffer := connected.buffer ++ bytes }).map fun last =>
        (.connected last.1, last.2)

def countOutbound : SessionState → SessionState
  | .connected state => .connected { state with nextOutboundSeq := state.nextOutboundSeq + 1 }
  | .handshaking progress => .handshaking progress

def SessionState.isConnected : SessionState → Bool
  | .connected _ => true
  | .handshaking _ => false

/-- An empty payload is one empty frame. -/
def segments (payload : Bytes) : List Bytes :=
  if payload = [] then [[]] else payload.toChunks maxPayload

def outboundFrames (miniProtocol : AcceptedMiniProtocol) (payload : Bytes) (mode : MuxMode)
    (timestamp : UInt32) : Except SessionError (List Bytes) :=
  (segments payload).mapM fun segment => encodeInnerFrame miniProtocol segment mode timestamp

def handleOutbound (state : SessionState) (miniProtocol : AcceptedMiniProtocol) (payload : Bytes)
    (mode : MuxMode) (timestamp : UInt32) : Except SessionError Stepped := do
  if payload.length > maxOutboundPayloadBytes then
    throw (.outboundPayloadTooLarge payload.length)
  else if !state.isConnected && miniProtocol ≠ .handshake then
    throw (.preHandshakeMiniProtocolFrame miniProtocol.id)
  else
    let frames ← outboundFrames miniProtocol payload mode timestamp
    return (countOutbound state, [.sendBytes frames.flatten])

def handleHandshakeStartInitiator (state : SessionState) (proposal : HandshakeMessage) :
    Except SessionError Stepped :=
  match state with
  | .connected _ => .error .postHandshakeHandshakeFrame
  | .handshaking progress =>
      if progress.role ≠ .initiator then
        .error (.handshake (.malformedMessage "responder cannot start initiator handshake"))
      else if progress.proposalSent then
        .error (.handshake (.malformedMessage "initiator already sent proposal"))
      else do
        let bytes ← encodeInnerFrame .handshake (encodeHandshakeMessage proposal) .initiator 0
        return (.handshaking { progress with inner := .proposed, proposalSent := true },
          [.sendBytes bytes])

def step (state : SessionState) : ByteChunkIn → Except SessionError Stepped
  | .inbound bytes => handleInbound state bytes
  | .outboundFrame miniProtocol payload mode timestamp =>
      handleOutbound state miniProtocol payload mode timestamp
  | .handshakeStartInitiator proposal => handleHandshakeStartInitiator state proposal

end Ade.Network
