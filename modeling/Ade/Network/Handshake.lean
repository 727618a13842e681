import Ade.Codec.Conway
import Ade.Network.Mux

/-! The handshake between nodes: its messages, its state machine and its driver. -/

namespace Ade.Network
open Library Codec

/-! ## Messages -/

/-- Opaque CBOR. -/
abbrev VersionParams := Bytes

abbrev VersionTable := List (UInt16 × VersionParams)

inductive RefuseReason where
  | versionMismatch (versions : List UInt16)
  | handshakeDecodeError (version : UInt16) (reason : String)
  | refused (version : UInt16) (reason : String)
deriving DecidableEq, Repr

inductive HandshakeMessage where
  | proposeVersions (table : VersionTable)
  | acceptVersion (version : UInt16) (params : VersionParams)
  | refuse (reason : RefuseReason)
  | queryReply (table : VersionTable)
deriving DecidableEq, Repr

/-! ### Encoding -/

def encodeArrayHeader (len : UInt64) : Bytes := writeArrayHeader (.definite len (canonicalWidth len))

def encodeU64 : UInt64 → Bytes := writeUintCanonical

def encodeVersionTable (table : VersionTable) : Bytes :=
  let len := UInt64.ofNat table.length
  writeMapHeader (.definite len (canonicalWidth len)) ++
    (table.map fun entry => encodeU64 entry.1.toUInt64 ++ entry.2).flatten

def encodeRefuseReason : RefuseReason → Bytes
  | .versionMismatch versions =>
      encodeArrayHeader 2 ++ encodeU64 0 ++ encodeArrayHeader (UInt64.ofNat versions.length) ++
        (versions.map fun version => encodeU64 version.toUInt64).flatten
  | .handshakeDecodeError version reason =>
      encodeArrayHeader 3 ++ encodeU64 1 ++ encodeU64 version.toUInt64 ++ writeTextCanonical reason
  | .refused version reason =>
      encodeArrayHeader 3 ++ encodeU64 2 ++ encodeU64 version.toUInt64 ++ writeTextCanonical reason

def encodeHandshakeMessage : HandshakeMessage → Bytes
  | .proposeVersions table => encodeArrayHeader 2 ++ encodeU64 0 ++ encodeVersionTable table
  | .acceptVersion version params =>
      encodeArrayHeader 3 ++ encodeU64 1 ++ encodeU64 version.toUInt64 ++ params
  | .refuse reason => encodeArrayHeader 2 ++ encodeU64 2 ++ encodeRefuseReason reason
  | .queryReply table => encodeArrayHeader 2 ++ encodeU64 3 ++ encodeVersionTable table

/-! ### Decoding -/

inductive MessageError where
  | truncated (needed got : Nat)
  | unknownTag (tag : UInt64)
  | invalidUtf8 (field : String)
  | invalidProtocolMessage (reason : String)
  | invalidIntegerRange (field : String) (value : UInt64)
  | malformedCbor (source : CodecError)
deriving DecidableEq, Repr

abbrev Decode := Cursor MessageError

def wrapped {α : Type} (read : Read α) : Decode α := ExceptT.adapt MessageError.malformedCbor read

def decodeArrayHeader (data : Bytes) : Decode UInt64 := do
  match ← wrapped (readArrayHeader data) with
  | .definite count _ => return count
  | .indefinite => throw (.invalidProtocolMessage "indefinite-length array not allowed")

def decodeU64 (data : Bytes) : Decode UInt64 := do return (← wrapped (readUint data)).1

def decodeU32 (field : String) (data : Bytes) : Decode UInt32 := do
  let value ← decodeU64 data
  if value.toNat ≥ 2 ^ 32 then throw (.invalidIntegerRange field value)
  return value.toUInt32

/-- Bytes that are no UTF-8 have an error of their own. -/
def textError (field : String) : CodecError → MessageError
  | .invalidCborStructure offset detail =>
      if detail = "invalid UTF-8 in text string" then .invalidUtf8 field
      else .malformedCbor (.invalidCborStructure offset detail)
  | source => .malformedCbor source

def decodeText (field : String) (data : Bytes) : Decode String := do
  return (← ExceptT.adapt (textError field) (readText data)).1

def decodeVersion (data : Bytes) : Decode UInt16 := do
  let version ← decodeU32 "version number" data
  if version.toNat ≥ 2 ^ 16 then throw (.invalidIntegerRange "version number" version.toUInt64)
  return version.toUInt16

def decodeParams (data : Bytes) : Decode VersionParams := wrapped (readItem data)

def decodeVersionEntry (data : Bytes) : Decode (UInt16 × VersionParams) := do
  let version ← decodeVersion data
  return (version, ← decodeParams data)

def decodeVersionTable (data : Bytes) : Decode VersionTable := do
  match ← wrapped (readMapHeader data) with
  | .definite len _ => Cursor.times (decodeVersionEntry data) len.toNat
  | .indefinite => throw (.invalidProtocolMessage "indefinite-length version table not allowed")

def decodeRefuseReason (data : Bytes) : Decode RefuseReason := do
  let arrLen ← decodeArrayHeader data
  if arrLen < 1 then throw (.invalidProtocolMessage "refuse reason has zero-length array")
  let tag ← decodeU64 data
  if tag = 0 ∧ arrLen = 2 then
    let count ← decodeArrayHeader data
    return .versionMismatch (← Cursor.times (decodeVersion data) count.toNat)
  else if tag = 1 ∧ arrLen = 3 then
    let version ← decodeVersion data
    return .handshakeDecodeError version (← decodeText "handshake decode error reason" data)
  else if tag = 2 ∧ arrLen = 3 then
    let version ← decodeVersion data
    return .refused version (← decodeText "refused reason" data)
  else throw (.unknownTag tag)

def decodeMessageBody (data : Bytes) (tag arrLen : UInt64) : Decode HandshakeMessage := do
  if tag = 0 ∧ arrLen = 2 then return .proposeVersions (← decodeVersionTable data)
  else if tag = 1 ∧ arrLen = 3 then
    let version ← decodeVersion data
    return .acceptVersion version (← decodeParams data)
  else if tag = 2 ∧ arrLen = 2 then return .refuse (← decodeRefuseReason data)
  else if tag = 3 ∧ arrLen = 2 then return .queryReply (← decodeVersionTable data)
  else throw (.unknownTag tag)

def decodeMessage (data : Bytes) : Decode HandshakeMessage := do
  let arrLen ← decodeArrayHeader data
  if arrLen < 1 then throw (.invalidProtocolMessage "empty outer array")
  let tag ← decodeU64 data
  decodeMessageBody data tag arrLen

def decodeHandshakeMessage (bytes : Bytes) : Except MessageError HandshakeMessage :=
  if bytes = [] then .error (.truncated 1 0)
  else
    match (decodeMessage bytes).runAt 0 with
    | (.error failure, _) => .error failure
    | (.ok message, offset) =>
        if offset ≠ bytes.length then .error (.invalidProtocolMessage "trailing bytes after message")
        else .ok message

/-! ## Version tables -/

inductive PeerSharingFlag where
  | noPeerSharing
  | peerSharingPublic
deriving DecidableEq, Repr

structure VersionData where
  networkMagic : UInt32
  initiatorOnlyDiffusion : Bool
  peerSharing : PeerSharingFlag
  query : Bool
  perasSupport : Bool
deriving DecidableEq, Repr

def mainnetNetworkMagic : UInt32 := 764824073

def n2n (networkMagic : UInt32) : VersionData :=
  ⟨networkMagic, false, .noPeerSharing, false, false⟩

def n2nSupported : List (UInt16 × VersionData) :=
  [(11, n2n mainnetNetworkMagic), (12, n2n mainnetNetworkMagic), (13, n2n mainnetNetworkMagic),
    (14, n2n mainnetNetworkMagic), (15, n2n mainnetNetworkMagic), (16, n2n mainnetNetworkMagic)]

def n2nSupportedForMagic (networkMagic : UInt32) : List (UInt16 × VersionData) :=
  n2nSupported.map fun entry => (entry.1, n2n networkMagic)

/-- From version 16 on there is a fifth field. -/
def encodeN2nVersionParams (version : UInt16) (networkMagic : UInt32) : VersionParams :=
  encodeArrayHeader (if version ≥ 16 then 5 else 4) ++ encodeU64 networkMagic.toUInt64 ++
    writeBool true ++ encodeU64 0 ++ writeBool false ++
    (if version ≥ 16 then writeBool false else [])

/-! ## The state machine -/

inductive HandshakeState where
  | idle | proposed | done | refused
deriving DecidableEq, Repr

inductive HandshakeAgency where
  | clientHasAgency | serverHasAgency | nobodyHasAgency
deriving DecidableEq, Repr

inductive N2nHandshakeOutput where
  | reply (message : HandshakeMessage)
  | selected (version : UInt16) (data : VersionData)
  | refused (reason : RefuseReason)
  | done
deriving DecidableEq, Repr

inductive HandshakeError where
  | illegalTransition (state : HandshakeState) (messageTag agency : String)
  | unknownVersion (version : UInt16)
  | versionMismatch (proposedSet supportedSet : List UInt16)
  | malformedMessage (reason : String)
deriving DecidableEq, Repr

/-- A higher version that both sides have replaces the best one so far. -/
def betterVersion (proposed : UInt16) (best : Option (UInt16 × VersionData))
    (supported : UInt16 × VersionData) : Option (UInt16 × VersionData) :=
  if supported.1 = proposed ∧ best.all (fun found => proposed > found.1) then
    some (proposed, supported.2)
  else best

/-- `none` is the mismatch. -/
def selectN2nVersion (proposed : VersionTable) (supported : List (UInt16 × VersionData)) :
    Option (UInt16 × VersionData) :=
  proposed.foldl (fun best entry => supported.foldl (betterVersion entry.1) best) none

def messageTag : HandshakeMessage → String
  | .proposeVersions _ => "ProposeVersions"
  | .acceptVersion _ _ => "AcceptVersion"
  | .refuse _ => "Refuse"
  | .queryReply _ => "QueryReply"

def agencyTag : HandshakeAgency → String
  | .clientHasAgency => "ClientHasAgency"
  | .serverHasAgency => "ServerHasAgency"
  | .nobodyHasAgency => "NobodyHasAgency"

def n2nTransition (state : HandshakeState) (agency : HandshakeAgency)
    (supported : List (UInt16 × VersionData)) (message : HandshakeMessage) :
    Except HandshakeError (HandshakeState × N2nHandshakeOutput) :=
  match state, message, agency with
  | .idle, .proposeVersions table, .clientHasAgency =>
      if table = [] then
        .error (.malformedMessage "ProposeVersions carried an empty version table")
      else
        match selectN2nVersion table supported with
        | some (version, data) => .ok (.done, .selected version data)
        | none => .error (.versionMismatch (table.map Prod.fst) (supported.map Prod.fst))
  | .proposed, .acceptVersion version _, .serverHasAgency =>
      match supported.find? fun entry => entry.1 = version with
      | some (_, data) => .ok (.done, .selected version data)
      | none => .error (.unknownVersion version)
  | .proposed, .refuse reason, .serverHasAgency => .ok (.refused, .refused reason)
  | .proposed, .queryReply _, .serverHasAgency => .ok (.refused, .refused (.versionMismatch []))
  | _, _, _ => .error (.illegalTransition state (messageTag message) (agencyTag agency))

/-! ## The driver -/

structure NegotiatedN2n where
  version : UInt16
  params : VersionData
deriving DecidableEq, Repr

inductive TransportError where
  | eof
  | mux (failure : MuxError)
  | handshake (failure : HandshakeError)
deriving DecidableEq, Repr

/-- What is still to be read, and what has been written. -/
structure Pipe where
  inbox : Bytes
  outbox : Bytes

abbrev Driver := ExceptT TransportError (StateM Pipe)

namespace Driver

def readExact (count : Nat) : Driver Bytes := do
  let pipe ← get
  if pipe.inbox.length < count then throw .eof
  set { pipe with inbox := pipe.inbox.drop count }
  return pipe.inbox.take count

def writeAll (bytes : Bytes) : Driver Unit :=
  modify fun pipe => { pipe with outbox := pipe.outbox ++ bytes }

/-- The result, and what was written, of a driver that reads from the bytes. -/
def runOn {α : Type} (driver : Driver α) (inbox : Bytes) : Except TransportError α × Bytes :=
  let (result, pipe) := StateT.run driver.run ⟨inbox, []⟩
  (result, pipe.outbox)

end Driver

def handshakeFailed {α : Type} (failure : HandshakeError) : Driver α := throw (.handshake failure)

def writeHandshakeFrame (payload : Bytes) (mode : MuxMode) : Driver Unit := do
  let header : MuxHeader :=
    { timestamp := 0, mode, miniProtocolId := ⟨0, zero_le_idMask⟩, length := UInt16.ofNat payload.length }
  let bytes ← liftExcept ((encodeFrame ⟨header, payload⟩).mapError TransportError.mux)
  Driver.writeAll bytes

def readHandshakeFrame : Driver MuxFrame := do
  let header ← Driver.readExact headerLen
  let payload ← Driver.readExact (decodeHeader header).length.toNat
  let (frame, _) ← liftExcept ((decodeFrame (header ++ payload)).mapError TransportError.mux)
  return frame

def decodeOrFail (reason : String) (payload : Bytes) : Driver HandshakeMessage :=
  match decodeHandshakeMessage payload with
  | .ok message => pure message
  | .error _ => handshakeFailed (.malformedMessage reason)

def initiatorOutcome : N2nHandshakeOutput → Driver NegotiatedN2n
  | .selected version params => pure ⟨version, params⟩
  | .refused _ | .done =>
      handshakeFailed (.malformedMessage "handshake refused or terminated without selection")
  | .reply _ =>
      handshakeFailed (.malformedMessage "initiator received Reply where Accept/Refuse expected")

/-- The answer is looked up in the fixed table, whatever was proposed. -/
def runN2nHandshakeInitiator (ourVersions : VersionTable) : Driver NegotiatedN2n := do
  writeHandshakeFrame (encodeHandshakeMessage (.proposeVersions ourVersions)) .initiator
  let frame ← readHandshakeFrame
  let message ← decodeOrFail "peer reply failed handshake decode" frame.payload
  let (_, output) ← liftExcept
    ((n2nTransition .proposed .serverHasAgency n2nSupported message).mapError TransportError.handshake)
  initiatorOutcome output

def responderOutcome : N2nHandshakeOutput → Driver NegotiatedN2n
  | .selected version params => do
      let reply := .acceptVersion version (encodeN2nVersionParams version params.networkMagic)
      writeHandshakeFrame (encodeHandshakeMessage reply) .responder
      return ⟨version, params⟩
  | .reply reply => do
      writeHandshakeFrame (encodeHandshakeMessage reply) .responder
      handshakeFailed (.malformedMessage
        "responder selection produced Reply (refuse path) instead of Selected")
  | .refused _ | .done => handshakeFailed (.malformedMessage "handshake refused on responder side")

def runN2nHandshakeResponder (ourSupported : List (UInt16 × VersionData)) :
    Driver NegotiatedN2n := do
  let frame ← readHandshakeFrame
  let message ← decodeOrFail "initiator proposal failed handshake decode" frame.payload
  match n2nTransition .idle .clientHasAgency ourSupported message with
  | .ok (_, output) => responderOutcome output
  | .error (.versionMismatch _ supportedSet) =>
      let refuse := .refuse (.versionMismatch supportedSet)
      writeHandshakeFrame (encodeHandshakeMessage refuse) .responder
      handshakeFailed (.versionMismatch [] supportedSet)
  | .error failure => handshakeFailed failure

/-! ## Two sides -/

/-- Over a reliable transport each side reads what the other one writes. -/
def Exchanged {α β : Type} (initiator : Driver α) (responder : Driver β)
    (initiated : Except TransportError α) (responded : Except TransportError β) : Prop :=
  ∃ toResponder toInitiator, initiator.runOn toInitiator = (initiated, toResponder) ∧
    responder.runOn toResponder = (responded, toInitiator)

def proposalOf (networkMagic : UInt32) (versions : List UInt16) : VersionTable :=
  versions.map fun version => (version, encodeN2nVersionParams version networkMagic)

def supportedBy (networkMagic : UInt32) (versions : List UInt16) : List (UInt16 × VersionData) :=
  (n2nSupportedForMagic networkMagic).filter fun entry => entry.1 ∈ versions

/-- The best version that both sides offer. -/
def IsBestCommon (offered offered' : List UInt16) (version : UInt16) : Prop :=
  version ∈ offered ∧ version ∈ offered' ∧
    ∀ other ∈ offered, other ∈ offered' → other ≤ version

structure HandshakeAgrees (initiatorMagic responderMagic : UInt32)
    (initiatorVersions responderVersions : List UInt16) : Prop where
  agreement : ∀ initiated responded,
    Exchanged (runN2nHandshakeInitiator (proposalOf initiatorMagic initiatorVersions))
      (runN2nHandshakeResponder (supportedBy responderMagic responderVersions))
      (.ok initiated) (.ok responded) →
    initiated.version = responded.version ∧
      IsBestCommon initiatorVersions responderVersions initiated.version ∧
      initiated.params.networkMagic = responded.params.networkMagic ∧
      initiatorMagic = responderMagic
  accepted : ∀ initiated responded,
    Exchanged (runN2nHandshakeInitiator (proposalOf initiatorMagic initiatorVersions))
      (runN2nHandshakeResponder (supportedBy responderMagic responderVersions))
      initiated (.ok responded) →
    ∃ negotiated, initiated = .ok negotiated

end Ade.Network
