import Ade.Proof.Network.Session

/-! The session and the handshake driver as responders to the same frame. -/

namespace Ade.Proof.Network
open Library Progress Consumer Ade.Codec Ade.Network

/-! ## A responder that still shakes hands -/

def Advances (before after : SessionState) : Prop :=
  ∃ event effects, step before event = .ok (after, effects)

/-- It has not moved. -/
def Waiting : SessionState → Prop
  | .handshaking progress => progress.role = .responder ∧ progress.inner = .idle
  | .connected _ => True

theorem waiting_inbound {progress : HandshakeProgress} {chunk : Bytes} {next : SessionState}
    {effects : List SessionEffect} (waiting : Waiting (.handshaking progress))
    (stepped : inbound (.handshaking progress) chunk = .ok (next, effects)) : Waiting next := by
  rcases pullOneFrame_cases (progress.buffer ++ chunk) with ⟨-, incomplete⟩ | ⟨frame, rest, complete, -⟩
  · rw [inbound_incomplete incomplete] at stepped
    cases stepped
    exact waiting
  · rw [inbound_complete complete] at stepped
    rcases handshakeFrameReceived_cases progress frame with ⟨failure, received⟩ |
      ⟨version, params, produced, -, received⟩
    · rw [received] at stepped
      cases stepped
    · rw [received] at stepped
      cases stepped
      trivial

theorem connected_inbound {connected : ConnectedState} {chunk : Bytes} {next : SessionState}
    {effects : List SessionEffect}
    (stepped : inbound (.connected connected) chunk = .ok (next, effects)) : Waiting next := by
  rw [inbound_connected] at stepped
  unfold asSession at stepped
  obtain ⟨last, -, same⟩ := map_ok stepped
  cases same
  trivial

theorem handleOutbound_state {state next : SessionState} {protocol : AcceptedMiniProtocol}
    {payload : Bytes} {mode : MuxMode} {timestamp : UInt32} {effects : List SessionEffect}
    (stepped : handleOutbound state protocol payload mode timestamp = .ok (next, effects)) :
    next = countOutbound state := by
  unfold handleOutbound at stepped
  split at stepped
  · cases stepped
  · split at stepped
    · cases stepped
    · obtain ⟨frames, -, returned⟩ := bind_ok stepped
      cases returned
      rfl

theorem waiting_advances {state next : SessionState} (waiting : Waiting state)
    (advances : Advances state next) : Waiting next := by
  obtain ⟨event, effects, stepped⟩ := advances
  cases event with
  | inbound bytes =>
      cases state with
      | handshaking progress => exact waiting_inbound waiting stepped
      | connected connected => exact connected_inbound stepped
  | outboundFrame protocol payload mode timestamp =>
      obtain rfl : next = countOutbound state := handleOutbound_state stepped
      cases state with
      | handshaking progress => exact waiting
      | connected connected => trivial
  | handshakeStartInitiator proposal =>
      cases state with
      | connected connected => cases stepped
      | handshaking progress =>
          simp only [step, handleHandshakeStartInitiator] at stepped
          rw [if_pos (by rw [waiting.1]; decide)] at stepped
          cases stepped

theorem waiting_of_reached {state : SessionState}
    (reached : Relation.ReflTransGen Advances .newResponder state) : Waiting state := by
  induction reached with
  | refl => exact ⟨rfl, rfl⟩
  | tail _ advances ih => exact waiting_advances ih advances

/-! ## What the peer gets -/

/-- The bytes written, and what was negotiated unless the handshake failed. -/
structure Answer where
  written : Bytes
  negotiated : Option NegotiatedN2n
deriving DecidableEq

def sentBytes : SessionEffect → Bytes
  | .sendBytes bytes => bytes
  | .deliverPeerFrame _ _ | .handshakeComplete _ _ => []

def negotiatedBy : SessionState → Option NegotiatedN2n
  | .connected connected => some ⟨connected.negotiatedVersion, connected.negotiatedParams⟩
  | .handshaking _ => none

/-- The effects of a step that fails are lost. -/
def sessionAnswer : Except SessionError Stepped → Answer
  | .ok (state, effects) => ⟨(effects.map sentBytes).flatten, negotiatedBy state⟩
  | .error _ => ⟨[], none⟩

def driverAnswer (ran : Except TransportError NegotiatedN2n × Bytes) : Answer :=
  ⟨ran.2, ran.1.toOption⟩

def failedAnswer : Answer := ⟨[], none⟩

/-! ### The driver -/

/-- The driver behind the frame. -/
def answerMessage (message : HandshakeMessage) : Driver NegotiatedN2n :=
  match n2nTransition .idle .clientHasAgency n2nSupported message with
  | .ok (_, output) => responderOutcome output
  | .error (.versionMismatch _ supportedSet) => do
      let refuse := .refuse (.versionMismatch supportedSet)
      writeHandshakeFrame (encodeHandshakeMessage refuse) .responder
      handshakeFailed (.versionMismatch [] supportedSet)
  | .error failure => handshakeFailed failure

section
variable {inbox rest : Bytes} {frame : MuxFrame} (decoded : decodeFrame inbox = .ok (frame, rest))
include decoded

theorem driver_reads {message : HandshakeMessage}
    (carried : decodeHandshakeMessage frame.payload = .ok message) :
    (runN2nHandshakeResponder n2nSupported).runOn inbox =
      ((runFrom (answerMessage message) ⟨rest, []⟩).1, (runFrom (answerMessage message) ⟨rest, []⟩).2.outbox) := by
  have read := runFrom_readHandshakeFrame decoded []
  have opened : ∀ reason, runFrom (decodeOrFail reason frame.payload) ⟨rest, []⟩ =
      (.ok message, ⟨rest, []⟩) := by
    intro reason
    rw [decodeOrFail, carried]
    rfl
  rw [runOn_eq, runN2nHandshakeResponder, runFrom_bind_ok read, runFrom_bind_ok (opened _)]
  rfl

theorem driver_fails {failure : MessageError}
    (malformed : decodeHandshakeMessage frame.payload = .error failure) :
    driverAnswer ((runN2nHandshakeResponder n2nSupported).runOn inbox) = failedAnswer := by
  have read := runFrom_readHandshakeFrame decoded []
  rw [runOn_eq, runN2nHandshakeResponder, runFrom_bind_ok read, runFrom_bind]
  unfold decodeOrFail
  rw [malformed]
  rfl

end

/-! ### One message -/

/-- A proposal of some version. -/
def Proposes (message : HandshakeMessage) : Prop :=
  ∃ entry table, message = .proposeVersions (entry :: table)

/-- What the state machine may make of a message to a waiting responder. -/
inductive Reaction (message : HandshakeMessage) :
    Except HandshakeError (HandshakeState × N2nHandshakeOutput) → Prop
  | selects (proposes : Proposes message) (version : UInt16) (data : VersionData) :
      Reaction message (.ok (.done, .selected version data))
  | refuses (proposes : Proposes message) (proposedSet : List UInt16) :
      Reaction message (.error (.versionMismatch proposedSet (n2nSupported.map Prod.fst)))
  | fails (other : ¬ Proposes message) {failure : HandshakeError}
      (notMismatch : ∀ proposedSet supportedSet, failure ≠ .versionMismatch proposedSet supportedSet) :
      Reaction message (.error failure)

theorem reaction (message : HandshakeMessage) :
    Reaction message (n2nTransition .idle .clientHasAgency n2nSupported message) := by
  cases message with
  | proposeVersions table =>
      cases table with
      | nil => exact .fails (by rintro ⟨entry, table, ⟨⟩⟩) (fun _ _ => nofun)
      | cons entry table =>
          unfold n2nTransition
          simp only [List.cons_ne_nil, if_false]
          cases selectN2nVersion (entry :: table) n2nSupported with
          | none => exact .refuses ⟨entry, table, rfl⟩ _
          | some found => exact .selects ⟨entry, table, rfl⟩ found.1 found.2
  | acceptVersion version params => exact .fails (by rintro ⟨entry, table, ⟨⟩⟩) (fun _ _ => nofun)
  | refuse reason => exact .fails (by rintro ⟨entry, table, ⟨⟩⟩) (fun _ _ => nofun)
  | queryReply table => exact .fails (by rintro ⟨entry, table, ⟨⟩⟩) (fun _ _ => nofun)

/-- The session takes a placeholder for the parameters. -/
def sessionAcceptance (version : UInt16) : Bytes := replyFrame (.acceptVersion version [0x01])

def driverAcceptance (version : UInt16) (params : VersionData) : Bytes :=
  replyFrame (.acceptVersion version (encodeN2nVersionParams version params.networkMagic))

def refusal : Bytes := replyFrame (.refuse (.versionMismatch (n2nSupported.map Prod.fst)))

theorem replyFrame_injective {first second : HandshakeMessage} (same : replyFrame first = replyFrame second) :
    encodeHandshakeMessage first = encodeHandshakeMessage second := by
  unfold replyFrame handshakeFrame at same
  have tails := congrArg (List.drop headerLen) same
  rwa [List.drop_left' (length_encodeHeader _), List.drop_left' (length_encodeHeader _)] at tails

theorem acceptances_differ (version : UInt16) (params : VersionData) :
    sessionAcceptance version ≠ driverAcceptance version params := by
  intro same
  have encoded := replyFrame_injective same
  simp only [encodeHandshakeMessage, List.append_cancel_left_eq] at encoded
  have lengths := congrArg List.length encoded
  unfold encodeN2nVersionParams writeBool at lengths
  simp only [List.length_append, if_true, Bool.false_eq_true, if_false, List.length_singleton] at lengths
  omega

theorem refusal_ne_nil : refusal ≠ [] := by
  unfold refusal replyFrame handshakeFrame
  intro empty
  have headerEmpty := congrArg List.length (List.append_eq_nil_iff.mp empty).1
  rw [length_encodeHeader] at headerEmpty
  cases headerEmpty

section
variable (message : HandshakeMessage) (rest : Bytes)

theorem answerMessage_accepts {version : UInt16} {data : VersionData}
    (transition : n2nTransition .idle .clientHasAgency n2nSupported message =
      .ok (.done, .selected version data)) :
    runFrom (answerMessage message) ⟨rest, []⟩ =
      (.ok ⟨version, data⟩, ⟨rest, driverAcceptance version data⟩) := by
  have wrote := runFrom_writeHandshakeFrame (acceptance_fits version data.networkMagic) .responder ⟨rest, []⟩
  unfold answerMessage
  rw [transition]
  dsimp only [responderOutcome]
  rw [runFrom_bind_ok wrote]
  rfl

theorem answerMessage_refuses {proposedSet : List UInt16}
    (transition : n2nTransition .idle .clientHasAgency n2nSupported message =
      .error (.versionMismatch proposedSet (n2nSupported.map Prod.fst))) :
    runFrom (answerMessage message) ⟨rest, []⟩ =
      (.error (.handshake (.versionMismatch [] (n2nSupported.map Prod.fst))), ⟨rest, refusal⟩) := by
  have few : (n2nSupported.map Prod.fst).length ≤ 6 := by decide
  have wrote := runFrom_writeHandshakeFrame (refusal_fits few) .responder ⟨rest, []⟩
  unfold answerMessage
  rw [transition]
  dsimp only
  rw [runFrom_bind_ok wrote]
  rfl

theorem answerMessage_fails {failure : HandshakeError}
    (notMismatch : ∀ proposedSet supportedSet, failure ≠ .versionMismatch proposedSet supportedSet)
    (transition : n2nTransition .idle .clientHasAgency n2nSupported message = .error failure) :
    runFrom (answerMessage message) ⟨rest, []⟩ = (.error (.handshake failure), ⟨rest, []⟩) := by
  unfold answerMessage
  rw [transition]
  cases failure with
  | versionMismatch proposedSet supportedSet => exact absurd rfl (notMismatch proposedSet supportedSet)
  | illegalTransition state tag agency => rfl
  | unknownVersion version => rfl
  | malformedMessage reason => rfl

end

/-! ### The session -/

theorem encodeInnerFrame_reply {reply : HandshakeMessage}
    (fits : (encodeHandshakeMessage reply).length ≤ maxPayload) :
    encodeInnerFrame .handshake (encodeHandshakeMessage reply) .responder 0 = .ok (replyFrame reply) := by
  have encoded := encodeFrame_eq
    ⟨handshakeHeader (encodeHandshakeMessage reply) .responder, encodeHandshakeMessage reply⟩
    (handshakeHeader_length fits .responder)
  unfold encodeInnerFrame
  rw [if_neg (Nat.not_lt.mpr fits)]
  show (encodeFrame ⟨handshakeHeader _ _, _⟩).mapError _ = _
  rw [encoded]
  rfl

theorem placeholder_fits (version : UInt16) :
    (encodeHandshakeMessage (.acceptVersion version [0x01])).length ≤ maxPayload := by
  have header := length_encodeArrayHeader 3
  have tag := length_encodeU64 1
  have number := length_encodeU64 version.toUInt64
  simp only [encodeHandshakeMessage, List.length_append, List.length_singleton, maxPayload]
  omega

section
variable {progress : HandshakeProgress} {frame : MuxFrame} (rest : Bytes)
  (handshake : frame.header.miniProtocolId.get = AcceptedMiniProtocol.handshakeId)
include handshake

theorem session_fails {failure : MessageError}
    (malformed : decodeHandshakeMessage frame.payload = .error failure) :
    sessionAnswer (handshakeFrameReceived progress frame rest) = failedAnswer := by
  have opened : handshakeMessageOf frame =
      .error (.handshake (.malformedMessage "handshake frame failed decode")) := by
    unfold handshakeMessageOf
    dsimp only
    rw [if_neg (not_not.mpr handshake), malformed]
    rfl
  unfold handshakeFrameReceived handshakeTransition
  rw [opened]
  rfl

variable (waiting : Waiting (.handshaking progress))
include waiting

theorem session_reads {message : HandshakeMessage}
    (carried : decodeHandshakeMessage frame.payload = .ok message) :
    handshakeFrameReceived progress frame rest =
      ((n2nTransition .idle .clientHasAgency n2nSupported message).mapError SessionError.handshake >>=
        fun next => handshakeOutput { progress with buffer := rest, inner := next.1 } next.2) := by
  have opened : handshakeMessageOf frame = .ok message := by
    unfold handshakeMessageOf
    dsimp only
    rw [if_neg (not_not.mpr handshake), carried]
    rfl
  unfold handshakeFrameReceived handshakeTransition
  rw [opened, waiting.1, waiting.2]
  rfl

theorem session_refuses {message : HandshakeMessage} {failure : HandshakeError}
    (carried : decodeHandshakeMessage frame.payload = .ok message)
    (transition : n2nTransition .idle .clientHasAgency n2nSupported message = .error failure) :
    sessionAnswer (handshakeFrameReceived progress frame rest) = failedAnswer := by
  rw [session_reads rest handshake waiting carried, transition]
  rfl

theorem session_accepts {message : HandshakeMessage} {version : UInt16} {data : VersionData}
    (carried : decodeHandshakeMessage frame.payload = .ok message)
    (transition : n2nTransition .idle .clientHasAgency n2nSupported message =
      .ok (.done, .selected version data)) :
    sessionAnswer (handshakeFrameReceived progress frame rest) =
      ⟨sessionAcceptance version, some ⟨version, data⟩⟩ := by
  have sent := encodeInnerFrame_reply (placeholder_fits version)
  rw [session_reads rest handshake waiting carried, transition]
  show sessionAnswer (handshakeSelected progress.role version data) = _
  rw [waiting.1]
  dsimp only [handshakeSelected]
  rw [sent]
  show (⟨sessionAcceptance version ++ ([] ++ []), _⟩ : Answer) = _
  rw [List.append_nil, List.append_nil]
  rfl

end

/-! ## The statement -/

/-- The two responders always agree on what is negotiated. They write the same bytes exactly if the
frame proposes no version. -/
theorem responders_agree_iff {progress : HandshakeProgress} {chunk rest : Bytes} {frame : MuxFrame}
    (reached : Relation.ReflTransGen Advances .newResponder (.handshaking progress))
    (decoded : decodeFrame (progress.buffer ++ chunk) = .ok (frame, rest))
    (handshake : frame.header.miniProtocolId.get = AcceptedMiniProtocol.handshakeId) :
    let session := sessionAnswer (step (.handshaking progress) (.inbound chunk))
    let driver := driverAnswer ((runN2nHandshakeResponder n2nSupported).runOn (progress.buffer ++ chunk))
    session.negotiated = driver.negotiated ∧
      (session = driver ↔
        ∀ entry table, decodeHandshakeMessage frame.payload ≠ .ok (.proposeVersions (entry :: table))) := by
  have waiting := waiting_of_reached reached
  have stepped : step (.handshaking progress) (.inbound chunk) = handshakeFrameReceived progress frame rest :=
    inbound_complete decoded
  dsimp only
  rw [stepped]
  cases carried : decodeHandshakeMessage frame.payload with
  | error failure =>
      rw [session_fails rest handshake carried, driver_fails decoded carried]
      exact ⟨rfl, iff_of_true rfl fun _ _ => nofun⟩
  | ok message =>
      have proposes : (∀ entry table, (.ok message : Except MessageError HandshakeMessage) ≠
          .ok (.proposeVersions (entry :: table))) ↔ ¬ Proposes message := by
        simp [Proposes]
      rw [driver_reads decoded carried, proposes]
      have reacts := reaction message
      generalize transition : n2nTransition .idle .clientHasAgency n2nSupported message = outcome at reacts
      cases reacts with
      | selects proposed version data =>
          rw [session_accepts rest handshake waiting carried transition,
            answerMessage_accepts message rest transition]
          refine ⟨rfl, iff_of_false (fun same => ?_) (not_not.mpr proposed)⟩
          exact acceptances_differ version data (congrArg Answer.written same)
      | refuses proposed proposedSet =>
          rw [session_refuses rest handshake waiting carried transition,
            answerMessage_refuses message rest transition]
          refine ⟨rfl, iff_of_false (fun same => ?_) (not_not.mpr proposed)⟩
          exact refusal_ne_nil (congrArg Answer.written same).symm
      | fails other notMismatch =>
          rw [session_refuses rest handshake waiting carried transition,
            answerMessage_fails message rest notMismatch transition]
          exact ⟨rfl, iff_of_true rfl other⟩

def proposalTo (version : UInt16) : Bytes :=
  proposalFrame [(version, encodeN2nVersionParams version mainnetNetworkMagic)]

def sessionTo (version : UInt16) : Answer := sessionAnswer (step .newResponder (.inbound (proposalTo version)))

def driverTo (version : UInt16) : Answer :=
  driverAnswer ((runN2nHandshakeResponder n2nSupported).runOn (proposalTo version))

theorem responders_agree_on_known_version : (sessionTo 15).negotiated = (driverTo 15).negotiated := by
  have decoded : decodeFrame ([] ++ proposalTo 15) = .ok (⟨handshakeHeader _ .initiator, _⟩, []) :=
    decodeFrame_handshakeFrame (by decide) .initiator []
  exact (@responders_agree_iff ⟨.responder, .idle, [], false⟩ (proposalTo 15) [] _ .refl decoded rfl).1

/-- A version that both have is accepted with other parameters. A version that nobody has is refused
by the driver, and answered with nothing by the session. -/
theorem responders_write_different_bytes :
    sessionTo 15 = ⟨sessionAcceptance 15, some ⟨15, n2n mainnetNetworkMagic⟩⟩ ∧
      driverTo 15 = ⟨driverAcceptance 15 (n2n mainnetNetworkMagic), some ⟨15, n2n mainnetNetworkMagic⟩⟩ ∧
      sessionAcceptance 15 ≠ driverAcceptance 15 (n2n mainnetNetworkMagic) ∧
      sessionTo 99 = ⟨[], none⟩ ∧ driverTo 99 = ⟨refusal, none⟩ ∧ refusal ≠ [] := by
  refine ⟨by decide +kernel, by decide +kernel, acceptances_differ _ _, by decide +kernel,
    by decide +kernel, refusal_ne_nil⟩

end Ade.Proof.Network
