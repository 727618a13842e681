import Ade.Network.Session
import Ade.Proof.Network.Handshake

/-! What a session does with the bytes of its socket does not depend on how they come in, as long as
nothing stands behind the frame that ends the handshake. -/

namespace Ade.Proof.Network
open Library Progress Consumer Ade.Codec Ade.Network

/-! ## Frames -/

theorem decodeFrame_of_append {bytes more rest : Bytes} {frame : MuxFrame}
    (ok : decodeFrame (bytes ++ more) = .ok (frame, rest)) (behind : more.length ≤ rest.length) :
    ∃ rest', decodeFrame bytes = .ok (frame, rest') ∧ rest = rest' ++ more := by
  obtain ⟨enough, whole, rfl, rfl⟩ := decodeFrame_ok ok
  rw [List.length_drop, List.length_append] at behind
  rw [List.length_append] at enough whole
  have short : headerLen ≤ bytes.length := by omega
  have same := decodeHeader_append short more
  rw [same] at whole behind ⊢
  have inside : headerLen + (decodeHeader bytes).length.toNat ≤ bytes.length := by omega
  rw [decodeFrame_eq short inside, List.drop_append_of_le_length short,
    List.drop_append_of_le_length inside, List.take_append_of_le_length (by rw [List.length_drop]; omega)]
  exact ⟨_, rfl, rfl⟩

theorem pullOneFrame_ok {buffer rest : Bytes} {frame : MuxFrame}
    (ok : decodeFrame buffer = .ok (frame, rest)) : pullOneFrame buffer = .ok (some (frame, rest)) := by
  obtain ⟨enough, whole, rfl, rfl⟩ := decodeFrame_ok ok
  have sized : ((buffer.drop headerLen).take (decodeHeader buffer).length.toNat).length =
      (decodeHeader buffer).length.toNat := by
    rw [List.length_take, List.length_drop]
    omega
  rw [pullOneFrame, if_neg (Nat.not_lt.mpr enough), ok]
  dsimp only
  rw [sized]

theorem pullOneFrame_none {buffer : Bytes} (incomplete : ∀ read, decodeFrame buffer ≠ .ok read) :
    pullOneFrame buffer = .ok none := by
  unfold pullOneFrame
  split_ifs with short
  · rfl
  · cases decoded : decodeFrame buffer with
    | ok read => exact absurd decoded (incomplete read)
    | error failure =>
        have truncated : ∃ needed got, failure = .truncated needed got := by
          unfold decodeFrame at decoded
          dsimp only at decoded
          split_ifs at decoded
          all_goals
            cases decoded
            exact ⟨_, _, rfl⟩
        obtain ⟨needed, got, rfl⟩ := truncated
        rfl

/-- A frame is complete or not, and no buffer is refused. -/
theorem pullOneFrame_cases (buffer : Bytes) :
    (pullOneFrame buffer = .ok none ∧ ∀ read, decodeFrame buffer ≠ .ok read) ∨
      ∃ frame rest, decodeFrame buffer = .ok (frame, rest) ∧
        pullOneFrame buffer = .ok (some (frame, rest)) := by
  by_cases complete : ∃ read, decodeFrame buffer = .ok read
  · obtain ⟨⟨frame, rest⟩, decoded⟩ := complete
    exact .inr ⟨frame, rest, decoded, pullOneFrame_ok decoded⟩
  · have incomplete := not_exists.mp complete
    exact .inl ⟨pullOneFrame_none incomplete, incomplete⟩

/-! ## Once connected -/

def appendInbound (connected : ConnectedState) (chunk : Bytes) : ConnectedState :=
  { connected with buffer := connected.buffer ++ chunk }

theorem connectedFrameReceived_append (connected : ConnectedState) (frame : MuxFrame) (rest chunk : Bytes) :
    connectedFrameReceived { connected with buffer := rest ++ chunk } frame =
      (connectedFrameReceived { connected with buffer := rest } frame).map fun last =>
        (appendInbound last.1 chunk, last.2) := by
  unfold connectedFrameReceived
  split
  · rfl
  · rfl
  · rename_i protocol _ _
    unfold payloadReceived
    dsimp only
    rcases drainProtocolItems protocol (connected.protoBuffers protocol ++ frame.payload) with
      failure | ⟨tail, effects⟩
    · rfl
    · by_cases large : tail.length > maxReassemblyTailBytes
      · simp [large, bind, Except.bind, Except.map, throw, throwThe, MonadExceptOf.throw]
      · simp [large, bind, Except.bind, Except.map, pure, Except.pure, appendInbound]

theorem connectedFrames_stable : Stable connectedFrames appendInbound where
  append_append connected first second := by
    simp [appendInbound]
  act_append := by
    intro connected result chunk acted
    change connectedAct connected = some result at acted
    show connectedAct (appendInbound connected chunk) = _
    unfold connectedAct at acted ⊢
    rcases pullOneFrame_cases connected.buffer with ⟨pulled, -⟩ | ⟨frame, rest, decoded, pulled⟩
    · rw [pulled] at acted
      cases acted
    · rw [pulled] at acted
      cases acted
      have later := pullOneFrame_ok (decodeFrame_append decoded chunk)
      rw [show (appendInbound connected chunk).buffer = connected.buffer ++ chunk from rfl, later]
      exact congrArg some (connectedFrameReceived_append connected frame rest chunk)

/-- One call for one chunk. -/
def inbound (state : SessionState) (chunk : Bytes) : Except SessionError Stepped :=
  step state (.inbound chunk)

def connectedInbound (connected : ConnectedState) (chunk : Bytes) :
    Except SessionError (ConnectedState × List SessionEffect) :=
  drainConnectedFrames (appendInbound connected chunk)

def asSession (reduced : Except SessionError (ConnectedState × List SessionEffect)) :
    Except SessionError Stepped :=
  reduced.map fun last => (.connected last.1, last.2)

theorem inbound_connected (connected : ConnectedState) (chunk : Bytes) :
    inbound (.connected connected) chunk = asSession (connectedInbound connected chunk) := rfl

theorem feedAll_connected (connected : ConnectedState) (chunks : List Bytes) :
    feedAll inbound (.connected connected) chunks = asSession (feedAll connectedInbound connected chunks) := by
  induction chunks generalizing connected with
  | nil => rfl
  | cons chunk chunks ih =>
      rw [feedAll, feedAll, inbound_connected]
      rcases connectedInbound connected chunk with failure | ⟨middle, produced⟩
      · rfl
      · simp only [asSession, followedBy, Except.map]
        rw [ih]
        rcases feedAll connectedInbound middle chunks with failure | ⟨last, produced'⟩ <;> rfl

theorem feedAll_connected_flatten (connected : ConnectedState) {chunks : List Bytes}
    (some_ : chunks ≠ []) :
    feedAll inbound (.connected connected) chunks = inbound (.connected connected) chunks.flatten := by
  have flat : feedAll connectedInbound connected chunks = connectedInbound connected chunks.flatten :=
    feedAll_flatten (feed_divisible connectedFrames_stable) connected some_
  rw [feedAll_connected, inbound_connected, flat]

/-! ## The end of the handshake -/

/-- The frame ends the handshake, whatever the buffer holds behind it. -/
def Selects (progress : HandshakeProgress) (frame : MuxFrame) (version : UInt16) (params : VersionData) :
    Prop :=
  ∃ inner, handshakeTransition progress frame = .ok (inner, .selected version params)

theorem encodeInnerFrame_ok (protocol : AcceptedMiniProtocol) {payload : Bytes} (mode : MuxMode)
    (timestamp : UInt32) (fits : payload.length ≤ maxPayload) :
    ∃ bytes, encodeInnerFrame protocol payload mode timestamp = .ok bytes := by
  have sized : (UInt16.ofNat payload.length).toNat = payload.length := by
    unfold maxPayload at fits
    simpa using Nat.mod_eq_of_lt (Nat.lt_succ_of_le fits)
  unfold encodeInnerFrame
  rw [if_neg (Nat.not_lt.mpr fits)]
  dsimp only
  rw [encodeFrame_eq _ sized]
  exact ⟨_, rfl⟩

theorem handshakeSelected_ok (role : HandshakeRole) (version : UInt16) (params : VersionData) :
    ∃ effects, handshakeSelected role version params = .ok (.connected (.new version params), effects) := by
  cases role with
  | initiator => exact ⟨_, rfl⟩
  | responder =>
      have fits : (encodeHandshakeMessage (.acceptVersion version [0x01])).length ≤ maxPayload := by
        have header := length_encodeArrayHeader 3
        have tag := length_encodeU64 1
        have number := length_encodeU64 version.toUInt64
        simp only [encodeHandshakeMessage, List.length_append, List.length_singleton, maxPayload]
        omega
      obtain ⟨bytes, encoded⟩ := encodeInnerFrame_ok .handshake .responder 0 fits
      dsimp only [handshakeSelected]
      rw [encoded]
      exact ⟨_, rfl⟩

theorem n2nTransition_output {state next : HandshakeState} {agency : HandshakeAgency}
    {supported : List (UInt16 × VersionData)} {message : HandshakeMessage} {output : N2nHandshakeOutput}
    (transition : n2nTransition state agency supported message = .ok (next, output)) :
    (∃ version params, output = .selected version params) ∨ ∃ reason, output = .refused reason := by
  unfold n2nTransition at transition
  split at transition
  · split_ifs at transition
    split at transition
    · cases transition
      exact .inl ⟨_, _, rfl⟩
    · cases transition
  · split at transition
    · cases transition
      exact .inl ⟨_, _, rfl⟩
    · cases transition
  · cases transition
    exact .inr ⟨_, rfl⟩
  · cases transition
    exact .inr ⟨_, rfl⟩
  · cases transition

theorem Selects.received {progress : HandshakeProgress} {frame : MuxFrame} {version : UInt16}
    {params : VersionData} (selects : Selects progress frame version params) :
    ∃ effects, ∀ rest, handshakeFrameReceived progress frame rest =
      .ok (.connected (.new version params), effects) := by
  obtain ⟨inner, transition⟩ := selects
  obtain ⟨effects, selected⟩ := handshakeSelected_ok progress.role version params
  refine ⟨effects, fun rest => ?_⟩
  rw [handshakeFrameReceived, transition]
  exact selected

/-- The first frame ends the handshake or the session. -/
theorem handshakeFrameReceived_cases (progress : HandshakeProgress) (frame : MuxFrame) :
    (∃ failure, ∀ rest, handshakeFrameReceived progress frame rest = .error failure) ∨
      ∃ version params effects, Selects progress frame version params ∧
        ∀ rest, handshakeFrameReceived progress frame rest =
          .ok (.connected (.new version params), effects) := by
  cases transition : handshakeTransition progress frame with
  | error failure =>
      refine .inl ⟨failure, fun rest => ?_⟩
      rw [handshakeFrameReceived, transition]
      rfl
  | ok reached =>
      obtain ⟨inner, output⟩ := reached
      obtain ⟨message, -, moved⟩ := bind_ok transition
      rcases n2nTransition_output (mapError_ok moved) with ⟨version, params, rfl⟩ | ⟨reason, rfl⟩
      · have selects : Selects progress frame version params := ⟨inner, transition⟩
        obtain ⟨effects, received⟩ := selects.received
        exact .inr ⟨version, params, effects, selects, received⟩
      · refine .inl ⟨.handshake (.malformedMessage "handshake refused"), fun rest => ?_⟩
        rw [handshakeFrameReceived, transition]
        rfl

def awaiting (progress : HandshakeProgress) (chunk : Bytes) : HandshakeProgress :=
  { progress with buffer := progress.buffer ++ chunk }

theorem inbound_incomplete {progress : HandshakeProgress} {chunk : Bytes}
    (incomplete : ∀ read, decodeFrame (progress.buffer ++ chunk) ≠ .ok read) :
    inbound (.handshaking progress) chunk = still (.handshaking (awaiting progress chunk)) := by
  have idle : handshakeFrames.act (.handshaking (awaiting progress chunk)) = none := by
    show handshakeAct (.handshaking (awaiting progress chunk)) = none
    unfold handshakeAct awaiting
    dsimp only
    rw [pullOneFrame_none incomplete]
  exact drain_idle idle

theorem inbound_complete {progress : HandshakeProgress} {chunk rest : Bytes} {frame : MuxFrame}
    (complete : decodeFrame (progress.buffer ++ chunk) = .ok (frame, rest)) :
    inbound (.handshaking progress) chunk = handshakeFrameReceived progress frame rest := by
  have acted : handshakeFrames.act (.handshaking (awaiting progress chunk)) =
      some (handshakeFrameReceived progress frame rest) := by
    show handshakeAct (.handshaking (awaiting progress chunk)) = _
    unfold handshakeAct
    dsimp only
    rw [show (awaiting progress chunk).buffer = progress.buffer ++ chunk from rfl, pullOneFrame_ok complete]
    rfl
  have drained := drain_act acted
  rcases handshakeFrameReceived_cases progress frame with ⟨failure, received⟩ |
    ⟨version, params, effects, -, received⟩
  · rw [received] at drained ⊢
    exact drained
  · rw [received] at drained ⊢
    have idle : handshakeFrames.drain (.connected (.new version params)) =
      still (.connected (.new version params)) := drain_idle rfl
    simp only [Progress.followedBy, idle, still, Except.map, List.append_nil] at drained
    exact drained

theorem inbound_connected_short {connected : ConnectedState} {chunk : Bytes}
    (short : (connected.buffer ++ chunk).length < headerLen) :
    inbound (.connected connected) chunk = still (.connected (appendInbound connected chunk)) := by
  have idle : connectedFrames.act (appendInbound connected chunk) = none := by
    show connectedAct (appendInbound connected chunk) = none
    unfold connectedAct appendInbound
    dsimp only
    rw [pullOneFrame, if_pos short]
  have drained : connectedInbound connected chunk = still (appendInbound connected chunk) :=
    drain_idle idle
  rw [inbound_connected, drained]
  rfl

/-! ## Chunks -/

/-- All ways to cut the bytes into chunks that succeed do the same. -/
def ChunkIndependent (state : SessionState) (bytes : Bytes) : Prop :=
  ∀ chunks chunks' : List Bytes, chunks ≠ [] → chunks' ≠ [] → chunks.flatten = bytes →
    chunks'.flatten = bytes → ∀ reached, feedAll inbound state chunks = .ok reached →
      feedAll inbound state chunks' = .ok reached

/-- No byte stands behind the frame that ends the handshake, or no byte comes in at all. -/
def NothingBehind (bytes : Bytes) : SessionState → Prop
  | .connected _ => True
  | .handshaking progress => ∀ frame rest version params,
      decodeFrame (progress.buffer ++ bytes) = .ok (frame, rest) →
        Selects progress frame version params → rest = [] ∨ bytes = []

theorem feedAll_flatten_nil (version : UInt16) (params : VersionData) {chunks : List Bytes}
    (empty : chunks.flatten = []) :
    feedAll inbound (.connected (.new version params)) chunks =
      still (.connected (.new version params)) := by
  cases chunks with
  | nil => rfl
  | cons chunk chunks =>
      rw [feedAll_connected_flatten _ (List.cons_ne_nil _ _), empty]
      exact inbound_connected_short (Nat.zero_lt_succ 7)

theorem feedAll_handshaking (progress : HandshakeProgress) {chunks : List Bytes} (some_ : chunks ≠ [])
    (nothing : NothingBehind chunks.flatten (.handshaking progress)) :
    feedAll inbound (.handshaking progress) chunks =
      inbound (.handshaking progress) chunks.flatten := by
  induction chunks generalizing progress with
  | nil => exact absurd rfl some_
  | cons chunk chunks ih =>
      by_cases last : chunks = []
      · subst last
        simp only [feedAll, followedBy_still, List.flatten_cons, List.flatten_nil, List.append_nil]
      rw [List.flatten_cons] at nothing ⊢
      rw [feedAll]
      rcases pullOneFrame_cases (progress.buffer ++ chunk) with ⟨-, incomplete⟩ |
        ⟨frame, rest, decoded, -⟩
      · have later := ih (awaiting progress chunk) last (by
          intro frame rest version params decoded selects
          rw [awaiting, List.append_assoc] at decoded
          exact (nothing frame rest version params decoded selects).imp_right fun empty =>
            (List.append_eq_nil_iff.mp empty).2)
        rw [inbound_incomplete incomplete, still_followedBy, later]
        show inbound (.handshaking (awaiting progress chunk)) chunks.flatten = _
        simp only [inbound, step, handleInbound, awaiting, List.append_assoc]
      · have complete := decodeFrame_append decoded chunks.flatten
        rw [List.append_assoc] at complete
        rw [inbound_complete decoded, inbound_complete complete]
        rcases handshakeFrameReceived_cases progress frame with ⟨failure, received⟩ |
          ⟨version, params, effects, selects, received⟩
        · rw [received, received, followedBy_error]
        · have empty : chunks.flatten = [] := by
            rcases nothing frame _ version params complete selects with empty | empty
            · exact (List.append_eq_nil_iff.mp empty).2
            · exact (List.append_eq_nil_iff.mp empty).2
          have idle := feedAll_flatten_nil version params empty
          rw [received, received]
          simp only [Progress.followedBy, idle, still, Except.map, List.append_nil]

/-- What stands behind the frame is lost, unless it comes in a chunk of its own. -/
theorem chunks_differ {progress : HandshakeProgress} {bytes rest : Bytes} {frame : MuxFrame}
    {version : UInt16} {params : VersionData}
    (decoded : decodeFrame (progress.buffer ++ bytes) = .ok (frame, rest))
    (selects : Selects progress frame version params) (behind : rest ≠ []) (incoming : bytes ≠ []) :
    ¬ ChunkIndependent (.handshaking progress) bytes := by
  obtain ⟨front, last, rfl⟩ := (List.eq_nil_or_concat bytes).resolve_left incoming
  rw [List.concat_eq_append] at decoded ⊢
  rw [← List.append_assoc] at decoded
  obtain ⟨rest', decoded', -⟩ := decodeFrame_of_append decoded (List.length_pos_of_ne_nil behind)
  rw [List.append_assoc] at decoded
  obtain ⟨effects, received⟩ := selects.received
  have short : ((ConnectedState.new version params).buffer ++ [last]).length < headerLen :=
    Nat.succ_lt_succ (Nat.zero_lt_succ 6)
  have once : feedAll inbound (.handshaking progress) [front ++ [last]] =
      .ok (.connected (.new version params), effects) := by
    simp only [feedAll, inbound_complete decoded, received]
    exact followedBy_still _
  intro independent
  have twice := independent [front ++ [last]] [front, [last]] (List.cons_ne_nil _ _)
    (List.cons_ne_nil _ _) (by simp) (by simp) _ once
  simp only [feedAll, inbound_complete decoded', received, followedBy,
    inbound_connected_short short, still, Except.map, Except.ok.injEq, Prod.mk.injEq,
    SessionState.connected.injEq] at twice
  cases congrArg ConnectedState.buffer twice.1

theorem chunkIndependent_iff (state : SessionState) (bytes : Bytes) :
    ChunkIndependent state bytes ↔ NothingBehind bytes state := by
  cases state with
  | connected connected =>
      refine ⟨fun _ => trivial, fun _ chunks chunks' some_ some_' same same' reached => ?_⟩
      rw [feedAll_connected_flatten connected some_, feedAll_connected_flatten connected some_', same, same']
      exact id
  | handshaking progress =>
      constructor
      · intro independent frame rest version params decoded selects
        by_contra behind
        obtain ⟨behind, incoming⟩ := not_or.mp behind
        exact chunks_differ decoded selects behind incoming independent
      · intro nothing chunks chunks' some_ some_' same same' reached
        rw [feedAll_handshaking progress some_ (same ▸ nothing),
          feedAll_handshaking progress some_' (same' ▸ nothing), same, same']
        exact id

def proposalPayload : Bytes :=
  encodeHandshakeMessage (.proposeVersions (proposalOf mainnetNetworkMagic [15]))

/-- A byte of the next frame comes in with the proposal. -/
theorem pipelined_byte_is_lost :
    ¬ ChunkIndependent .newResponder (handshakeFrame proposalPayload .initiator ++ [0]) := by
  have few : ([15] : List UInt16).length ≤ 6 := by decide
  let frame : MuxFrame := ⟨handshakeHeader proposalPayload .initiator, proposalPayload⟩
  have sized : frame.header.length.toNat = frame.payload.length :=
    handshakeHeader_length (proposal_fits few mainnetNetworkMagic) .initiator
  have message : decodeHandshakeMessage proposalPayload =
      .ok (.proposeVersions (proposalOf mainnetNetworkMagic [15])) :=
    decodeHandshakeMessage_encode (writable_proposal few)
  have selects : Selects ⟨.responder, .idle, [], false⟩ frame 15 (n2n mainnetNetworkMagic) := by
    refine ⟨.done, ?_⟩
    unfold handshakeTransition handshakeMessageOf
    rw [show frame.payload = proposalPayload from rfl, message]
    rfl
  exact chunks_differ (decodeFrame_encode frame sized [0]) selects (List.cons_ne_nil _ _) (by simp)

end Ade.Proof.Network
