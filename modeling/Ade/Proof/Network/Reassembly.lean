import Ade.Proof.Codec.Prefix
import Ade.Proof.Network.Session

/-! Payloads that are cut into frames, mixed with those of other protocols and cut into chunks are put
together again. -/

namespace Ade.Proof.Network
open Library Progress Consumer Ade.Codec Ade.Network Proof.Codec

/-! ## Items out of a buffer -/

theorem itemAct_item (protocol : AcceptedMiniProtocol) {item : Bytes} (whole : IsItem item) (rest : Bytes) :
    itemAct protocol (item ++ rest) = some (.ok (rest, [.deliverPeerFrame protocol item])) := by
  have nonempty : item ++ rest ≠ [] := fun empty => whole.ne_nil (List.append_eq_nil_iff.mp empty).1
  rw [itemAct, if_neg nonempty, skipItem_of_isItem whole]
  simp

theorem itemAct_prefix (protocol : AcceptedMiniProtocol) {buffer missing : Bytes}
    (whole : IsItem (buffer ++ missing)) (cut : missing ≠ []) : itemAct protocol buffer = none := by
  unfold itemAct
  split_ifs
  · rfl
  · obtain ⟨_, after, skipped, offset, needed, rfl⟩ := skipItem_prefix whole cut
    rw [skipped]

/-- The buffer and what is still to come make up the items, and none of them is complete. -/
structure Pending (buffer future : Bytes) (items : List Bytes) : Prop where
  split : buffer ++ future = items.flatten
  incomplete : ∀ item ∈ items.head?, buffer.length < item.length

/-- Complete items are delivered, the rest stays in the buffer. -/
theorem drainProtocolItems_pending (protocol : AcceptedMiniProtocol) {buffer future : Bytes}
    {items : List Bytes} (whole : ∀ item ∈ items, IsItem item)
    (split : buffer ++ future = items.flatten) :
    ∃ tail delivered remaining, items = delivered ++ remaining ∧
      drainProtocolItems protocol buffer =
        .ok (tail, delivered.map (SessionEffect.deliverPeerFrame protocol)) ∧
      Pending tail future remaining := by
  induction items generalizing buffer with
  | nil =>
      obtain ⟨rfl, rfl⟩ := List.append_eq_nil_iff.mp split
      exact ⟨[], [], [], rfl, drain_idle rfl, rfl, by simp⟩
  | cons item items ih =>
      rw [List.flatten_cons] at split
      have head := whole item (List.mem_cons_self ..)
      have complete : ∀ rest, buffer = item ++ rest → rest ++ future = items.flatten →
          ∃ tail delivered remaining, item :: items = delivered ++ remaining ∧
            drainProtocolItems protocol buffer =
              .ok (tail, delivered.map (SessionEffect.deliverPeerFrame protocol)) ∧
            Pending tail future remaining := by
        rintro rest rfl later
        obtain ⟨tail, delivered, remaining, rfl, drained, pending⟩ :=
          ih (fun other member => whole other (List.mem_cons_of_mem _ member)) later
        have acted : drainProtocolItems protocol (item ++ rest) = _ :=
          drain_act (itemAct_item protocol head rest)
        change (protocolItems protocol).drain rest = _ at drained
        refine ⟨tail, item :: delivered, remaining, rfl, ?_, pending⟩
        rw [acted]
        simp only [Progress.followedBy, drained, Except.map]
        rfl
      rcases List.append_eq_append_iff.mp split with ⟨missing, rfl, rfl⟩ | ⟨rest, inside, later⟩
      · by_cases cut : missing = []
        · subst cut
          exact complete [] (by simp) rfl
        · have idle : (protocolItems protocol).act buffer = none := itemAct_prefix protocol head cut
          refine ⟨buffer, [], _, rfl, drain_idle idle, ?_, ?_⟩
          · rw [List.flatten_cons, List.append_assoc]
          · have missed := List.length_pos_of_ne_nil cut
            intro item first
            cases first
            rw [List.length_append]
            omega
      · exact complete rest inside later.symm

/-! ## Frames one after the other -/

/-- A frame of the protocol as it stands on the wire. -/
structure IsFrameOf (protocol : AcceptedMiniProtocol) (bytes : Bytes) : Prop where
  encoded : ∃ frame : MuxFrame, frame.header.length.toNat = frame.payload.length ∧
    frame.header.miniProtocolId.get = protocol.id ∧ bytes = encodeHeader frame.header ++ frame.payload
  accepted : protocol ≠ .handshake

def payloadOf (bytes : Bytes) : Bytes := bytes.drop headerLen

theorem fromId_id (protocol : AcceptedMiniProtocol) :
    AcceptedMiniProtocol.fromId protocol.id = some protocol := by
  cases protocol <;> rfl

theorem connectedAct_frame {protocol : AcceptedMiniProtocol} {bytes rest : Bytes}
    (frame : IsFrameOf protocol bytes) {connected : ConnectedState}
    (buffered : connected.buffer = bytes ++ rest) :
    connectedAct connected =
      some (payloadReceived { connected with buffer := rest } protocol (payloadOf bytes)) := by
  obtain ⟨⟨frame, sized, named, rfl⟩, accepted⟩ := frame
  have payload : payloadOf (encodeHeader frame.header ++ frame.payload) = frame.payload :=
    List.drop_left' (length_encodeHeader frame.header)
  rw [connectedAct, buffered, pullOneFrame_ok (decodeFrame_encode frame sized rest), payload]
  dsimp only
  rw [connectedFrameReceived, named, fromId_id]
  cases protocol with
  | handshake => exact absurd rfl accepted
  | _ => rfl

theorem payloadReceived_pending {connected : ConnectedState} {protocol : AcceptedMiniProtocol}
    {payload future : Bytes} {items : List Bytes} (whole : ∀ item ∈ items, IsItem item)
    (small : ∀ item ∈ items, item.length ≤ maxReassemblyTailBytes)
    (pending : Pending (connected.protoBuffers protocol) (payload ++ future) items) :
    ∃ tail delivered remaining, items = delivered ++ remaining ∧
      payloadReceived connected protocol payload =
        .ok ({ connected with protoBuffers := Function.update connected.protoBuffers protocol tail },
          delivered.map (SessionEffect.deliverPeerFrame protocol)) ∧
      Pending tail future remaining := by
  have split := pending.split
  rw [← List.append_assoc] at split
  obtain ⟨tail, delivered, remaining, rfl, drained, later⟩ :=
    drainProtocolItems_pending protocol whole split
  have short : ¬ tail.length > maxReassemblyTailBytes := by
    cases remaining with
    | nil =>
        have empty := later.split
        rw [List.flatten_nil, List.append_eq_nil_iff] at empty
        rw [empty.1]
        exact Nat.not_lt_zero _
    | cons item remaining =>
        have incomplete := later.incomplete item rfl
        have most := small item (by simp)
        omega
  refine ⟨tail, delivered, remaining, rfl, ?_, later⟩
  rw [payloadReceived, drained]
  simp [short, bind, Except.bind, pure, Except.pure]

/-! ## Mixed frames -/

/-- What belongs to the protocol, in order. -/
def ofProtocol {α : Type} (protocol : AcceptedMiniProtocol) (mixed : List (AcceptedMiniProtocol × α)) :
    List α :=
  mixed.filterMap fun entry => if entry.1 = protocol then some entry.2 else none

def deliveredTo (protocol : AcceptedMiniProtocol) (effects : List SessionEffect) : List Bytes :=
  effects.filterMap fun
    | .deliverPeerFrame receiver payload => if receiver = protocol then some payload else none
    | _ => none

theorem ofProtocol_cons_same {α : Type} (protocol : AcceptedMiniProtocol) (first : α)
    (mixed : List (AcceptedMiniProtocol × α)) :
    ofProtocol protocol ((protocol, first) :: mixed) = first :: ofProtocol protocol mixed := by
  simp [ofProtocol]

theorem ofProtocol_cons_other {α : Type} {protocol other : AcceptedMiniProtocol} (differs : other ≠ protocol)
    (first : α) (mixed : List (AcceptedMiniProtocol × α)) :
    ofProtocol protocol ((other, first) :: mixed) = ofProtocol protocol mixed := by
  simp [ofProtocol, differs]

theorem deliveredTo_append (protocol : AcceptedMiniProtocol) (earlier later : List SessionEffect) :
    deliveredTo protocol (earlier ++ later) = deliveredTo protocol earlier ++ deliveredTo protocol later :=
  List.filterMap_append ..

theorem deliveredTo_same (protocol : AcceptedMiniProtocol) (payloads : List Bytes) :
    deliveredTo protocol (payloads.map (SessionEffect.deliverPeerFrame protocol)) = payloads := by
  simp [deliveredTo, List.filterMap_map]

theorem deliveredTo_other {protocol other : AcceptedMiniProtocol} (differs : other ≠ protocol)
    (payloads : List Bytes) :
    deliveredTo protocol (payloads.map (SessionEffect.deliverPeerFrame other)) = [] := by
  simp [deliveredTo, List.filterMap_map, differs]

/-- Every protocol has its own stream of items. -/
structure Streams (connected : ConnectedState) (wire : List (AcceptedMiniProtocol × Bytes))
    (items : AcceptedMiniProtocol → List Bytes) : Prop where
  frames : ∀ frame ∈ wire, IsFrameOf frame.1 frame.2
  buffered : connected.buffer = (wire.map Prod.snd).flatten
  whole : ∀ protocol, ∀ item ∈ items protocol, IsItem item
  small : ∀ protocol, ∀ item ∈ items protocol, item.length ≤ maxReassemblyTailBytes
  pending : ∀ protocol, Pending (connected.protoBuffers protocol)
    ((ofProtocol protocol wire).map payloadOf).flatten (items protocol)

theorem Streams.step {connected : ConnectedState} {protocol : AcceptedMiniProtocol} {bytes : Bytes}
    {wire : List (AcceptedMiniProtocol × Bytes)} {items : AcceptedMiniProtocol → List Bytes}
    (streams : Streams connected ((protocol, bytes) :: wire) items) :
    ∃ next delivered remaining, items protocol = delivered ++ remaining ∧
      connectedAct connected =
        some (.ok (next, delivered.map (SessionEffect.deliverPeerFrame protocol))) ∧
      Streams next wire (Function.update items protocol remaining) := by
  have buffered := streams.buffered
  rw [List.map_cons, List.flatten_cons] at buffered
  have frame := streams.frames _ (List.mem_cons_self ..)
  have stream := streams.pending protocol
  rw [ofProtocol_cons_same, List.map_cons, List.flatten_cons] at stream
  let emptied := { connected with buffer := (wire.map Prod.snd).flatten }
  obtain ⟨tail, delivered, remaining, split, received, later⟩ :=
    @payloadReceived_pending emptied protocol _ _ _ (streams.whole protocol) (streams.small protocol) stream
  have kept : ∀ item ∈ remaining, item ∈ items protocol := by
    intro item member
    rw [split]
    exact List.mem_append_right _ member
  refine ⟨{ emptied with protoBuffers := Function.update emptied.protoBuffers protocol tail },
    delivered, remaining, split, ?_, ?_⟩
  · rw [connectedAct_frame frame buffered, received]
  · constructor
    · exact fun frame member => streams.frames frame (List.mem_cons_of_mem _ member)
    · rfl
    · intro other item member
      by_cases same : other = protocol
      · subst same
        rw [Function.update_self] at member
        exact streams.whole other item (kept item member)
      · rw [Function.update_of_ne same] at member
        exact streams.whole other item member
    · intro other item member
      by_cases same : other = protocol
      · subst same
        rw [Function.update_self] at member
        exact streams.small other item (kept item member)
      · rw [Function.update_of_ne same] at member
        exact streams.small other item member
    · intro other
      by_cases same : other = protocol
      · subst same
        dsimp only
        rw [Function.update_self, Function.update_self]
        exact later
      · have untouched := streams.pending other
        rw [ofProtocol_cons_other (Ne.symm same)] at untouched
        dsimp only
        rw [Function.update_of_ne same, Function.update_of_ne same]
        exact untouched

/-- No frame is refused, and every protocol gets its items. -/
theorem Streams.run {connected : ConnectedState} {wire : List (AcceptedMiniProtocol × Bytes)}
    {items : AcceptedMiniProtocol → List Bytes} (streams : Streams connected wire items) :
    ∃ final effects, drainConnectedFrames connected = .ok (final, effects) ∧
      (∀ protocol, deliveredTo protocol effects = items protocol) ∧
      (∀ protocol, final.protoBuffers protocol = []) ∧ final.buffer = [] := by
  induction wire generalizing connected items with
  | nil =>
      have idle : connectedFrames.act connected = none := by
        show connectedAct connected = none
        rw [connectedAct, streams.buffered]
        rfl
      have nothing : ∀ protocol, items protocol = [] ∧ connected.protoBuffers protocol = [] := by
        intro protocol
        have pending := streams.pending protocol
        have split := pending.split
        rw [show (ofProtocol protocol ([] : List (AcceptedMiniProtocol × Bytes))) = [] from rfl,
          List.map_nil, List.flatten_nil, List.append_nil] at split
        cases remaining : items protocol with
        | nil =>
            rw [remaining] at split
            exact ⟨rfl, split⟩
        | cons item rest =>
            have incomplete := pending.incomplete item (by rw [remaining]; rfl)
            rw [remaining, List.flatten_cons] at split
            rw [split, List.length_append] at incomplete
            omega
      exact ⟨connected, [], drain_idle idle, fun protocol => (nothing protocol).1.symm,
        fun protocol => (nothing protocol).2, streams.buffered⟩
  | cons frame wire ih =>
      obtain ⟨protocol, bytes⟩ := frame
      obtain ⟨next, delivered, remaining, split, acted, rest⟩ := streams.step
      obtain ⟨final, effects, drained, reached, empty⟩ := ih rest
      have stepped : connectedFrames.drain connected = _ := drain_act acted
      change connectedFrames.drain next = _ at drained
      refine ⟨final, delivered.map (SessionEffect.deliverPeerFrame protocol) ++ effects, ?_, ?_, empty⟩
      · show connectedFrames.drain connected = _
        rw [stepped]
        simp only [Progress.followedBy, drained, Except.map]
      · intro other
        rw [deliveredTo_append, reached]
        by_cases same : other = protocol
        · subst same
          rw [deliveredTo_same, Function.update_self, split]
        · rw [deliveredTo_other (Ne.symm same), Function.update_of_ne same, List.nil_append]

/-! ## Segments -/

theorem forall_mem_push {α : Type} {holds : α → Prop} {done : Array α} {last : α}
    (all : ∀ item ∈ done.toList, holds item) (holdsLast : holds last) :
    ∀ item ∈ (done.push last).toList, holds item := by
  intro item member
  rw [Array.toList_push] at member
  rcases List.mem_append.mp member with earlier | new
  · exact all item earlier
  · rw [List.mem_singleton.mp new]
    exact holdsLast

/-- The loop that cuts a list: `current` is the chunk it is filling. -/
theorem toChunks_go_spec {α : Type} {count : Nat} (positive : 0 < count) (items : List α)
    (current : Array α) (done : Array (List α)) (short : current.size ≤ count)
    (shorts : ∀ chunk ∈ done.toList, chunk.length ≤ count) :
    (List.toChunks.go count items current done).flatten =
        done.toList.flatten ++ (current.toList ++ items) ∧
      ∀ chunk ∈ List.toChunks.go count items current done, chunk.length ≤ count := by
  induction items generalizing current done with
  | nil =>
      rw [List.toChunks.go]
      exact ⟨by simp, forall_mem_push shorts short⟩
  | cons item items ih =>
      rw [List.toChunks.go]
      by_cases full : current.size = count
      · rw [if_pos (beq_iff_eq.mpr full)]
        simpa using ih #[item] (done.push current.toList) positive (forall_mem_push shorts short)
      · rw [if_neg (by simpa using full)]
        have room : (current.push item).size ≤ count := by
          rw [Array.size_push]
          omega
        simpa using ih (current.push item) done room shorts

theorem toChunks_spec {α : Type} {count : Nat} (positive : 0 < count) (items : List α) :
    (items.toChunks count).flatten = items ∧
      ∀ chunk ∈ items.toChunks count, chunk.length ≤ count := by
  cases items with
  | nil => simp [List.toChunks]
  | cons item items =>
      obtain ⟨count, rfl⟩ := Nat.exists_eq_succ_of_ne_zero (Nat.ne_of_gt positive)
      have spec := toChunks_go_spec positive items #[item] #[] (by simp) (by simp)
      rw [List.toChunks]
      · simpa using spec
      · exact Nat.succ_ne_zero count

theorem segments_flatten (payload : Bytes) : (segments payload).flatten = payload := by
  unfold segments
  split_ifs with empty
  · rw [empty]
    rfl
  · exact (toChunks_spec (Nat.zero_lt_succ 65534) payload).1

theorem segments_fit {payload segment : Bytes} (member : segment ∈ segments payload) :
    segment.length ≤ maxPayload := by
  unfold segments at member
  split_ifs at member
  · rw [List.mem_singleton.mp member]
    exact Nat.zero_le _
  · exact (toChunks_spec (Nat.zero_lt_succ 65534) payload).2 segment member

/-! ## Sends -/

structure Send where
  miniProtocol : AcceptedMiniProtocol
  payload : Bytes
  mode : MuxMode
  timestamp : UInt32

def Send.frames (send : Send) : Except SessionError (List Bytes) :=
  outboundFrames send.miniProtocol send.payload send.mode send.timestamp

def segmentFrame (send : Send) (segment : Bytes) : Bytes :=
  encodeHeader { timestamp := send.timestamp, mode := send.mode, miniProtocolId :=
    ⟨send.miniProtocol.id, send.miniProtocol.small⟩, length := UInt16.ofNat segment.length } ++ segment

theorem segmentFrame_sized {segment : Bytes} (fits : segment.length ≤ maxPayload) :
    (UInt16.ofNat segment.length).toNat = segment.length := by
  unfold maxPayload at fits
  simpa using Nat.mod_eq_of_lt (Nat.lt_succ_of_le fits)

theorem frames_eq (send : Send) :
    send.frames = .ok ((segments send.payload).map (segmentFrame send)) := by
  apply mapM_ok
  intro segment member
  have fits := segments_fit member
  unfold encodeInnerFrame
  rw [if_neg (Nat.not_lt.mpr fits)]
  dsimp only
  rw [encodeFrame_eq _ (segmentFrame_sized fits)]
  rfl

/-- A connected session writes the frames of a send one behind the other. -/
theorem handleOutbound_frames (sender : ConnectedState) {send : Send}
    (short : send.payload.length ≤ maxOutboundPayloadBytes) :
    ∃ next, handleOutbound (.connected sender) send.miniProtocol send.payload send.mode send.timestamp =
      .ok (.connected next, [.sendBytes ((segments send.payload).map (segmentFrame send)).flatten]) := by
  have frames : outboundFrames send.miniProtocol send.payload send.mode send.timestamp = _ :=
    frames_eq send
  rw [handleOutbound, if_neg (Nat.not_lt.mpr short), if_neg (by simp [SessionState.isConnected]), frames]
  exact ⟨_, rfl⟩

/-- On the wire the frames of each protocol stand in their own order, whatever stands between them. -/
def Interleaves (sends : List Send) (wire : List (AcceptedMiniProtocol × Bytes)) : Prop :=
  ∀ protocol, ((sends.filter fun send => send.miniProtocol = protocol).mapM Send.frames).map List.flatten =
    .ok (ofProtocol protocol wire)

/-- The payload is one item and nothing else. -/
def OneItem (payload : Bytes) : Prop := ∃ range, skipItem payload 0 = (.ok range, payload.length)

structure Sendable (send : Send) : Prop where
  accepted : send.miniProtocol ≠ .handshake
  oneItem : OneItem send.payload
  short : send.payload.length ≤ maxOutboundPayloadBytes

structure FreshlyConnected (receiver : ConnectedState) : Prop where
  buffer : receiver.buffer = []
  protoBuffers : ∀ protocol, receiver.protoBuffers protocol = []

def sentTo (protocol : AcceptedMiniProtocol) (sends : List Send) : List Send :=
  sends.filter fun send => send.miniProtocol = protocol

theorem ofProtocol_eq {sends : List Send} {wire : List (AcceptedMiniProtocol × Bytes)}
    (interleaves : Interleaves sends wire) (protocol : AcceptedMiniProtocol) :
    ofProtocol protocol wire = ((sentTo protocol sends).map fun send =>
      (segments send.payload).map (segmentFrame send)).flatten := by
  have frames := interleaves protocol
  rw [mapM_ok (fun send => (segments send.payload).map (segmentFrame send)) _ fun send _ => frames_eq send]
    at frames
  exact (Except.ok.inj frames).symm

theorem isFrameOf_segmentFrame {send : Send} (sendable : Sendable send) {segment : Bytes}
    (member : segment ∈ segments send.payload) : IsFrameOf send.miniProtocol (segmentFrame send segment) where
  encoded := ⟨⟨{ timestamp := send.timestamp, mode := send.mode, miniProtocolId :=
    ⟨send.miniProtocol.id, send.miniProtocol.small⟩, length := UInt16.ofNat segment.length }, segment⟩,
      segmentFrame_sized (segments_fit member), rfl, rfl⟩
  accepted := sendable.accepted

theorem isFrameOf_wire {sends : List Send} {wire : List (AcceptedMiniProtocol × Bytes)}
    (sendable : ∀ send ∈ sends, Sendable send) (interleaves : Interleaves sends wire) :
    ∀ frame ∈ wire, IsFrameOf frame.1 frame.2 := by
  intro frame member
  have own : frame.2 ∈ ofProtocol frame.1 wire :=
    List.mem_filterMap.mpr ⟨frame, member, if_pos rfl⟩
  rw [ofProtocol_eq interleaves, List.mem_flatten] at own
  obtain ⟨_, ofSend, own⟩ := own
  obtain ⟨send, sent, rfl⟩ := List.mem_map.mp ofSend
  obtain ⟨segment, cut, same⟩ := List.mem_map.mp own
  obtain ⟨inSends, named⟩ := List.mem_filter.mp sent
  rw [← same, ← of_decide_eq_true named]
  exact isFrameOf_segmentFrame (sendable send inSends) cut

theorem payloads_wire {sends : List Send} {wire : List (AcceptedMiniProtocol × Bytes)}
    (interleaves : Interleaves sends wire) (protocol : AcceptedMiniProtocol) :
    ((ofProtocol protocol wire).map payloadOf).flatten =
      ((sentTo protocol sends).map Send.payload).flatten := by
  have payload : ∀ (send : Send) segment, payloadOf (segmentFrame send segment) = segment :=
    fun send segment => List.drop_left' (length_encodeHeader _)
  rw [ofProtocol_eq interleaves]
  induction sentTo protocol sends with
  | nil => rfl
  | cons send sent ih =>
      simp only [List.map_cons, List.flatten_cons, List.map_append, List.flatten_append, ih, List.map_map,
        Function.comp_def, payload, List.map_id', segments_flatten]

theorem streams_of_interleaves {sends : List Send} {wire : List (AcceptedMiniProtocol × Bytes)}
    (sendable : ∀ send ∈ sends, Sendable send) (interleaves : Interleaves sends wire)
    {receiver : ConnectedState} (fresh : FreshlyConnected receiver) :
    Streams { receiver with buffer := (wire.map Prod.snd).flatten } wire
      fun protocol => (sentTo protocol sends).map Send.payload where
  frames := isFrameOf_wire sendable interleaves
  buffered := rfl
  whole := by
    intro protocol item member
    obtain ⟨send, sent, rfl⟩ := List.mem_map.mp member
    obtain ⟨range, skipped⟩ := (sendable send (List.mem_filter.mp sent).1).oneItem
    exact isItem_of_skipItem skipped
  small := by
    intro protocol item member
    obtain ⟨send, sent, rfl⟩ := List.mem_map.mp member
    exact (sendable send (List.mem_filter.mp sent).1).short
  pending := by
    intro protocol
    constructor
    · rw [fresh.protoBuffers, List.nil_append, payloads_wire interleaves]
    · intro item first
      obtain ⟨send, sent, rfl⟩ := List.mem_map.mp (List.mem_of_head? first)
      obtain ⟨range, skipped⟩ := (sendable send (List.mem_filter.mp sent).1).oneItem
      rw [fresh.protoBuffers]
      exact List.length_pos_of_ne_nil (isItem_of_skipItem skipped).ne_nil

theorem feedAll_fresh {receiver : ConnectedState} (fresh : FreshlyConnected receiver)
    (chunks : List Bytes) :
    feedAll inbound (.connected receiver) chunks =
      asSession (drainConnectedFrames { receiver with buffer := chunks.flatten }) := by
  have empty := fresh.buffer
  by_cases none_ : chunks = []
  · subst none_
    have idle : connectedFrames.act { receiver with buffer := ([] : List Bytes).flatten } = none := rfl
    rw [drainConnectedFrames, drain_idle idle]
    cases receiver
    cases empty
    rfl
  · rw [feedAll_connected_flatten receiver none_, inbound_connected, connectedInbound, appendInbound, empty]
    rfl

/-- Nothing is lost, changed or reordered within a protocol. -/
theorem delivered_as_sent {sends : List Send} {wire : List (AcceptedMiniProtocol × Bytes)}
    {chunks : List Bytes} {receiver : ConnectedState} (sendable : ∀ send ∈ sends, Sendable send)
    (interleaves : Interleaves sends wire) (cut : chunks.flatten = (wire.map Prod.snd).flatten)
    (fresh : FreshlyConnected receiver) :
    ∃ final effects, feedAll inbound (.connected receiver) chunks = .ok (.connected final, effects) ∧
      (∀ protocol, deliveredTo protocol effects =
        (sends.filter fun send => send.miniProtocol = protocol).map Send.payload) ∧
      (∀ protocol, final.protoBuffers protocol = []) ∧ final.buffer = [] := by
  obtain ⟨final, effects, drained, delivered, empty⟩ :=
    (streams_of_interleaves sendable interleaves fresh).run
  refine ⟨final, effects, ?_, delivered, empty⟩
  rw [feedAll_fresh fresh, cut, drained]
  rfl

theorem sendable_number (miniProtocol : AcceptedMiniProtocol) (accepted : miniProtocol ≠ .handshake)
    (number : UInt64) (mode : MuxMode) (timestamp : UInt32) :
    Sendable ⟨miniProtocol, encodeU64 number, mode, timestamp⟩ where
  accepted := accepted
  oneItem := by
    have skipped := skipItem_of_isItem (isItem_encodeU64 number) []
    rw [List.append_nil] at skipped
    exact ⟨_, skipped⟩
  short := Nat.le_trans (length_encodeU64 number) (by decide)

/-- Two protocols, the frame of the later send first, cut inside a header. -/
theorem delivered_as_sent_interleaved : ∃ final effects,
    feedAll inbound (.connected (.new 15 (n2n mainnetNetworkMagic)))
        [[0, 0, 0], [0, 128, 8, 0, 1, 7, 0, 0, 0, 0, 0, 2, 0, 1], [5]] =
      .ok (.connected final, effects) ∧
    (∀ protocol, deliveredTo protocol effects =
      ([⟨.chainSync, [5], .initiator, 0⟩, ⟨.keepAlive, [7], .responder, 0⟩].filter
        fun send : Send => send.miniProtocol = protocol).map Send.payload) ∧
    (∀ protocol, final.protoBuffers protocol = []) ∧ final.buffer = [] := by
  refine @delivered_as_sent _
    [(.keepAlive, [0, 0, 0, 0, 128, 8, 0, 1, 7]), (.chainSync, [0, 0, 0, 0, 0, 2, 0, 1, 5])]
    _ _ ?_ ?_ rfl ⟨rfl, fun _ => rfl⟩
  · intro send member
    simp only [List.mem_cons, List.not_mem_nil, or_false] at member
    rcases member with rfl | rfl
    · exact sendable_number .chainSync (by decide) 5 .initiator 0
    · exact sendable_number .keepAlive (by decide) 7 .responder 0
  · intro protocol
    cases protocol <;> rfl

end Ade.Proof.Network
