import Ade.Proof.Network.StoredChain

namespace Ade.Proof.Network
open Library Ade.Codec Ade.ChainDb Ade.Network Ade.Proof.ChainDb

variable {codec : BlockCodec} {memory : InMemoryChainDb}

/-! ## What an event does -/

variable {version : UInt16} {session : Session}

/-- The server's state after an event and what it sends. -/
inductive Responds (codec : BlockCodec) (session : Session) :
    SessionEvent → ProducerChainSyncServerState → Option ServerReply → Prop
  | store (change : StoreEvent) : Responds codec session (.store change) session.server none
  | forward {event : SessionEvent} {proj : HeaderProjection} (serving : session.Serving event)
      (next : nextAfter codec session.memory.reads session.server.lastAnnounced = some proj) :
      Responds codec session event (announce (session.served codec) proj).1
        (some (announce (session.served codec) proj).2)
  | await (idle : session.server.state = .idle) :
      Responds codec session (.message .requestNext) { session.server with state := .mustReply }
        (some .awaitReply)
  | found {points : List Network.Point} {point : Network.Point} (tip : Tip)
      (idle : session.server.state = .idle) (listed : points ≠ [])
      (matched : points.findSome? (matchPoint (session.served codec)) = some point) :
      Responds codec session (.message (.findIntersect points)) ⟨.idle, point.cursor⟩
        (some (.intersectFound point tip))
  | notFound {points : List Network.Point} (tip : Tip) (idle : session.server.state = .idle)
      (listed : points ≠ []) :
      Responds codec session (.message (.findIntersect points)) { session.server with state := .idle }
        (some (.intersectNotFound tip))
  | done : Responds codec session (.message .done) { session.server with state := .done } none
  | quiet : Responds codec session .poll session.server none

theorem idle_of_requestNext {state newState : ChainSyncState} {output : ChainSyncOutput}
    (allowed : chainSyncTransition state .client version .requestNext = .ok (newState, output)) :
    state = .idle := by
  unfold chainSyncTransition at allowed
  split_ifs at allowed
  cases state <;> first | rfl | cases allowed

theorem idle_of_findIntersect {state newState : ChainSyncState} {output : ChainSyncOutput}
    {points : List Network.Point}
    (allowed : chainSyncTransition state .client version (.findIntersect points) =
      .ok (newState, output)) : state = .idle ∧ points ≠ [] := by
  unfold chainSyncTransition at allowed
  split_ifs at allowed
  cases state with
  | idle =>
      dsimp only at allowed
      split_ifs at allowed with empty
      exact ⟨rfl, empty⟩
  | canAwait | mustReply | intersect | done => cases allowed

theorem done_of_done {state newState : ChainSyncState} {output : ChainSyncOutput}
    (allowed : chainSyncTransition state .client version .done = .ok (newState, output)) :
    newState = .done := by
  unfold chainSyncTransition at allowed
  split_ifs at allowed
  cases state <;> cases allowed
  rfl

theorem respond_responds {event : SessionEvent} {server : ProducerChainSyncServerState}
    {reply : Option ServerReply} (answered : session.respond codec version event = .ok (server, reply)) :
    Responds codec session event server reply := by
  cases event with
  | store change =>
      cases answered
      exact .store change
  | message msg =>
      simp only [Session.respond, producerChainSyncServe] at answered
      cases allowed : chainSyncTransition session.server.state .client version msg with
      | error failure => simp [allowed] at answered
      | ok moved =>
          obtain ⟨newState, output⟩ := moved
          simp only [allowed] at answered
          cases msg with
          | requestNext =>
              have idle := idle_of_requestNext allowed
              cases next : (session.served codec).nextAfter session.server.lastAnnounced with
              | some proj =>
                  simp only [next] at answered
                  cases answered
                  exact .forward idle next
              | none =>
                  simp only [next] at answered
                  cases answered
                  exact .await idle
          | findIntersect points =>
              obtain ⟨idle, listed⟩ := idle_of_findIntersect allowed
              cases matched : points.findSome? (matchPoint (session.served codec)) with
              | some point =>
                  simp only [matched] at answered
                  cases answered
                  exact .found _ idle listed matched
              | none =>
                  simp only [matched] at answered
                  cases answered
                  exact .notFound _ idle listed
          | done =>
              obtain rfl := done_of_done allowed
              cases answered
              exact .done
          | awaitReply | rollForward | rollBackward | intersectFound | intersectNotFound =>
              cases answered
  | poll =>
      simp only [Session.respond, producerChainSyncAdvanceTip] at answered
      cases state : session.server.state with
      | idle | intersect | done =>
          simp only [state] at answered
          cases answered
          exact .quiet
      | canAwait | mustReply =>
          simp only [state] at answered
          cases next : (session.served codec).nextAfter session.server.lastAnnounced with
          | some proj =>
              simp only [next] at answered
              cases answered
              exact .forward (by simp [Session.Serving, state]) next
          | none =>
              simp only [next] at answered
              cases answered
              exact .quiet

/-- A reply is legal in the state in which the server answers. -/
theorem responds_legal (allowed : ¬ maxChainSyncVersion < version) {event : SessionEvent}
    {server : ProducerChainSyncServerState} {reply : ServerReply}
    (responds : Responds codec session event server (some reply)) :
    ∃ asked output, session.asked version event = .ok asked ∧
      chainSyncTransition asked .server version reply.intoMessage = .ok (server.state, output) := by
  generalize sent : some reply = maybe at responds
  cases responds with
  | store change => cases sent
  | forward serving next =>
      cases sent
      cases event with
      | store change => cases serving
      | message msg =>
          cases msg with
          | requestNext =>
              have idle : session.server.state = .idle := serving
              simp [Session.asked, chainSyncTransition, allowed, idle, announce, ServerReply.intoMessage,
                Except.map]
          | awaitReply | rollForward | rollBackward | findIntersect | intersectFound
            | intersectNotFound | done => cases serving
      | poll =>
          have waiting : session.server.state = .canAwait ∨ session.server.state = .mustReply := serving
          rcases waiting with state | state <;>
            simp [Session.asked, chainSyncTransition, allowed, state, announce, ServerReply.intoMessage]
  | await idle =>
      cases sent
      simp [Session.asked, chainSyncTransition, allowed, idle, ServerReply.intoMessage, Except.map]
  | found tip idle listed matched =>
      cases sent
      simp [Session.asked, chainSyncTransition, allowed, idle, listed, ServerReply.intoMessage,
        Except.map]
  | notFound tip idle listed =>
      cases sent
      simp [Session.asked, chainSyncTransition, allowed, idle, listed, ServerReply.intoMessage,
        Except.map]
  | done => cases sent
  | quiet => cases sent

/-! ## What the client reads -/

theorem forward_reads (linked : WellLinked codec memory) {cursor : Option Ade.Point}
    {proj : HeaderProjection} (found : nextAfter codec memory.reads cursor = some proj) :
    ∃ block decoded, Next codec memory cursor proj block decoded ∧
      codec.readRollForward (composeRollforwardHeader proj.era proj.headerBytes) =
        some ⟨block.slot, block.hash, decoded.prevHash⟩ ∧
      (⟨proj.slot, proj.hash⟩ : Ade.Point) = ⟨block.slot, block.hash⟩ := by
  obtain ⟨block, decoded, next⟩ := nextAfter_some linked found
  have read := codec.reads_served _ _ _ next.projected.decodes next.projected.header
  rw [← next.projected.era, next.slot, next.hash] at read
  refine ⟨block, decoded, next, read, ?_⟩
  rw [next.projected.slot, next.projected.hash, next.hash]

theorem getBlockByHash_stored (linked : WellLinked codec memory) {hash : Hash32} {stored : StoredBlock}
    (found : memory.getBlockByHash hash = .ok (some stored)) :
    memory.bySlot[stored.slot]? = some stored ∧ stored.hash = hash := by
  obtain ⟨slot, indexed, present⟩ := Option.bind_eq_some_iff.mp (Except.ok.inj found)
  obtain ⟨block, blockPresent, sameHash⟩ := (linked.indexed.index hash slot).mp indexed
  rw [present] at blockPresent
  cases blockPresent
  obtain rfl := linked.indexed.slots slot stored present
  exact ⟨present, sameHash⟩

theorem storedPoint_of_stored (linked : WellLinked codec memory) {block : StoredBlock}
    (present : memory.bySlot[block.slot]? = some block) :
    storedPoint memory.reads (.block block.slot block.hash) = some ⟨block.slot, block.hash⟩ := by
  have indexed : memory.byHash[block.hash]? = some block.slot :=
    (linked.indexed.index _ _).mpr ⟨block, present, rfl⟩
  simp [storedPoint, InMemoryChainDb.reads, InMemoryChainDb.getBlockByHash, indexed, present]

theorem earliest_of_prevHash (linked : WellLinked codec memory) {hash : Hash32}
    (found : earliestServableBlockPrevHash codec memory.reads = some hash) :
    ∃ block decoded, Earliest memory block ∧ codec.decodeBlock block.bytes = .ok decoded ∧
      decoded.prevHash = .block hash := by
  obtain ⟨truncated, range⟩ := rangeBytesCapped_blocks memory 0 1
  have everything : (memory.bySlot.toList.filter fun entry => (0 : SlotNo) ≤ entry.1) =
      memory.bySlot.toList :=
    List.filter_eq_self.mpr fun entry _ =>
      decide_eq_true (UInt64.le_iff_toNat_le.mpr (Nat.zero_le _))
  rw [everything] at range
  simp only [earliestServableBlockPrevHash, InMemoryChainDb.reads, range] at found
  cases listed : memory.bySlot.toList with
  | nil => simp [listed] at found
  | cons entry rest =>
      obtain ⟨slot, block⟩ := entry
      simp only [listed, List.take_succ_cons, List.map_cons, asBytes] at found
      have first : (slot, block) ∈ memory.bySlot.toList := by simp [listed]
      have present : memory.bySlot[slot]? = some block := BTreeMap.mem_toList.mp first
      obtain rfl := linked.indexed.slots slot block present
      cases decodes : codec.decodeBlock block.bytes with
      | error failure => simp [decodes] at found
      | ok decoded =>
          cases parent : decoded.prevHash with
          | genesis => simp [decodes, parent] at found
          | block parentHash =>
              simp only [decodes, parent, Option.some.injEq] at found
              subst found
              refine ⟨block, decoded, ⟨present, ?_⟩, decodes, parent⟩
              intro other stored otherPresent
              have member : (other, stored) ∈ memory.bySlot.toList := BTreeMap.mem_toList.mpr otherPresent
              have ordered := slots_ordered memory
              rw [listed] at member ordered
              rcases List.mem_cons.mp member with same | later
              · exact UInt64.le_of_eq (congrArg Prod.fst same).symm
              · exact UInt64.le_of_lt ((List.pairwise_cons.mp ordered).1 _ later)

theorem intersect_intersects (linked : WellLinked codec memory) {offered : Network.Point}
    {point : Ade.Point} (found : Network.intersect codec memory.reads [offered] = some point) :
    Intersects codec memory (.block point.slot point.hash) := by
  cases offered with
  | origin =>
      simp only [Network.intersect, List.findSome?_cons, List.findSome?_nil, storedPoint] at found
      cases parent : earliestServableBlockPrevHash codec memory.reads <;>
        simp [parent, parentPoint] at found
  | block slot hash =>
      simp only [Network.intersect, List.findSome?_cons, List.findSome?_nil] at found
      cases stored : storedPoint memory.reads (.block slot hash) with
      | some held =>
          simp only [stored, Option.some.injEq] at found
          subst found
          simp only [storedPoint, InMemoryChainDb.reads] at stored
          split at stored
          · next block read =>
              split_ifs at stored with sameSlot
              cases stored
              obtain ⟨present, rfl⟩ := getBlockByHash_stored linked read
              subst sameSlot
              exact .inl ⟨block, present, rfl⟩
          · cases stored
      | none =>
          simp only [stored] at found
          cases parent : earliestServableBlockPrevHash codec memory.reads with
          | none => simp [parent] at found
          | some parentHash =>
              obtain ⟨block, decoded, earliest, decodes, names⟩ := earliest_of_prevHash linked parent
              simp only [parent, parentPoint] at found
              by_cases same : hash = parentHash
              · simp only [if_pos same, Option.some.injEq] at found
                subst found
                refine .inr (.inr ⟨block, decoded, earliest, decodes, ?_⟩)
                rw [names]
                exact same.symm
              · simp [same] at found

theorem matched_intersects (linked : WellLinked codec session.memory) {points : List Network.Point}
    {point : Network.Point}
    (matched : points.findSome? (matchPoint (session.served codec)) = some point) :
    Intersects codec session.memory point := by
  obtain ⟨offered, -, found⟩ := List.exists_of_findSome?_eq_some matched
  cases offered with
  | origin =>
      cases found
      exact .inr (.inl rfl)
  | block slot hash =>
      obtain ⟨held, intersected, rfl⟩ := Option.map_eq_some_iff.mp found
      exact intersect_intersects linked intersected

/-! ## The client's chain -/

theorem chainOf_dropWhile {point : Network.Point} :
    ∀ {below : List Network.Point} {tip keptTip : Network.Point} {kept : List Network.Point},
      ChainOf codec memory tip below →
      (tip :: below).dropWhile (fun held => decide (held ≠ point)) = keptTip :: kept →
      ChainOf codec memory keptTip kept
  | below, tip, keptTip, kept, chain, dropped => by
      by_cases here : tip = point
      · rw [List.dropWhile_cons_of_neg (by simpa using here)] at dropped
        cases dropped
        exact chain
      · rw [List.dropWhile_cons_of_pos (by simpa using here)] at dropped
        cases below with
        | nil => cases dropped
        | cons lower rest => exact chainOf_dropWhile chain.2 dropped

theorem dropWhile_ne_head {point : Network.Point} :
    ∀ {points : List Network.Point} {tip : Network.Point} {kept : List Network.Point},
      points.dropWhile (fun held => decide (held ≠ point)) = tip :: kept → tip = point
  | held :: points, tip, kept, dropped => by
      by_cases here : held = point
      · rw [List.dropWhile_cons_of_neg (by simpa using here)] at dropped
        cases dropped
        exact here
      · rw [List.dropWhile_cons_of_pos (by simpa using here)] at dropped
        exact dropWhile_ne_head dropped

theorem rollBackTo_tip (chain : ClientChain) (point : Network.Point) :
    (chain.rollBackTo point).tip = point := by
  unfold ClientChain.rollBackTo
  cases dropped : (chain.tip :: chain.below).dropWhile (fun held => decide (held ≠ point)) with
  | nil => rfl
  | cons tip kept => exact dropWhile_ne_head dropped

theorem rollBackTo_chainOf {chain : ClientChain} (held : ChainOf codec memory chain.tip chain.below)
    (point : Network.Point) :
    ChainOf codec memory (chain.rollBackTo point).tip (chain.rollBackTo point).below ∨
      chain.rollBackTo point = ⟨point, []⟩ := by
  unfold ClientChain.rollBackTo
  cases dropped : (chain.tip :: chain.below).dropWhile (fun kept => decide (kept ≠ point)) with
  | nil => exact .inr rfl
  | cons tip kept => exact .inl (chainOf_dropWhile held dropped)

/-! ## One step -/

/-- The store is a chain and the cursor is the client's tip. -/
structure Follows (codec : BlockCodec) (version : UInt16) (session : Session) : Prop where
  linked : WellLinked codec session.memory
  cursor : session.server.lastAnnounced = session.client.tip.cursor
  allowed : ¬ maxChainSyncVersion < version

theorem step_memory {event : SessionEvent} {next : Session}
    (step : SessionStep codec version session event next) (linked : WellLinked codec session.memory) :
    WellLinked codec next.memory ∧
      ((∃ change, event = .store change) ∨ next.memory = session.memory) := by
  have change := step.memory
  cases event with
  | store change' => exact ⟨storeStep_wellLinked change linked, .inl ⟨change', rfl⟩⟩
  | message msg =>
      have same : next.memory = session.memory := change
      exact ⟨same ▸ linked, .inr same⟩
  | poll =>
      have same : next.memory = session.memory := change
      exact ⟨same ▸ linked, .inr same⟩

theorem step_follows {event : SessionEvent} {next : Session}
    (step : SessionStep codec version session event next) (follows : Follows codec version session) :
    Follows codec version next := by
  refine ⟨(step_memory step follows.linked).1, ?_, follows.allowed⟩
  obtain ⟨reply, answered, received⟩ := step.answered
  have responds := respond_responds answered
  generalize next.server = server at responds
  cases responds with
  | store change | await idle | notFound tip idle listed | done | quiet =>
      have same : session.client = next.client := Option.some.inj received
      rw [← same]
      exact follows.cursor
  | forward serving found =>
      obtain ⟨block, decoded, -, read, place⟩ := forward_reads follows.linked found
      simp only [ClientChain.receive, announce, read, Option.map_some, Option.some.injEq] at received
      rw [← received]
      exact congrArg some place
  | @found points point tip idle listed matched =>
      have same : session.client.rollBackTo point = next.client := Option.some.inj received
      rw [← same, rollBackTo_tip]

/-- The next block goes on the client's tip. -/
theorem kept_forward {event : SessionEvent} (follows : Follows codec version session)
    (kept : session.KeepsChain codec event) (serving : session.Serving event) {proj : HeaderProjection}
    (found : nextAfter codec session.memory.reads session.server.lastAnnounced = some proj) :
    ∃ block decoded, Next codec session.memory session.client.tip.cursor proj block decoded ∧
      codec.readRollForward (composeRollforwardHeader proj.era proj.headerBytes) =
        some ⟨block.slot, block.hash, decoded.prevHash⟩ ∧
      decoded.prevHash.Names session.client.tip ∧
      ChainOf codec session.memory session.client.tip session.client.below := by
  obtain ⟨block, decoded, next, read, -⟩ := forward_reads follows.linked found
  rcases kept serving with nothing | ⟨chain, anchors⟩
  · have past := next.projected.past
    dsimp only at past
    rw [next.hash, nothing _ _ next.stored] at past
    cases past
  · rw [follows.cursor] at next
    exact ⟨block, decoded, next, read, next_names follows.linked anchors next, chain⟩

/-- The client's chain stays one that some store held: the one before, or the store of the step. -/
theorem step_chainOf {event : SessionEvent} {next : Session}
    (step : KeptStep codec version session event next) (follows : Follows codec version session)
    {past : InMemoryChainDb} (chain : ChainOf codec past session.client.tip session.client.below) :
    ChainOf codec past next.client.tip next.client.below ∨
      ChainOf codec next.memory next.client.tip next.client.below := by
  obtain ⟨reply, answered, received⟩ := step.1.answered
  have responds := respond_responds answered
  have sameMemory := (step_memory step.1 follows.linked).2
  generalize next.server = server at responds
  cases responds with
  | store change | await idle | notFound tip idle listed | done | quiet =>
      have same : session.client = next.client := Option.some.inj received
      rw [← same]
      exact .inl chain
  | forward serving found =>
      obtain ⟨block, decoded, nextBlock, read, names, held⟩ := kept_forward follows step.2 serving found
      simp only [ClientChain.receive, announce, read, Option.map_some, Option.some.injEq] at received
      rcases sameMemory with ⟨change, rfl⟩ | same
      · cases serving
      · rw [← received, same]
        exact .inr ⟨⟨block, decoded, nextBlock.stored, nextBlock.projected.decodes, rfl, names⟩, held⟩
  | @found points point tip idle listed matched =>
      have same : session.client.rollBackTo point = next.client := Option.some.inj received
      rcases sameMemory with ⟨change, impossible⟩ | sameMemory
      · cases impossible
      · rw [← same, sameMemory]
        rcases rollBackTo_chainOf chain point with shorter | alone
        · exact .inl shorter
        · rw [alone]
          exact .inr (matched_intersects follows.linked matched)

/-! ## Runs -/

theorem starts_follows (starts : Starts codec version session) : Follows codec version session := by
  obtain ⟨changes, stored⟩ := starts.stored
  obtain ⟨before, points, tip, block, present, client, served⟩ := starts.found
  have linked : WellLinked codec session.memory :=
    stored.invariant (fun _ _ _ step linked => storeStep_wellLinked step linked) new_wellLinked
  refine ⟨linked, ?_, ?_⟩
  · let asking : Session := { session with server := before }
    have answered : asking.respond codec version (.message (.findIntersect points)) =
        .ok (session.server, some (.intersectFound (.block block.slot block.hash) tip)) := by
      have served' : producerChainSyncServe asking.server (.findIntersect points) (asking.served codec)
        version = _ := served
      rw [Session.respond, served']
    have responds := respond_responds answered
    rw [client]
    generalize session.server = server at responds
    cases responds with
    | found tip idle listed matched => rfl
  · intro above
    simp [producerChainSyncServe, chainSyncTransition, above] at served

theorem run_follows {events : List SessionEvent} {start last : Session}
    (run : Run (SessionStep codec version) start events last) (follows : Follows codec version start) :
    Follows codec version last :=
  run.invariant (fun _ _ _ step follows => step_follows step follows) follows

theorem run_of_kept {events : List SessionEvent} {start last : Session}
    (run : Run (KeptStep codec version) start events last) :
    Run (SessionStep codec version) start events last := by
  induction run with
  | nil => exact .nil _
  | cons head tail ih => exact .cons head.1 ih

theorem run_chainOf {events : List SessionEvent} {start last : Session}
    (run : Run (KeptStep codec version) start events last) (follows : Follows codec version start)
    {past : InMemoryChainDb} (chain : ChainOf codec past start.client.tip start.client.below) :
    ChainOf codec past last.client.tip last.client.below ∨
      ∃ earlier later middle, events = earlier ++ later ∧
        Run (KeptStep codec version) start earlier middle ∧
        Run (KeptStep codec version) middle later last ∧
        ChainOf codec middle.memory last.client.tip last.client.below := by
  induction run generalizing past with
  | nil => exact .inl chain
  | @cons before middle after event events head tail ih =>
      have follows' := step_follows head.1 follows
      have fromMiddle {store : InMemoryChainDb}
          (held : ChainOf codec store middle.client.tip middle.client.below) :=
        ih follows' held
      have split (found : ∃ earlier later last, events = earlier ++ later ∧
          Run (KeptStep codec version) middle earlier last ∧
          Run (KeptStep codec version) last later after ∧
          ChainOf codec last.memory after.client.tip after.client.below) :
          ∃ earlier later last, event :: events = earlier ++ later ∧
            Run (KeptStep codec version) before earlier last ∧
            Run (KeptStep codec version) last later after ∧
            ChainOf codec last.memory after.client.tip after.client.below := by
        obtain ⟨earlier, later, last, rfl, first, rest, held⟩ := found
        exact ⟨event :: earlier, later, last, rfl, .cons head first, rest, held⟩
      rcases step_chainOf head follows chain with same | here
      · exact (fromMiddle same).imp id split
      · rcases fromMiddle here with held | found
        · exact .inr ⟨[event], events, middle, rfl, .cons head (.nil _), tail, held⟩
        · exact .inr (split found)

/-- Every message that the server sends is legal. While the store keeps the client's chain at each
step that serves a block, each header extends the client's tip and the client's chain is one that the
server stored. -/
theorem client_follows_stored_chain (codec : BlockCodec) (version : UInt16) (start : Session)
    (starts : Starts codec version start) :
    (∀ events last, Run (SessionStep codec version) start events last →
      ∀ event, last.AnswersLegally codec version event) ∧
    ∀ events last, Run (KeptStep codec version) start events last →
      (∃ earlier later middle, events = earlier ++ later ∧
        Run (KeptStep codec version) start earlier middle ∧
        Run (KeptStep codec version) middle later last ∧
        ChainOf codec middle.memory last.client.tip last.client.below) ∧
      ∀ event, last.KeepsChain codec event → last.ExtendsClient codec version event := by
  have follows := starts_follows starts
  constructor
  · intro events last run event server reply answered
    exact responds_legal follows.allowed (respond_responds answered)
  · intro events last run
    constructor
    · obtain ⟨before, points, tip, block, present, client, served⟩ := starts.found
      have alone : ChainOf codec start.memory start.client.tip start.client.below := by
        rw [client]
        exact .inl ⟨block, present, rfl⟩
      rcases run_chainOf run follows alone with held | found
      · exact ⟨[], events, start, rfl, .nil _, run, held⟩
      · exact found
    · intro event kept server header tip answered
      have here := run_follows (run_of_kept run) follows
      have responds := respond_responds answered
      generalize sent : some (ServerReply.rollForward header tip) = reply at responds
      cases responds with
      | forward serving found =>
          cases sent
          obtain ⟨block, decoded, -, read, names, -⟩ := kept_forward here kept serving found
          exact ⟨_, read, names⟩
      | store | await | found | notFound | done | quiet => cases sent

/-! ## A fork switch behind the client's back -/

def sampleHash (byte : UInt8) : Hash32 := Vector.replicate 32 byte

/-- A block of three bytes: its slot, its name and its parent's name. -/
def sampleDecode : Bytes → Except Unit DecodedBlock
  | [slot, name, parent] =>
      .ok ⟨.conway, slot.toUInt64, slot.toUInt64, sampleHash name,
        if parent = 0 then .genesis else .block (sampleHash parent)⟩
  | _ => .error ()

def sampleHeaderBytes : Bytes → Except Unit Bytes
  | [slot, name, parent] => .ok [slot, name, parent]
  | _ => .error ()

def sampleRead (wire : Bytes) : Option HeaderInfo :=
  (sampleDecode (wire.drop 5)).toOption.map fun decoded =>
    ⟨decoded.slot, decoded.blockHash, decoded.prevHash⟩

theorem sampleWire (header : Bytes) (sized : header.length = 3) :
    composeRollforwardHeader .conway header = [0x82, 0x06, 0xd8, 0x18, 0x43] ++ header := by
  simp only [composeRollforwardHeader, wrapTag24, writeBytesCanonical, sized]
  rfl

def sampleCodec : BlockCodec where
  Failure := Unit
  decodeBlock := sampleDecode
  blockHeaderBytes := sampleHeaderBytes
  readRollForward := sampleRead
  reads_served := by
    intro block decoded header decodes projected
    match block, decodes, projected with
    | [slot, name, parent], rfl, rfl =>
        have sized : [slot, name, parent].length = 3 := rfl
        simp only [sampleRead, sampleWire _ sized]
        rfl

def sampleBlock (slot name parent : UInt8) : StoredBlock :=
  ⟨sampleHash name, slot.toUInt64, [slot, name, parent]⟩

def rootMemory : InMemoryChainDb := (InMemoryChainDb.new.putBlock (sampleBlock 1 1 0)).2

/-- The client is at the first block. -/
def sampleSession (memory : InMemoryChainDb) : Session :=
  ⟨memory, ⟨.idle, some ⟨1, sampleHash 1⟩⟩, ⟨.block 1 (sampleHash 1), []⟩⟩

/-- The client has been sent the block of slot 2. -/
def advancedSession (memory : InMemoryChainDb) : Session :=
  ⟨memory, ⟨.idle, some ⟨2, sampleHash 2⟩⟩, ⟨.block 2 (sampleHash 2), [.block 1 (sampleHash 1)]⟩⟩

def leftMemory : InMemoryChainDb := (rootMemory.putBlock (sampleBlock 2 2 1)).2
def backMemory : InMemoryChainDb := (leftMemory.rollbackToSlot 1).2
def rightMemory : InMemoryChainDb := (backMemory.putBlock (sampleBlock 3 3 1)).2

theorem root_step : StoreStep sampleCodec .new (.extend (sampleBlock 1 1 0)) rootMemory := by
  refine ⟨⟨_, rfl, rfl, rfl, ?_, ?_⟩, rfl⟩
  · intro slot stored found
    simp [InMemoryChainDb.new] at found
  · intro last tip
    have empty : InMemoryChainDb.new.tip = .ok none := rfl
    rw [empty] at tip
    cases tip

/-- The only block of the store is the first one. -/
def OnlyRoot (memory : InMemoryChainDb) : Prop :=
  ∀ (slot : SlotNo) stored, memory.bySlot[slot]? = some stored → slot = 1 ∧ stored = sampleBlock 1 1 0

theorem root_only : OnlyRoot rootMemory := by
  intro slot stored found
  have lookup : rootMemory.bySlot[slot]? =
      if 1 = slot then some (sampleBlock 1 1 0) else InMemoryChainDb.new.bySlot[slot]? :=
    BTreeMap.getElem?_insert ..
  rw [lookup] at found
  split_ifs at found with same
  · exact ⟨same.symm, (Option.some.inj found).symm⟩
  · simp [InMemoryChainDb.new] at found

/-- On top of the first block alone. -/
theorem second_step {memory next : InMemoryChainDb} (only : OnlyRoot memory)
    (tip : memory.tip = .ok (some ⟨sampleHash 1, 1⟩)) {slot name : UInt8} (later : 1 < slot.toUInt64)
    (fresh : sampleHash 1 ≠ sampleHash name)
    (put : next = (memory.putBlock (sampleBlock slot name 1)).2) :
    StoreStep sampleCodec memory (.extend (sampleBlock slot name 1)) next := by
  refine ⟨⟨_, rfl, rfl, rfl, ?_, ?_⟩, put⟩
  · intro slot stored found
    obtain ⟨rfl, rfl⟩ := only slot stored found
    exact ⟨later, fresh⟩
  · intro last highest
    rw [tip] at highest
    cases highest
    rfl

theorem left_step : StoreStep sampleCodec rootMemory (.extend (sampleBlock 2 2 1)) leftMemory :=
  second_step root_only rfl (by decide) (by decide) rfl

theorem root_linked : WellLinked sampleCodec rootMemory :=
  storeStep_wellLinked root_step new_wellLinked

theorem back_only : OnlyRoot backMemory := by
  intro slot stored found
  have linked := storeStep_wellLinked left_step root_linked
  rw [backMemory, rollbackToSlot_memory linked.indexed] at found
  split_ifs at found with kept
  have lookup : leftMemory.bySlot[slot]? =
      if 2 = slot then some (sampleBlock 2 2 1) else rootMemory.bySlot[slot]? :=
    BTreeMap.getElem?_insert ..
  rw [lookup] at found
  split_ifs at found with same
  · subst same
    exact absurd kept (by decide)
  · exact root_only slot stored found

theorem right_step : StoreStep sampleCodec backMemory (.extend (sampleBlock 3 3 1)) rightMemory :=
  second_step back_only rfl (by decide) (by decide) rfl

theorem sample_starts : Starts sampleCodec 10 (sampleSession rootMemory) where
  stored := ⟨_, .cons root_step (.nil _)⟩
  found := by
    refine ⟨.new, [.block 1 (sampleHash 1)], ⟨.block 1 (sampleHash 1), 1⟩, sampleBlock 1 1 0, rfl, rfl, ?_⟩
    have stored : storedPoint rootMemory.reads (.block 1 (sampleHash 1)) = some ⟨1, sampleHash 1⟩ :=
      @storedPoint_of_stored _ _ root_linked (sampleBlock 1 1 0) rfl
    have intersected : Network.intersect sampleCodec rootMemory.reads [.block 1 (sampleHash 1)] =
        some ⟨1, sampleHash 1⟩ := by
      simp only [Network.intersect, List.findSome?_cons, stored]
    have matched : ([.block 1 (sampleHash 1)] : List Network.Point).findSome?
        (matchPoint ((sampleSession rootMemory).served sampleCodec)) = some (.block 1 (sampleHash 1)) := by
      rw [List.findSome?_cons]
      have found : matchPoint ((sampleSession rootMemory).served sampleCodec) (.block 1 (sampleHash 1)) =
          some (.block 1 (sampleHash 1)) := congrArg (Option.map _) intersected
      rw [found]
    have asked : chainSyncTransition .idle .client 10 (.findIntersect [.block 1 (sampleHash 1)]) =
        .ok (.intersect, .reply (.findIntersect [.block 1 (sampleHash 1)])) := rfl
    simp only [producerChainSyncServe, ProducerChainSyncServerState.new, asked, matched]
    rfl

/-- One step serves the block of slot 2. -/
theorem left_extends :
    SessionStep sampleCodec 10 (sampleSession rootMemory) (.store (.extend (sampleBlock 2 2 1)))
      (sampleSession leftMemory) :=
  ⟨left_step, none, rfl, rfl⟩

theorem left_next : nextAfter sampleCodec leftMemory.reads (some ⟨1, sampleHash 1⟩) =
    some ⟨2, sampleHash 2, 2, .conway, [2, 2, 1]⟩ := by
  have range : leftMemory.reads.rangeBytesCapped 1 maxSlot 2 =
      .ok ⟨[(1, [1, 1, 0]), (2, [2, 2, 1])], false⟩ := rfl
  have itself : pastCursor ⟨1, sampleHash 1⟩ (some ⟨1, sampleHash 1⟩) = false := by
    simp [pastCursor]
  have root : sampleCodec.decodeBlock [1, 1, 0] = .ok ⟨.conway, 1, 1, sampleHash 1, .genesis⟩ := rfl
  simp only [nextAfter, Option.map_some, Option.getD_some, range, firstPast, root, itself]
  rfl

theorem left_served :
    SessionStep sampleCodec 10 (sampleSession leftMemory) (.message .requestNext)
      (advancedSession leftMemory) := by
  refine ⟨rfl, some (.rollForward (composeRollforwardHeader .conway [2, 2, 1])
    ⟨.block 2 (sampleHash 2), 2⟩), ?_, rfl⟩
  have next : ((sampleSession leftMemory).served sampleCodec).nextAfter
      (sampleSession leftMemory).server.lastAnnounced = some ⟨2, sampleHash 2, 2, .conway, [2, 2, 1]⟩ :=
    left_next
  have asked : chainSyncTransition (sampleSession leftMemory).server.state .client 10 .requestNext =
      .ok (.canAwait, .reply .requestNext) := rfl
  simp only [Session.respond, producerChainSyncServe, asked, next]
  rfl

theorem client_follows_stored_chain_to_left :
    (sampleSession leftMemory).ExtendsClient sampleCodec 10 (.message .requestNext) := by
  have run : Run (KeptStep sampleCodec 10) (sampleSession rootMemory)
      [.store (.extend (sampleBlock 2 2 1))] (sampleSession leftMemory) :=
    .cons ⟨left_extends, fun serving => by cases serving⟩ (.nil _)
  have stored : Stored leftMemory (.block 1 (sampleHash 1)) := ⟨sampleBlock 1 1 0, rfl, rfl⟩
  exact ((client_follows_stored_chain sampleCodec 10 _ sample_starts).2 _ _ run).2 _
    fun _ => .inr ⟨.inl stored, .inl stored⟩

/-- The block of slot 2 is served, then the store leaves it for one at slot 3 on the first block. The
server never rolls the client back: it serves the block of slot 3 on top of the one of slot 2. -/
theorem fork_switch_serves_another_branch :
    Starts sampleCodec 10 (sampleSession rootMemory) ∧
      Run (SessionStep sampleCodec 10) (sampleSession rootMemory)
        [.store (.extend (sampleBlock 2 2 1)), .message .requestNext, .store (.rollback 1),
          .store (.extend (sampleBlock 3 3 1))] (advancedSession rightMemory) ∧
      ¬ (advancedSession rightMemory).ExtendsClient sampleCodec 10 (.message .requestNext) := by
  refine ⟨sample_starts, ?_, ?_⟩
  · have back : SessionStep sampleCodec 10 (advancedSession leftMemory) (.store (.rollback 1))
        (advancedSession backMemory) := ⟨⟨rfl, rfl⟩, none, rfl, rfl⟩
    have right : SessionStep sampleCodec 10 (advancedSession backMemory)
        (.store (.extend (sampleBlock 3 3 1))) (advancedSession rightMemory) :=
      ⟨right_step, none, rfl, rfl⟩
    exact .cons left_extends (.cons left_served (.cons back (.cons right (.nil _))))
  · intro extends_
    obtain ⟨info, read, names⟩ := extends_ ⟨.idle, some ⟨3, sampleHash 3⟩⟩
      (composeRollforwardHeader .conway [3, 3, 1]) ⟨.block 3 (sampleHash 3), 3⟩ rfl
    have readHere : sampleCodec.readRollForward (composeRollforwardHeader .conway [3, 3, 1]) =
        some ⟨3, sampleHash 3, .block (sampleHash 1)⟩ := rfl
    rw [readHere] at read
    cases read
    have parent : sampleHash 1 = sampleHash 2 := names
    exact absurd parent (by decide)

end Ade.Proof.Network
