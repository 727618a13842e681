import Ade.Library.Except
import Ade.Network.BlockFetch

/-! What the block-fetch server sends for a message that a client may send in `Idle`. -/

namespace Ade.Proof.Network
open Std Library Ade.Codec Ade.ChainDb Ade.Network

variable {Failure : Type} (decodeBlock : Bytes → Except Failure DecodedBlock)

/-! ## What is served -/

/-- The blocks of the source, in its order. A block that does not decode is not served. -/
def servedBlocks : ServedSource → List ServedBlock
  | .snapshot blocks => blocks.toList.map fun entry => ⟨entry.1, entry.2⟩
  | .inMemory chaindb =>
      chaindb.bySlot.toList.filterMap fun entry => (authenticate decodeBlock (entry.1, entry.2.bytes)).toOption
  | .persistent chaindb =>
      ((chaindb.blocksBySlot.map (·.toList)).getD []).filterMap fun entry =>
        (authenticate decodeBlock entry).toOption

/-- `NoBlocks`, or one batch: every served block between the endpoints in ascending order, both
endpoints among them. -/
inductive Answers (served : List ServedBlock) : Range → List BlockFetchServerReply → Prop
  | noBlocks (range : Range) : Answers served range [.noBlocks]
  | batch {from_ to_ : Ade.Point} {blocks : List ServedBlock}
      (between : blocks = served.filter fun block => InRange from_ to_ block.key)
      (ascending : blocks.Pairwise fun a b => compare a.key b.key = .lt)
      (first : from_ ∈ blocks.map ServedBlock.key) (last : to_ ∈ blocks.map ServedBlock.key) :
      Answers served ⟨.block from_.slot from_.hash, .block to_.slot to_.hash⟩
        (.startBatch :: (blocks.map (fun block => .block (composeBlockfetchBlock block.bytes)) ++ [.batchDone]))

/-- The state after the replies, each accepted in the state that the one before it leads to. -/
def walk (version : UInt16) (state : BlockFetchState) (replies : List BlockFetchServerReply) :
    Except BlockFetchError BlockFetchState :=
  replies.foldlM (fun state reply =>
    (blockFetchTransition state .server version reply.intoMessage).map Prod.fst) state

/-- No panic and no refusal, and a range is answered over states of the protocol. -/
def ServesExactly (source : ServedSource) (version : UInt16) (msg : BlockFetchMessage) : Prop :=
  ∃ state step, producerBlockFetchServe .new msg (source.lookup decodeBlock) version =
      some (.ok (state, step)) ∧
    ∀ range, msg = .requestRange range → ∃ replies, step = .replies replies ∧
      Answers (servedBlocks decodeBlock source) range replies ∧
      walk version .busy replies = .ok .idle ∧ state.state = .idle

def IsSnapshot : ServedSource → Prop
  | .snapshot _ => True
  | _ => False

/-- Two hashes at one slot, the greater one first. -/
def HashesInverted : BlockFetchMessage → Prop
  | .requestRange ⟨.block slot hash, .block slot' hash'⟩ => slot = slot' ∧ compare hash hash' = .gt
  | _ => False

/-! ## The state machine -/

theorem walk_noBlocks {version : UInt16} (supported : ¬ maxBlockFetchVersion < version) :
    walk version .busy [.noBlocks] = .ok .idle := by
  simp [walk, blockFetchTransition, supported, BlockFetchServerReply.intoMessage, Except.map]

theorem walk_blocks {version : UInt16} (supported : ¬ maxBlockFetchVersion < version)
    (blocks : List Bytes) :
    walk version .streaming (blocks.map .block ++ [.batchDone]) = .ok .idle := by
  induction blocks with
  | nil => simp [walk, blockFetchTransition, supported, BlockFetchServerReply.intoMessage, Except.map]
  | cons bytes blocks ih =>
      have step : (blockFetchTransition .streaming .server version
          (BlockFetchServerReply.intoMessage (.block bytes))).map Prod.fst = .ok .streaming := by
        simp [blockFetchTransition, supported, BlockFetchServerReply.intoMessage, Except.map]
      rw [List.map_cons, List.cons_append, walk, List.foldlM_cons, step]
      exact ih

theorem walk_batch {version : UInt16} (supported : ¬ maxBlockFetchVersion < version)
    (blocks : List Bytes) :
    walk version .busy (.startBatch :: (blocks.map .block ++ [.batchDone])) = .ok .idle := by
  have step : (blockFetchTransition .busy .server version
      (BlockFetchServerReply.intoMessage .startBatch)).map Prod.fst = .ok .streaming := by
    simp [blockFetchTransition, supported, BlockFetchServerReply.intoMessage, Except.map]
  rw [walk, List.foldlM_cons, step]
  exact walk_blocks supported blocks

theorem supported_of_accepted {state : BlockFetchState} {agency : BlockFetchAgency} {version : UInt16}
    {msg : BlockFetchMessage} (accepted : (blockFetchTransition state agency version msg).isOk) :
    ¬ maxBlockFetchVersion < version := by
  intro unsupported
  unfold blockFetchTransition at accepted
  rw [if_pos unsupported] at accepted
  cases accepted

/-! ## The sources -/

theorem compare_point (a b : Ade.Point) :
    compare a b = (compare a.slot b.slot).then (compare a.hash b.hash) := rfl

theorem InRange.slots {from_ to_ key : Ade.Point} (inside : InRange from_ to_ key) :
    from_.slot ≤ key.slot ∧ key.slot ≤ to_.slot := by
  obtain ⟨above, below⟩ := inside
  rw [compare_point] at above below
  constructor
  · by_contra less
    rw [UInt64.not_le] at less
    rw [Std.compare_eq_lt.mpr less] at above
    exact above rfl
  · by_contra greater
    rw [UInt64.not_le] at greater
    rw [Std.compare_eq_gt.mpr greater] at below
    exact below rfl

theorem filterMap_of_mapM_ok {α β ε : Type} {f : α → Except ε β} {entries : List α} {values : List β}
    (all : entries.mapM f = .ok values) : entries.filterMap (fun entry => (f entry).toOption) = values := by
  induction entries generalizing values with
  | nil =>
      cases all
      rfl
  | cons entry entries ih =>
      rw [List.mapM_cons] at all
      obtain ⟨value, read, all⟩ := bind_ok all
      obtain ⟨rest, reads, returned⟩ := bind_ok all
      cases returned
      rw [List.filterMap_cons, read, ih reads]
      rfl

variable {decodeBlock}

theorem authenticate_key {entry : SlotNo × Bytes} {block : ServedBlock}
    (read : (authenticate decodeBlock entry).toOption = some block) : block.key.slot = entry.1 := by
  unfold authenticate at read
  cases decoded : decodeBlock entry.2 with
  | error failure =>
      rw [decoded] at read
      cases read
  | ok decoded_ =>
      rw [decoded] at read
      cases read
      rfl

/-- What is between the endpoints is in the range of slots that is asked of the database. -/
theorem filter_between (entries : List (SlotNo × Bytes)) (from_ to_ : Ade.Point) :
    ((entries.filter fun entry => from_.slot ≤ entry.1 ∧ entry.1 ≤ to_.slot).filterMap fun entry =>
        (authenticate decodeBlock entry).toOption).filter (fun block => InRange from_ to_ block.key) =
      (entries.filterMap fun entry => (authenticate decodeBlock entry).toOption).filter
        fun block => InRange from_ to_ block.key := by
  rw [List.filterMap_filter, List.filter_filterMap, List.filter_filterMap]
  apply List.filterMap_congr
  intro entry _
  split_ifs with inside
  · rfl
  · cases read : (authenticate decodeBlock entry).toOption with
    | none => rfl
    | some block =>
        have outside : ¬ InRange from_ to_ block.key := by
          intro between
          apply inside
          rw [← authenticate_key read]
          simpa using InRange.slots between
        rw [Option.filter_some, if_neg (by simpa using outside)]
        rfl

/-- The database reads its range out of the entries. -/
def RangesOver (chaindb : ChainDbReads) (entries : List (SlotNo × Bytes)) : Prop :=
  ∀ from_ to_ max, chaindb.rangeBytesCapped from_ to_ max =
    .ok (if to_ < from_ then ⟨[], false⟩ else cappedRange entries from_ to_ max)

theorem inMemory_ranges (chaindb : InMemoryChainDb) :
    RangesOver chaindb.reads (chaindb.bySlot.toList.map fun entry => (entry.1, entry.2.bytes)) := by
  intro from_ to_ max
  simp only [InMemoryChainDb.reads, InMemoryChainDb.rangeBytesCapped]
  split_ifs <;> rfl

theorem persistent_ranges (chaindb : PersistentChainDb) :
    RangesOver chaindb.reads ((chaindb.blocksBySlot.map (·.toList)).getD []) := by
  intro from_ to_ max
  simp only [PersistentChainDb.reads, PersistentChainDb.rangeBytesCapped]
  cases chaindb.blocksBySlot with
  | none =>
      split_ifs
      · rfl
      · simp [cappedRange]
  | some blocks => split_ifs <;> rfl

theorem chainDbRangeBytes_of_ranges {chaindb : ChainDbReads} {entries : List (SlotNo × Bytes)}
    (ranges : RangesOver chaindb entries) (from_ to_ : Ade.Point) :
    chainDbRangeBytes decodeBlock chaindb from_ to_ = [] ∨
      chainDbRangeBytes decodeBlock chaindb from_ to_ =
        (entries.filterMap fun entry => (authenticate decodeBlock entry).toOption).filter
          fun block => InRange from_ to_ block.key := by
  unfold chainDbRangeBytes serveRange
  rw [ranges]
  by_cases inverted : to_.slot < from_.slot
  · rw [if_pos inverted]
    exact .inl rfl
  rw [if_neg inverted]
  dsimp only [cappedRange]
  split_ifs with truncated
  · exact .inl rfl
  · have whole : (entries.filter fun entry => from_.slot ≤ entry.1 ∧ entry.1 ≤ to_.slot).length ≤
        maxServeRangeBlocks := by simpa using truncated
    rw [List.take_of_length_le whole]
    cases read : (entries.filter fun entry => from_.slot ≤ entry.1 ∧ entry.1 ≤ to_.slot).mapM
        (authenticate decodeBlock) with
    | error failure => exact .inl rfl
    | ok blocks =>
        right
        rw [← filter_between, filterMap_of_mapM_ok read]
        dsimp only
        cases blocks.filter fun block => InRange from_ to_ block.key <;> rfl

theorem ordered_of_slots {entries : List (SlotNo × Bytes)}
    (ordered : entries.Pairwise fun a b => compare a.1 b.1 = .lt) :
    (entries.filterMap fun entry => (authenticate decodeBlock entry).toOption).Pairwise
      fun a b => compare a.key b.key = .lt := by
  refine ordered.filterMap _ fun entry entry' less block read block' read' => ?_
  rw [compare_point, authenticate_key read, authenticate_key read', less]
  rfl

theorem servedBlocks_ordered (source : ServedSource) :
    (servedBlocks decodeBlock source).Pairwise fun a b => compare a.key b.key = .lt := by
  cases source with
  | snapshot blocks => exact List.pairwise_map.mpr blocks.ordered_keys_toList
  | inMemory chaindb =>
      have ordered := @ordered_of_slots _ decodeBlock _
        (List.pairwise_map.mpr chaindb.bySlot.ordered_keys_toList :
          (chaindb.bySlot.toList.map fun entry => (entry.1, entry.2.bytes)).Pairwise _)
      rwa [List.filterMap_map] at ordered
  | persistent chaindb =>
      apply ordered_of_slots
      cases chaindb.blocksBySlot with
      | none => exact .nil
      | some blocks => exact blocks.ordered_keys_toList

/-! ## The server -/

theorem answerRange_answers {served : ServedRangeLookup} {blocks entries : List ServedBlock}
    {from_ to_ : Ade.Point} {version : UInt16} (supported : ¬ maxBlockFetchVersion < version)
    (ordered : blocks.Pairwise fun a b => compare a.key b.key = .lt)
    (read : served.rangeBytes from_ to_ = some entries)
    (between : entries = [] ∨ entries = blocks.filter fun block => InRange from_ to_ block.key) :
    ∃ replies, answerRange served from_ to_ = some replies ∧
      Answers blocks ⟨.block from_.slot from_.hash, .block to_.slot to_.hash⟩ replies ∧
      walk version .busy replies = .ok .idle := by
  have refused : ∀ range, Answers blocks range [.noBlocks] ∧ walk version .busy [.noBlocks] = .ok .idle :=
    fun range => ⟨.noBlocks range, walk_noBlocks supported⟩
  unfold answerRange
  rw [read, Option.bind_eq_bind, Option.bind_some]
  by_cases none : entries = []
  · rw [if_pos none]
    exact ⟨[.noBlocks], rfl, refused _⟩
  rw [if_neg none]
  have firstIs := List.head?_eq_some_head none
  have lastIs := List.getLast?_eq_some_getLast none
  generalize entries.head none = first at firstIs
  generalize entries.getLast none = last at lastIs
  rw [firstIs, lastIs]
  simp only [Option.pure_def, Option.bind_eq_bind, Option.bind_some]
  by_cases absent : first.key ≠ from_ ∨ last.key ≠ to_
  · rw [if_pos absent]
    exact ⟨[.noBlocks], rfl, refused _⟩
  · rw [if_neg absent]
    push Not at absent
    obtain ⟨rfl, rfl⟩ := absent
    have inside := between.resolve_left none
    refine ⟨_, rfl, .batch inside ?_ ?_ ?_, ?_⟩
    · rw [inside]
      exact ordered.filter _
    · exact List.mem_map_of_mem (List.mem_of_mem_head? firstIs)
    · exact List.mem_map_of_mem (List.mem_of_getLast? lastIs)
    · have walked := walk_batch supported (entries.map fun entry => composeBlockfetchBlock entry.bytes)
      rwa [List.map_map] at walked

def Reversed (source : ServedSource) (from_ to_ : Ade.Point) : Prop :=
  IsSnapshot source ∧ compare from_ to_ = .gt

theorem lookup_reads {source : ServedSource} {from_ to_ : Ade.Point} (straight : ¬ Reversed source from_ to_) :
    ∃ entries, (source.lookup decodeBlock).rangeBytes from_ to_ = some entries ∧
      (entries = [] ∨ entries = (servedBlocks decodeBlock source).filter
        fun block => InRange from_ to_ block.key) := by
  cases source with
  | snapshot blocks =>
      have ordered : ¬ compare from_ to_ = .gt := fun reversed => straight ⟨trivial, reversed⟩
      exact ⟨_, if_neg ordered, .inr rfl⟩
  | inMemory chaindb =>
      have read := @chainDbRangeBytes_of_ranges _ decodeBlock _ _ (inMemory_ranges chaindb) from_ to_
      rw [List.filterMap_map] at read
      exact ⟨_, rfl, read⟩
  | persistent chaindb => exact ⟨_, rfl, chainDbRangeBytes_of_ranges (persistent_ranges chaindb) from_ to_⟩

theorem answerRange_reversed {source : ServedSource} {from_ to_ : Ade.Point}
    (reversed : Reversed source from_ to_) : answerRange (source.lookup decodeBlock) from_ to_ = none := by
  cases source with
  | snapshot blocks =>
      have panics : ((ServedSource.snapshot blocks).lookup decodeBlock).rangeBytes from_ to_ = none :=
        if_pos reversed.2
      unfold answerRange
      rw [panics]
      rfl
  | inMemory chaindb => exact reversed.1.elim
  | persistent chaindb => exact reversed.1.elim

/-- A message that the client may send. -/
def MaySend (version : UInt16) (msg : BlockFetchMessage) : Prop :=
  (blockFetchTransition .idle .client version msg).isOk

/-- A range that is not inverted by its slots can only be inverted by the hashes at one slot. -/
theorem reversed_iff {version : UInt16} {slot slot' : SlotNo} {hash hash' : Hash32}
    (sent : MaySend version (.requestRange ⟨.block slot hash, .block slot' hash'⟩)) :
    compare (⟨slot, hash⟩ : Ade.Point) ⟨slot', hash'⟩ = .gt ↔
      HashesInverted (.requestRange ⟨.block slot hash, .block slot' hash'⟩) := by
  have upright : ¬ slot' < slot := by
    intro inverted
    have supported := supported_of_accepted sent
    unfold MaySend blockFetchTransition at sent
    simp only [supported, Range.Inverted, gt_iff_lt, if_false, if_pos inverted] at sent
    cases sent
  rw [compare_point, HashesInverted]
  by_cases same : slot = slot'
  · subst same
    simp [ReflOrd.compare_self]
  · have less : slot < slot' := by
      rw [UInt64.lt_iff_toNat_lt]
      rw [UInt64.lt_iff_toNat_lt] at upright
      have apart : slot.toNat ≠ slot'.toNat := fun equal => same (UInt64.toNat_inj.mp equal)
      omega
    rw [Std.compare_eq_lt.mpr less]
    simp [same]

theorem MaySend.moves {version : UInt16} {msg : BlockFetchMessage} (sent : MaySend version msg) :
    ∃ moved, blockFetchTransition .idle .client version msg = .ok moved := by
  unfold MaySend at sent
  cases moved : blockFetchTransition .idle .client version msg with
  | error failure =>
      rw [moved] at sent
      cases sent
  | ok result => exact ⟨result, rfl⟩

theorem serve_blocks {served : ServedRangeLookup} {version : UInt16} {slot slot' : SlotNo}
    {hash hash' : Hash32} (sent : MaySend version (.requestRange ⟨.block slot hash, .block slot' hash'⟩)) :
    producerBlockFetchServe .new (.requestRange ⟨.block slot hash, .block slot' hash'⟩) served version =
      (answerRange served ⟨slot, hash⟩ ⟨slot', hash'⟩).map fun replies => .ok (⟨.idle⟩, .replies replies) := by
  obtain ⟨_, moved⟩ := sent.moves
  unfold producerBlockFetchServe
  rw [ProducerBlockFetchServerState.new, moved]

theorem serve_origin {served : ServedRangeLookup} {version : UInt16} {range : Range}
    (origin : range.from_ = .origin ∨ range.to_ = .origin) (sent : MaySend version (.requestRange range)) :
    producerBlockFetchServe .new (.requestRange range) served version =
      some (.ok (⟨.idle⟩, .replies [.noBlocks])) := by
  obtain ⟨_, moved⟩ := sent.moves
  unfold producerBlockFetchServe
  rw [ProducerBlockFetchServerState.new, moved]
  obtain ⟨from_, to_⟩ := range
  rcases origin with rfl | rfl
  · rfl
  · cases from_ <;> rfl

theorem serves_of_straight {source : ServedSource} {version : UInt16} {msg : BlockFetchMessage}
    (sent : MaySend version msg) (straight : ¬ (IsSnapshot source ∧ HashesInverted msg)) :
    ServesExactly decodeBlock source version msg := by
  have supported := supported_of_accepted sent
  have refuses : ∀ range : Range, range.from_ = .origin ∨ range.to_ = .origin →
      MaySend version (.requestRange range) → ServesExactly decodeBlock source version (.requestRange range) := by
    intro range origin sent
    refine ⟨⟨.idle⟩, .replies [.noBlocks], serve_origin origin sent, ?_⟩
    rintro _ ⟨⟩
    exact ⟨[.noBlocks], rfl, .noBlocks range, walk_noBlocks supported, rfl⟩
  have rejected : ∀ msg state tag, blockFetchTransition .idle .client version msg =
      .error (.illegalTransition state tag .client) → ¬ MaySend version msg := by
    rintro msg state tag failed sent
    obtain ⟨_, moved⟩ := sent.moves
    rw [failed] at moved
    cases moved
  cases msg with
  | requestRange range =>
      obtain ⟨from_, to_⟩ := range
      cases from_ with
      | origin => exact refuses _ (.inl rfl) sent
      | block slot hash =>
          cases to_ with
          | origin => exact refuses _ (.inr rfl) sent
          | block slot' hash' =>
              have upright : ¬ Reversed source ⟨slot, hash⟩ ⟨slot', hash'⟩ := by
                unfold Reversed
                rwa [reversed_iff sent]
              obtain ⟨entries, read, between⟩ := @lookup_reads _ decodeBlock _ _ _ upright
              obtain ⟨replies, answered, answers, walked⟩ :=
                answerRange_answers supported (servedBlocks_ordered source) read between
              refine ⟨⟨.idle⟩, .replies replies, ?_, ?_⟩
              · rw [serve_blocks sent, answered]
                rfl
              · rintro range ⟨⟩
                exact ⟨replies, rfl, answers, walked, rfl⟩
  | clientDone =>
      refine ⟨⟨.done⟩, .done, ?_, ?_⟩
      · unfold producerBlockFetchServe blockFetchTransition
        rw [if_neg supported]
        rfl
      · rintro range ⟨⟩
  | startBatch => exact absurd sent (rejected _ _ _ (if_neg supported))
  | noBlocks => exact absurd sent (rejected _ _ _ (if_neg supported))
  | block bytes => exact absurd sent (rejected _ _ _ (if_neg supported))
  | batchDone => exact absurd sent (rejected _ _ _ (if_neg supported))

theorem not_serves_of_reversed {source : ServedSource} {version : UInt16} {msg : BlockFetchMessage}
    (sent : MaySend version msg) (snapshot : IsSnapshot source) (inverted : HashesInverted msg) :
    ¬ ServesExactly decodeBlock source version msg := by
  rintro ⟨state, step, served, -⟩
  match msg, inverted with
  | .requestRange ⟨.block slot hash, .block slot' hash'⟩, inverted =>
      have reversed : Reversed source ⟨slot, hash⟩ ⟨slot', hash'⟩ := ⟨snapshot, (reversed_iff sent).mpr inverted⟩
      rw [serve_blocks sent, answerRange_reversed reversed] at served
      cases served

/-- The server panics on a snapshot when it is asked for two blocks of one slot in the wrong order. -/
theorem block_fetch_serves_iff {source : ServedSource} {version : UInt16} {msg : BlockFetchMessage}
    (sent : MaySend version msg) :
    ServesExactly decodeBlock source version msg ↔ ¬ (IsSnapshot source ∧ HashesInverted msg) :=
  ⟨fun serves reversed => not_serves_of_reversed sent reversed.1 reversed.2 serves, serves_of_straight sent⟩

/-! ## Two hashes at one slot -/

def noDecode (_ : Bytes) : Except Unit DecodedBlock := .error ()

def sampleServed : ServedSource :=
  .snapshot (ExtTreeMap.ofList [((⟨5, Vector.replicate 32 0⟩ : Ade.Point), ([0x80] : Bytes))])

def sampleRange (first last : UInt8) : BlockFetchMessage :=
  .requestRange ⟨.block 5 (Vector.replicate 32 first), .block 5 (Vector.replicate 32 last)⟩

theorem block_fetch_serves_one_block : ServesExactly noDecode sampleServed 14 (sampleRange 0 0) := by
  have sent : MaySend 14 (sampleRange 0 0) := rfl
  refine (block_fetch_serves_iff sent).mpr ?_
  rintro ⟨-, -, greater⟩
  rw [ReflOrd.compare_self] at greater
  cases greater

theorem equal_slots_panic :
    MaySend 14 (sampleRange 1 0) ∧ ¬ ServesExactly noDecode sampleServed 14 (sampleRange 1 0) := by
  have inverted : HashesInverted (sampleRange 1 0) := ⟨rfl, by decide +kernel⟩
  exact ⟨rfl, not_serves_of_reversed rfl trivial inverted⟩

end Ade.Proof.Network
