import Ade.ChainDb.Store
import Ade.Network.ChainSync

/-! The chain database as the chain that the server serves, and a client that follows it. -/

namespace Ade.ChainDb
open Library

structure CappedSlotRange where
  blocks : List (SlotNo × Bytes)
  truncated : Bool
deriving DecidableEq, Repr

/-- The first `max` blocks of the range, out of blocks in slot order. -/
def cappedRange (blocks : List (SlotNo × Bytes)) (from_ to_ : SlotNo) (max : Nat) : CappedSlotRange :=
  let inRange := blocks.filter fun entry => from_ ≤ entry.1 ∧ entry.1 ≤ to_
  ⟨inRange.take max, max < inRange.length⟩

def InMemoryChainDb.rangeBytesCapped (db : InMemoryChainDb) (from_ to_ : SlotNo) (max : Nat) :
    Except ChainDbError CappedSlotRange :=
  if to_ < from_ then .ok ⟨[], false⟩
  else .ok (cappedRange (db.bySlot.toList.map fun entry => (entry.1, entry.2.bytes)) from_ to_ max)

def InMemoryChainDb.lastBlockBytes (db : InMemoryChainDb) :
    Except ChainDbError (Option (SlotNo × Bytes)) :=
  .ok (db.bySlot.toList.getLast?.map fun entry => (entry.2.slot, entry.2.bytes))

def PersistentChainDb.rangeBytesCapped (db : PersistentChainDb) (from_ to_ : SlotNo) (max : Nat) :
    Except ChainDbError CappedSlotRange :=
  if to_ < from_ then .ok ⟨[], false⟩
  else
    match db.blocksBySlot with
    | none => .ok ⟨[], false⟩
    | some blocks => .ok (cappedRange blocks.toList from_ to_ max)

def PersistentChainDb.lastBlockBytes (db : PersistentChainDb) :
    Except ChainDbError (Option (SlotNo × Bytes)) :=
  .ok (db.blocksBySlot.bind fun blocks => blocks.toList.getLast?)

/-- The reads that the server makes of a chain database. -/
structure ChainDbReads where
  getBlockByHash : Hash32 → Except ChainDbError (Option StoredBlock)
  rangeBytesCapped : (from_ to_ : SlotNo) → Nat → Except ChainDbError CappedSlotRange
  lastBlockBytes : Except ChainDbError (Option (SlotNo × Bytes))

def InMemoryChainDb.reads (db : InMemoryChainDb) : ChainDbReads :=
  ⟨db.getBlockByHash, db.rangeBytesCapped, db.lastBlockBytes⟩

def PersistentChainDb.reads (db : PersistentChainDb) : ChainDbReads :=
  ⟨db.getBlockByHash, db.rangeBytesCapped, db.lastBlockBytes⟩

end Ade.ChainDb

namespace Ade.Network
open Library Codec ChainDb

/-! ## Blocks -/

inductive PrevHash where
  | genesis
  | block (hash : Hash32)
deriving DecidableEq, Repr

/-- `slot` and `blockNo` are those of the header input. -/
structure DecodedBlock where
  era : CardanoEra
  slot : SlotNo
  blockNo : UInt64
  blockHash : Hash32
  prevHash : PrevHash
deriving DecidableEq, Repr

/-- What a client reads in a header that it is sent. -/
structure HeaderInfo where
  slot : SlotNo
  hash : Hash32
  prevHash : PrevHash
deriving DecidableEq, Repr

/-- The block decoders, and the client's own reader of what is sent to it. -/
structure BlockCodec where
  Failure : Type
  decodeBlock : Bytes → Except Failure DecodedBlock
  blockHeaderBytes : Bytes → Except Failure Bytes
  readRollForward : Bytes → Option HeaderInfo
  reads_served : ∀ block decoded header, decodeBlock block = .ok decoded →
    blockHeaderBytes block = .ok header →
    readRollForward (composeRollforwardHeader decoded.era header) =
      some ⟨decoded.slot, decoded.blockHash, decoded.prevHash⟩

variable (codec : BlockCodec)

/-! ## The projection of the chain database -/

def maxSlot : SlotNo := 18446744073709551615

def pastCursor (key : Ade.Point) : Option Ade.Point → Bool
  | some cursor => compare key cursor = .gt
  | none => true

/-- The first block past the cursor. A block that does not decode ends the search. -/
def firstPast (cursor : Option Ade.Point) : List (SlotNo × Bytes) → Option HeaderProjection
  | [] => none
  | (slot, bytes) :: rest =>
      match codec.decodeBlock bytes with
      | .error _ => none
      | .ok decoded =>
          if pastCursor ⟨slot, decoded.blockHash⟩ cursor then
            match codec.blockHeaderBytes bytes with
            | .error _ => none
            | .ok header => some ⟨slot, decoded.blockHash, decoded.blockNo, decoded.era, header⟩
          else firstPast cursor rest

def nextAfter (chaindb : ChainDbReads) (cursor : Option Ade.Point) : Option HeaderProjection :=
  let from_ := (cursor.map Ade.Point.slot).getD 0
  match chaindb.rangeBytesCapped from_ maxSlot 2 with
  | .error _ => none
  | .ok capped => firstPast codec cursor capped.blocks

/-- The hash of the parent of the earliest block, which the store does not hold. -/
def earliestServableBlockPrevHash (chaindb : ChainDbReads) : Option Hash32 :=
  match chaindb.rangeBytesCapped 0 maxSlot 1 with
  | .error _ => none
  | .ok capped =>
      match capped.blocks with
      | [] => none
      | (_, bytes) :: _ =>
          match codec.decodeBlock bytes with
          | .error _ => none
          | .ok decoded =>
              match decoded.prevHash with
              | .block hash => some hash
              | .genesis => none

def storedPoint (chaindb : ChainDbReads) : Point → Option Ade.Point
  | .origin => none
  | .block slot hash =>
      match chaindb.getBlockByHash hash with
      | .ok (some stored) => if stored.slot = slot then some ⟨slot, hash⟩ else none
      | _ => none

/-- The slot is the one that the client offered. -/
def parentPoint (parentHash : Hash32) : Point → Option Ade.Point
  | .origin => none
  | .block slot hash => if hash = parentHash then some ⟨slot, hash⟩ else none

def intersect (chaindb : ChainDbReads) (points : List Point) : Option Ade.Point :=
  match points.findSome? (storedPoint chaindb) with
  | some found => some found
  | none =>
      match earliestServableBlockPrevHash codec chaindb with
      | some parentHash => points.findSome? (parentPoint parentHash)
      | none => none

def servedTip (chaindb : ChainDbReads) : Option (Ade.Point × UInt64) :=
  match chaindb.lastBlockBytes with
  | .ok (some (slot, bytes)) =>
      match codec.decodeBlock bytes with
      | .ok decoded => some (⟨slot, decoded.blockHash⟩, decoded.blockNo)
      | .error _ => none
  | _ => none

def chainDbServedSource (chaindb : ChainDbReads) : ServedHeaderLookup :=
  ⟨nextAfter codec chaindb, intersect codec chaindb, servedTip codec chaindb⟩

/-! ## The store over time -/

/-- The block goes on top of the highest block of the store, and of nothing else. -/
def ExtendsTip (memory : InMemoryChainDb) (block : StoredBlock) : Prop :=
  ∃ decoded, codec.decodeBlock block.bytes = .ok decoded ∧ decoded.slot = block.slot ∧
    decoded.blockHash = block.hash ∧
    (∀ slot stored, memory.bySlot[slot]? = some stored → slot < block.slot ∧ stored.hash ≠ block.hash) ∧
    ∀ last, memory.tip = .ok (some last) → decoded.prevHash = .block last.hash

inductive StoreEvent where
  | extend (block : StoredBlock)
  | rollback (slot : SlotNo)

/-- A rollback goes to a block of the store. -/
def StoreStep (memory : InMemoryChainDb) : StoreEvent → InMemoryChainDb → Prop
  | .extend block, next => ExtendsTip codec memory block ∧ next = (memory.putBlock block).2
  | .rollback slot, next =>
      (memory.bySlot[slot]?).isSome ∧ next = (memory.rollbackToSlot slot).2

/-! ## A client -/

/-- The chain that a client holds from its intersection on, the newest block apart. -/
structure ClientChain where
  tip : Point
  below : List Point
deriving DecidableEq, Repr

/-- To the point, and to it alone where the client's chain is not known down to it. -/
def ClientChain.rollBackTo (chain : ClientChain) (point : Point) : ClientChain :=
  match (chain.tip :: chain.below).dropWhile (fun held => decide (held ≠ point)) with
  | [] => ⟨point, []⟩
  | tip :: below => ⟨tip, below⟩

/-- A client goes back to the point that it intersects at. -/
def ClientChain.receive (chain : ClientChain) : Option ServerReply → Option ClientChain
  | some (.rollForward header _) =>
      (codec.readRollForward header).map fun info =>
        ⟨.block info.slot info.hash, chain.tip :: chain.below⟩
  | some (.rollBackward point _) => some (chain.rollBackTo point)
  | some (.intersectFound point _) => some (chain.rollBackTo point)
  | some .awaitReply | some (.intersectNotFound _) | none => some chain

structure Session where
  memory : InMemoryChainDb
  server : ProducerChainSyncServerState
  client : ClientChain

inductive SessionEvent where
  | store (change : StoreEvent)
  | message (msg : ChainSyncMessage)
  | poll

variable (version : UInt16)

def Session.served (session : Session) : ServedHeaderLookup :=
  chainDbServedSource codec session.memory.reads

/-- The server's state after the event, and what it sends. -/
def Session.respond (session : Session) :
    SessionEvent → Except ProducerServerError (ProducerChainSyncServerState × Option ServerReply)
  | .store _ => .ok (session.server, none)
  | .message msg =>
      match producerChainSyncServe session.server msg (session.served codec) version with
      | .error failure => .error failure
      | .ok (server, .done) => .ok (server, none)
      | .ok (server, .reply reply) => .ok (server, some reply)
  | .poll => producerChainSyncAdvanceTip session.server (session.served codec)

def StoreChange (memory : InMemoryChainDb) : SessionEvent → InMemoryChainDb → Prop
  | .store change, next => StoreStep codec memory change next
  | .message _, next => next = memory
  | .poll, next => next = memory

structure SessionStep (session : Session) (event : SessionEvent) (next : Session) : Prop where
  memory : StoreChange codec session.memory event next.memory
  answered : ∃ reply, session.respond codec version event = .ok (next.server, reply) ∧
    session.client.receive codec reply = some next.client

/-- The server has found the client's intersection at a block of the store. -/
structure Starts (session : Session) : Prop where
  stored : ∃ changes, Run (StoreStep codec) .new changes session.memory
  found : ∃ before points tip, ∃ block : StoredBlock, session.memory.bySlot[block.slot]? = some block ∧
    session.client = ⟨.block block.slot block.hash, []⟩ ∧
    producerChainSyncServe before (.findIntersect points) (session.served codec) version =
      .ok (session.server, .reply (.intersectFound (.block block.slot block.hash) tip))

/-! ## What the client is owed -/

def PrevHash.Names : PrevHash → Point → Prop
  | .genesis, .origin => True
  | .block hash, .block _ hash' => hash = hash'
  | _, _ => False

/-- A block of the store at the upper point names the lower one as its parent. -/
def Linked (memory : InMemoryChainDb) (upper lower : Point) : Prop :=
  ∃ (block : StoredBlock) (decoded : DecodedBlock), memory.bySlot[block.slot]? = some block ∧
    codec.decodeBlock block.bytes = .ok decoded ∧ upper = .block block.slot block.hash ∧
    decoded.prevHash.Names lower

def Earliest (memory : InMemoryChainDb) (block : StoredBlock) : Prop :=
  memory.bySlot[block.slot]? = some block ∧
    ∀ slot stored, memory.bySlot[slot]? = some stored → block.slot ≤ slot

def Stored (memory : InMemoryChainDb) (point : Point) : Prop :=
  ∃ block : StoredBlock, memory.bySlot[block.slot]? = some block ∧ point = .block block.slot block.hash

/-- A point to intersect at: a block, Origin, or the parent of the first block. -/
def Intersects (memory : InMemoryChainDb) (point : Point) : Prop :=
  Stored memory point ∨ point = .origin ∨
    ∃ block decoded, Earliest memory block ∧ codec.decodeBlock block.bytes = .ok decoded ∧
      decoded.prevHash.Names point

/-- Block on block down to a point to intersect at. -/
def ChainOf (memory : InMemoryChainDb) : Point → List Point → Prop
  | tip, [] => Intersects codec memory tip
  | tip, lower :: rest => Linked codec memory tip lower ∧ ChainOf memory lower rest

/-- The next block of the store goes on the point. -/
def Anchors (memory : InMemoryChainDb) (point : Point) : Prop :=
  Stored memory point ∨
    ∃ block decoded, Earliest memory block ∧ codec.decodeBlock block.bytes = .ok decoded ∧
      decoded.prevHash.Names point ∧ pastCursor ⟨block.slot, block.hash⟩ point.cursor

/-- The event has the server look for the next block. -/
def Session.Serving (session : Session) : SessionEvent → Prop
  | .message .requestNext => session.server.state = .idle
  | .poll => session.server.state = .canAwait ∨ session.server.state = .mustReply
  | _ => False

/-- When a block past the cursor is looked for and there is one, the store still holds the client's
chain, and its next block goes on top of that chain. -/
def Session.KeepsChain (session : Session) (event : SessionEvent) : Prop :=
  session.Serving event →
    (∀ slot stored, session.memory.bySlot[slot]? = some stored →
      pastCursor ⟨slot, stored.hash⟩ session.server.lastAnnounced = false) ∨
    ChainOf codec session.memory session.client.tip session.client.below ∧
      Anchors codec session.memory session.client.tip

def KeptStep (session : Session) (event : SessionEvent) (next : Session) : Prop :=
  SessionStep codec version session event next ∧ session.KeepsChain codec event

/-- The protocol state in which the server answers the event. -/
def Session.asked (session : Session) : SessionEvent → Except ChainSyncError ChainSyncState
  | .message msg => (chainSyncTransition session.server.state .client version msg).map Prod.fst
  | _ => .ok session.server.state

def Session.AnswersLegally (session : Session) (event : SessionEvent) : Prop :=
  ∀ server reply, session.respond codec version event = .ok (server, some reply) →
    ∃ asked output, session.asked version event = .ok asked ∧
      chainSyncTransition asked .server version reply.intoMessage = .ok (server.state, output)

def Session.ExtendsClient (session : Session) (event : SessionEvent) : Prop :=
  ∀ server header tip,
    session.respond codec version event = .ok (server, some (.rollForward header tip)) →
    ∃ info, codec.readRollForward header = some info ∧ info.prevHash.Names session.client.tip

end Ade.Network
