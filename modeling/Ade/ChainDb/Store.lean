import Ade.Library.Run
import Ade.Types

/-! The two implementations of the chain database. -/

namespace Ade.ChainDb
open Std Library

structure StoredBlock where
  hash : Hash32
  slot : SlotNo
  bytes : Bytes
deriving DecidableEq, Repr

structure ChainTip where
  hash : Hash32
  slot : SlotNo
deriving DecidableEq, Repr

inductive ChainDbError where
  | corruption (detail : String)
  | invalidOperation (detail : String)
deriving DecidableEq, Repr

def slotOccupied (slot : SlotNo) : ChainDbError :=
  .invalidOperation s!"slot {slot} already occupied by a different block"

def snapshotOccupied (slot : SlotNo) : ChainDbError :=
  .invalidOperation s!"snapshot at slot {slot} already occupied by different bytes"

/-! ## In memory -/

structure InMemoryChainDb where
  bySlot : BTreeMap SlotNo StoredBlock
  byHash : BTreeMap Hash32 SlotNo

namespace InMemoryChainDb

def new : InMemoryChainDb := ⟨∅, ∅⟩

def putBlock (db : InMemoryChainDb) (block : StoredBlock) :
    Except ChainDbError Unit × InMemoryChainDb :=
  match db.bySlot[block.slot]? with
  | some existing =>
      if existing.hash ≠ block.hash then (.error (slotOccupied block.slot), db)
      else (.ok (), db)
  | none =>
      (.ok (), { db with
        bySlot := db.bySlot.insert block.slot block
        byHash := db.byHash.insert block.hash block.slot })

def getBlockByHash (db : InMemoryChainDb) (hash : Hash32) :
    Except ChainDbError (Option StoredBlock) :=
  .ok (db.byHash[hash]?.bind fun slot => db.bySlot[slot]?)

def getBlockBySlot (db : InMemoryChainDb) (slot : SlotNo) :
    Except ChainDbError (Option StoredBlock) :=
  .ok db.bySlot[slot]?

def tip (db : InMemoryChainDb) : Except ChainDbError (Option ChainTip) :=
  .ok ((db.bySlot.toList.getLast?).map fun entry => ⟨entry.2.hash, entry.2.slot⟩)

def iterFromSlot (db : InMemoryChainDb) (start : SlotNo) : Except ChainDbError (List StoredBlock) :=
  .ok ((db.bySlot.toList.filter fun entry => start ≤ entry.1).map Prod.snd)

def removeBlock (db : InMemoryChainDb) (slot : SlotNo) : InMemoryChainDb :=
  match db.bySlot[slot]? with
  | some block => { db with bySlot := db.bySlot.erase slot, byHash := db.byHash.erase block.hash }
  | none => db

def rollbackToSlot (db : InMemoryChainDb) (slot : SlotNo) :
    Except ChainDbError Unit × InMemoryChainDb :=
  let toRemove := db.bySlot.keys.filter (fun key => slot < key)
  (.ok (), toRemove.foldl removeBlock db)

end InMemoryChainDb

/-! ## Persistent

A table that was never opened for writing does not exist. A write transaction creates the tables
it opens and its changes are visible only once it commits. -/

structure PersistentChainDb where
  blocksBySlot : Option (BTreeMap SlotNo Bytes)
  slotByHash : Option (BTreeMap Hash32 SlotNo)
  hashBySlot : Option (BTreeMap SlotNo Hash32)
  snapshotsBySlot : Option (BTreeMap SlotNo Bytes)

namespace PersistentChainDb

def new : PersistentChainDb := ⟨none, none, none, none⟩

/-- The first hash of the index, in hash order, that maps to the slot. -/
def scanForSlot (hashes : BTreeMap Hash32 SlotNo) (slot : SlotNo) : Option Hash32 :=
  (hashes.toList.find? fun entry => entry.2 = slot).map Prod.fst

def hashForSlot (db : PersistentChainDb) (slot : SlotNo) : Option Hash32 :=
  match db.hashBySlot.bind fun bySlot => bySlot[slot]? with
  | some hash => some hash
  | none => db.slotByHash.bind fun hashes => scanForSlot hashes slot

def putBlock (db : PersistentChainDb) (block : StoredBlock) :
    Except ChainDbError Unit × PersistentChainDb :=
  let blocks := db.blocksBySlot.getD ∅
  let hashes := db.slotByHash.getD ∅
  if blocks.contains block.slot then
    if scanForSlot hashes block.slot = some block.hash then
      (.ok (), { db with blocksBySlot := some blocks, slotByHash := some hashes })
    else (.error (slotOccupied block.slot), db)
  else
    (.ok (), { db with
      blocksBySlot := some (blocks.insert block.slot block.bytes)
      slotByHash := some (hashes.insert block.hash block.slot)
      hashBySlot := some ((db.hashBySlot.getD ∅).insert block.slot block.hash) })

def getBlockByHash (db : PersistentChainDb) (hash : Hash32) :
    Except ChainDbError (Option StoredBlock) :=
  match db.slotByHash.bind fun hashes => hashes[hash]? with
  | none => .ok none
  | some slot =>
      .ok ((db.blocksBySlot.bind fun blocks => blocks[slot]?).map fun bytes => ⟨hash, slot, bytes⟩)

def getBlockBySlot (db : PersistentChainDb) (slot : SlotNo) :
    Except ChainDbError (Option StoredBlock) :=
  match db.blocksBySlot.bind fun blocks => blocks[slot]? with
  | none => .ok none
  | some bytes =>
      match db.hashForSlot slot with
      | some hash => .ok (some ⟨hash, slot, bytes⟩)
      | none => .error (.corruption s!"slot {slot} present without hash index entry")

def tip (db : PersistentChainDb) : Except ChainDbError (Option ChainTip) :=
  match db.blocksBySlot.bind fun blocks => blocks.keys.getLast? with
  | none => .ok none
  | some slot =>
      match db.hashForSlot slot with
      | some hash => .ok (some ⟨hash, slot⟩)
      | none => .error (.corruption "tip slot present in blocks but absent from hash index")

def indexedBlock (bySlot : Option (BTreeMap SlotNo Hash32)) (hashes : BTreeMap Hash32 SlotNo)
    (entry : SlotNo × Bytes) : Except ChainDbError StoredBlock :=
  match bySlot.bind fun index => index[entry.1]? with
  | some hash => .ok ⟨hash, entry.1, entry.2⟩
  | none =>
      match scanForSlot hashes entry.1 with
      | some hash => .ok ⟨hash, entry.1, entry.2⟩
      | none => .error (.corruption s!"iter: slot {entry.1} present without hash index entry")

def iterFromSlot (db : PersistentChainDb) (start : SlotNo) :
    Except ChainDbError (List StoredBlock) :=
  match db.blocksBySlot, db.slotByHash with
  | none, _ => .ok []
  | some _, none => .error (.corruption "redb table: Table 'slot_by_hash' does not exist")
  | some blocks, some hashes =>
      (blocks.toList.filter fun entry => start ≤ entry.1).mapM (indexedBlock db.hashBySlot hashes)

/-- The range starts at `slot + 1` in the machine's arithmetic. -/
def rollbackToSlot (db : PersistentChainDb) (slot : SlotNo) :
    Except ChainDbError Unit × PersistentChainDb :=
  let blocks := db.blocksBySlot.getD ∅
  let hashes := db.slotByHash.getD ∅
  let toRemove := blocks.keys.filter (fun key => slot + 1 ≤ key)
  let hashesToRemove := (hashes.toList.filter fun entry => toRemove.contains entry.2).map Prod.fst
  (.ok (), { db with
    blocksBySlot := some (toRemove.foldl (fun table key => table.erase key) blocks)
    slotByHash := some (hashesToRemove.foldl (fun table key => table.erase key) hashes)
    hashBySlot := some (toRemove.foldl (fun table key => table.erase key) (db.hashBySlot.getD ∅)) })

def putSnapshot (db : PersistentChainDb) (slot : SlotNo) (bytes : Bytes) :
    Except ChainDbError Unit × PersistentChainDb :=
  let snapshots := db.snapshotsBySlot.getD ∅
  match snapshots[slot]? with
  | some existing =>
      if existing = bytes then (.ok (), { db with snapshotsBySlot := some snapshots })
      else (.error (snapshotOccupied slot), db)
  | none => (.ok (), { db with snapshotsBySlot := some (snapshots.insert slot bytes) })

def getSnapshot (db : PersistentChainDb) (slot : SlotNo) : Except ChainDbError (Option Bytes) :=
  .ok (db.snapshotsBySlot.bind fun snapshots => snapshots[slot]?)

def listSnapshotSlots (db : PersistentChainDb) : Except ChainDbError (List SlotNo) :=
  .ok ((db.snapshotsBySlot.map fun snapshots => snapshots.keys).getD [])

end PersistentChainDb

/-! ## Calls -/

inductive ChainDbCall where
  | putBlock (block : StoredBlock)
  | getBlockByHash (hash : Hash32)
  | getBlockBySlot (slot : SlotNo)
  | tip
  | iterFromSlot (start : SlotNo)
  | rollbackToSlot (slot : SlotNo)

inductive ChainDbReply where
  | done
  | block (found : Option StoredBlock)
  | tip (found : Option ChainTip)
  | blocks (found : List StoredBlock)
deriving DecidableEq, Repr

def InMemoryChainDb.call (db : InMemoryChainDb) :
    ChainDbCall → Except ChainDbError ChainDbReply × InMemoryChainDb
  | .putBlock block => ((db.putBlock block).1.map fun _ => .done, (db.putBlock block).2)
  | .getBlockByHash hash => ((db.getBlockByHash hash).map .block, db)
  | .getBlockBySlot slot => ((db.getBlockBySlot slot).map .block, db)
  | .tip => (db.tip.map .tip, db)
  | .iterFromSlot start => ((db.iterFromSlot start).map .blocks, db)
  | .rollbackToSlot slot =>
      ((db.rollbackToSlot slot).1.map fun _ => .done, (db.rollbackToSlot slot).2)

def PersistentChainDb.call (db : PersistentChainDb) :
    ChainDbCall → Except ChainDbError ChainDbReply × PersistentChainDb
  | .putBlock block => ((db.putBlock block).1.map fun _ => .done, (db.putBlock block).2)
  | .getBlockByHash hash => ((db.getBlockByHash hash).map .block, db)
  | .getBlockBySlot slot => ((db.getBlockBySlot slot).map .block, db)
  | .tip => (db.tip.map .tip, db)
  | .iterFromSlot start => ((db.iterFromSlot start).map .blocks, db)
  | .rollbackToSlot slot =>
      ((db.rollbackToSlot slot).1.map fun _ => .done, (db.rollbackToSlot slot).2)

/-- The two stores side by side. -/
structure Stores where
  memory : InMemoryChainDb
  persistent : PersistentChainDb

namespace Stores

def new : Stores := ⟨.new, .new⟩

def call (stores : Stores) (request : ChainDbCall) : Stores :=
  ⟨(stores.memory.call request).2, (stores.persistent.call request).2⟩

/-- The block's hash is not stored at another slot. -/
def KeepsHashesUnique (stores : Stores) : ChainDbCall → Prop
  | .putBlock block => ∀ slot stored, stores.memory.bySlot[slot]? = some stored →
      stored.hash = block.hash → slot = block.slot
  | _ => True

/-- A rollback to the highest slot number finds the store empty. -/
def AvoidsTopSlot (stores : Stores) : ChainDbCall → Prop
  | .rollbackToSlot slot => slot.toNat = 2 ^ 64 - 1 → stores.memory.bySlot = ∅
  | _ => True

def Step (stores : Stores) (request : ChainDbCall) (next : Stores) : Prop :=
  stores.KeepsHashesUnique request ∧ stores.AvoidsTopSlot request ∧ next = stores.call request

end Stores

/-- The three tables of the persistent store describe the same blocks. -/
def PersistentChainDb.Consistent (db : PersistentChainDb) : Prop :=
  (db.blocksBySlot = none ∧ db.slotByHash = none ∧ db.hashBySlot = none) ∨
  ∃ blocks hashes bySlot, db.blocksBySlot = some blocks ∧ db.slotByHash = some hashes ∧
    db.hashBySlot = some bySlot ∧
    (∀ slot : SlotNo, slot ∈ blocks ↔ slot ∈ bySlot) ∧
    (∀ (slot : SlotNo) (hash : Hash32), bySlot[slot]? = some hash ↔ hashes[hash]? = some slot)

end Ade.ChainDb
