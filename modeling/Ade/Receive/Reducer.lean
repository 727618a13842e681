import Ade.ChainDb.Store
import Ade.Receive.BlockValidity
import Ade.Rollback.Materialize

/-! The reducer of the receive side: headers are cached, blocks validated, stored and applied. -/

namespace Ade.Receive
open Std Library Consensus ChainDb Rollback

variable {K : Kinds} {W : Type}

/-! ## Pending headers -/

/-- Keyed by slot and hash. -/
structure PendingHeaderCache where
  entries : BTreeMap Point Bytes
deriving DecidableEq

inductive PendingHeaderCacheError where
  | byteConflict (slot : SlotNo) (hash : Hash32)

namespace PendingHeaderCache

def new : PendingHeaderCache := ⟨∅⟩

def len (cache : PendingHeaderCache) : Nat := cache.entries.size

def contains (cache : PendingHeaderCache) (slot : SlotNo) (hash : Hash32) : Bool :=
  cache.entries.contains ⟨slot, hash⟩

def insert (cache : PendingHeaderCache) (slot : SlotNo) (hash : Hash32) (headerBytes : Bytes) :
    Except PendingHeaderCacheError Unit × PendingHeaderCache :=
  match cache.entries[(⟨slot, hash⟩ : Point)]? with
  | some existing =>
      if existing = headerBytes then (.ok (), cache) else (.error (.byteConflict slot hash), cache)
  | none => (.ok (), ⟨cache.entries.insert ⟨slot, hash⟩ headerBytes⟩)

def remove (cache : PendingHeaderCache) (slot : SlotNo) (hash : Hash32) : PendingHeaderCache :=
  ⟨cache.entries.erase ⟨slot, hash⟩⟩

end PendingHeaderCache

/-! ## Writing to the chain store -/

inductive ChainWriteErrorKind where
  | io
  | invalidOperation
  | other
deriving DecidableEq, Repr

inductive ChainWriteError where
  | slotConflict (slot : SlotNo) (hash : Hash32)
  | underlying (kind : ChainWriteErrorKind)
deriving DecidableEq, Repr

/-- An implementation of the trait over stores of type `W`. -/
structure ChainDbWrite (W : Type) where
  writeAdmitted : AdmittedBlock → W → Except ChainWriteError Unit × W
  rollbackToSlot : SlotNo → W → Except ChainWriteError Unit × W

/-- A call that fails changes nothing. -/
structure ChainDbWrite.KeepsStoreOnError (write : ChainDbWrite W) : Prop where
  writeAdmitted : ∀ block store error after,
    write.writeAdmitted block store = (.error error, after) → after = store
  rollbackToSlot : ∀ slot store error after,
    write.rollbackToSlot slot store = (.error error, after) → after = store

/-- What `ChainDbWriter` uses of a chain database. -/
structure ChainDbCalls (D : Type) where
  putBlock : D → StoredBlock → Except ChainDbError Unit × D
  rollbackToSlot : D → SlotNo → Except ChainDbError Unit × D

def inMemoryCalls : ChainDbCalls InMemoryChainDb :=
  ⟨InMemoryChainDb.putBlock, InMemoryChainDb.rollbackToSlot⟩

def persistentCalls : ChainDbCalls PersistentChainDb :=
  ⟨PersistentChainDb.putBlock, PersistentChainDb.rollbackToSlot⟩

def mapChaindbErr (slot : SlotNo) (hash : Hash32) : ChainDbError → ChainWriteError
  | .invalidOperation _ => .slotConflict slot hash
  | _ => .underlying .other

def chainDbWriter {D : Type} (authorities : Authorities K) (db : ChainDbCalls D) :
    ChainDbWrite D where
  writeAdmitted block store :=
    match authorities.decodeBlock block.bytes with
    | .error _ => (.error (.underlying .other), store)
    | .ok decoded =>
        let (result, after) := db.putBlock store ⟨decoded.blockHash, decoded.slot, block.bytes⟩
        (result.mapError (mapChaindbErr decoded.slot decoded.blockHash), after)
  rollbackToSlot slot store :=
    let (result, after) := db.rollbackToSlot store slot
    (result.mapError fun _ => .underlying .other, after)

/-! ## Events -/

structure TipPoint where
  slot : SlotNo
  hash : Hash32
  blockNo : UInt64

inductive ReceiveEvent where
  | rollForward (slot : SlotNo) (hash : Hash32) (headerBytes : Bytes) (tip : TipPoint)
  | rollBackward (targetPoint : Point) (tip : TipPoint)
  | blockDelivered (blockBytes : Bytes)

inductive NoOpReason where
  | headerAlreadyCached

inductive ReceiveEffect where
  | admitted (slot : SlotNo) (hash : Hash32)
  | cached (slot : SlotNo) (hash : Hash32)
  | rolledBack (toSlot : SlotNo)
  | noOp (reason : NoOpReason)

inductive ReceiveError (K : Kinds) where
  | headerBodyMismatch (decodedSlot : SlotNo) (decodedHash : Hash32)
  | validity (error : BlockValidityError K)
  | rollbackOutOfScope (targetPoint : Point)
  | chainDb (error : ChainWriteError)

structure ReceiveState (K : Kinds) where
  ledger : K.Ledger
  chainDep : PraosChainDepState
  pendingHeaders : PendingHeaderCache

/-- What a rollback materializes at a slot. -/
abbrev RollbackContext (K : Kinds) :=
  SlotNo → Except (MaterializeError (BlockValidityError K)) (K.Ledger × PraosChainDepState)

/-- The result of one event, with the state and the store it leaves. -/
structure Received (K : Kinds) (W : Type) where
  result : Except (ReceiveError K) ReceiveEffect
  state : ReceiveState K
  store : W

/-! ## The reducer -/

def rollForward (state : ReceiveState K) (slot : SlotNo) (hash : Hash32) (headerBytes : Bytes) :
    Except (ReceiveError K) ReceiveEffect × ReceiveState K :=
  let preLen := state.pendingHeaders.len
  let alreadyPresent := state.pendingHeaders.contains slot hash
  let (inserted, pendingHeaders) := state.pendingHeaders.insert slot hash headerBytes
  let after := { state with pendingHeaders := pendingHeaders }
  match inserted with
  | .ok () =>
      if alreadyPresent ∧ pendingHeaders.len = preLen then (.ok (.noOp .headerAlreadyCached), after)
      else (.ok (.cached slot hash), after)
  | .error (.byteConflict slot hash) => (.error (.headerBodyMismatch slot hash), after)

def blockDelivered (authorities : Authorities K) (write : ChainDbWrite W) (state : ReceiveState K)
    (store : W) (blockBytes : Bytes) : Received K W :=
  match authorities.decodeBlock blockBytes with
  | .error error => ⟨.error (.validity error), state, store⟩
  | .ok decoded =>
      if ¬ state.pendingHeaders.contains decoded.slot decoded.blockHash then
        ⟨.error (.headerBodyMismatch decoded.slot decoded.blockHash), state, store⟩
      else
        match admitViaBlockValidity authorities blockBytes state.ledger state.chainDep with
        | .error error => ⟨.error (.validity error), state, store⟩
        | .ok outcome =>
            match write.writeAdmitted outcome.admitted store with
            | (.error error, after) => ⟨.error (.chainDb error), state, after⟩
            | (.ok (), after) =>
                ⟨.ok (.admitted decoded.slot decoded.blockHash),
                  { ledger := outcome.ledger
                    chainDep := outcome.chainDep
                    pendingHeaders := state.pendingHeaders.remove decoded.slot decoded.blockHash },
                  after⟩

def mapMaterializeErr : MaterializeError (BlockValidityError K) → ReceiveError K
  | .rollbackTooDeep targetSlot _ => .rollbackOutOfScope ⟨targetSlot, Vector.replicate 32 0⟩
  | .replayFailedAt _ error => .validity error
  | .eraNotSupported _ slot => .rollbackOutOfScope ⟨slot, Vector.replicate 32 0⟩

def commitRollback (write : ChainDbWrite W) (state : ReceiveState K) (store : W) (slot : SlotNo)
    (newLedger : K.Ledger) (newChainDep : PraosChainDepState) :
    Except ChainWriteError Unit × ReceiveState K × W :=
  match write.rollbackToSlot slot store with
  | (.error error, after) => (.error error, state, after)
  | (.ok (), after) => (.ok (), ⟨newLedger, newChainDep, .new⟩, after)

def rollBackward (write : ChainDbWrite W) (context : RollbackContext K) (state : ReceiveState K)
    (store : W) (targetPoint : Point) : Received K W :=
  match context targetPoint.slot with
  | .error failure => ⟨.error (mapMaterializeErr failure), state, store⟩
  | .ok (newLedger, newChainDep) =>
      match commitRollback write state store targetPoint.slot newLedger newChainDep with
      | (.error error, after, stored) => ⟨.error (.chainDb error), after, stored⟩
      | (.ok (), after, stored) => ⟨.ok (.rolledBack targetPoint.slot), after, stored⟩

def receiveApply (authorities : Authorities K) (write : ChainDbWrite W)
    (rollbackCtx : Option (RollbackContext K)) (state : ReceiveState K) (store : W) :
    ReceiveEvent → Received K W
  | .rollForward slot hash headerBytes _ =>
      let (result, after) := rollForward state slot hash headerBytes
      ⟨result, after, store⟩
  | .blockDelivered blockBytes => blockDelivered authorities write state store blockBytes
  | .rollBackward targetPoint _ =>
      match rollbackCtx with
      | some context => rollBackward write context state store targetPoint
      | none => ⟨.error (.rollbackOutOfScope targetPoint), state, store⟩

/-! ## Sequences of events -/

/-- The same implementation with a log of the blocks it wrote. -/
def ChainDbWrite.logged (write : ChainDbWrite W) : ChainDbWrite (W × List AdmittedBlock) where
  writeAdmitted block store :=
    match write.writeAdmitted block store.1 with
    | (.ok (), after) => (.ok (), (after, store.2 ++ [block]))
    | (.error error, after) => (.error error, (after, store.2))
  rollbackToSlot slot store :=
    match write.rollbackToSlot slot store.1 with
    | (result, after) => (result, (after, store.2))

/-- The state and the store after a sequence of events, whatever each of them returned. -/
def receiveAll (authorities : Authorities K) (write : ChainDbWrite W)
    (rollbackCtx : Option (RollbackContext K)) :
    List ReceiveEvent → ReceiveState K × W → ReceiveState K × W
  | [], current => current
  | event :: events, current =>
      let received := receiveApply authorities write rollbackCtx current.1 current.2 event
      receiveAll authorities write rollbackCtx events (received.state, received.store)

def ReceiveEvent.isRollBackward : ReceiveEvent → Bool
  | .rollBackward _ _ => true
  | _ => false

/-- One block of the fold: the states that a valid block leads to. -/
def applyValid (authorities : Authorities K) (current : K.Ledger × PraosChainDepState)
    (block : AdmittedBlock) : Except (BlockValidityError K) (K.Ledger × PraosChainDepState) :=
  (admitViaBlockValidity authorities block.bytes current.1 current.2).map fun outcome =>
    (outcome.ledger, outcome.chainDep)

end Ade.Receive
