import Ade.Receive.Reducer
import Ade.Wal.Entry

/-! The reducer of the forward sync: an admitted block becomes an ordered plan of durable effects. -/

namespace Ade.ForwardSync
open Library ChainDb Receive Wal

variable {K : Kinds} {W C : Type}

inductive SyncEffect where
  | storeBlockBytes (block : StoredBlock)
  | appendWal (entry : WalEntry)
  | commitCheckpoint (slot : SlotNo)
  | advanceTip (slot : SlotNo) (hash : Hash32)

/-- Only `durable` and `empty` build plans. -/
structure AdmitPlan where
  effects : List SyncEffect

namespace AdmitPlan

def durable (stored : StoredBlock) (wal : WalEntry) (checkpointSlot : Option SlotNo)
    (tipSlot : SlotNo) (tipHash : Hash32) : AdmitPlan :=
  ⟨[.storeBlockBytes stored, .appendWal wal] ++
    (checkpointSlot.map SyncEffect.commitCheckpoint).toList ++ [.advanceTip tipSlot tipHash]⟩

def empty : AdmitPlan := ⟨[]⟩

end AdmitPlan

structure SnapshotCadence where
  everyNBlocks : UInt32
deriving DecidableEq, Repr

def shouldSnapshotAfterBlock (slot : SlotNo) (blockNo : BlockNo) (cadence : SnapshotCadence)
    (lastSnapshot : Option SlotNo) : Bool :=
  if cadence.everyNBlocks = 0 then false
  else if blockNo % cadence.everyNBlocks.toUInt64 ≠ 0 then false
  else
    match lastSnapshot with
    | some last => ¬ last ≥ slot
    | none => true

/-- `C` caches the part of the fingerprint that is of the UTxO. -/
structure ForwardSyncState (K : Kinds) (C : Type) where
  receive : ReceiveState K
  priorFp : Hash32
  cadence : SnapshotCadence
  lastCheckpoint : Option SlotNo
  utxoFpCache : C

def deliveredBytes : ReceiveEvent → Option Bytes
  | .blockDelivered blockBytes => some blockBytes
  | _ => none

variable (authorities : Authorities K) (write : ChainDbWrite W)
  (fingerprint : C → K.Ledger → C × Hash32)

/-- The state once a block is admitted, its entry of the log and whether to take a snapshot. -/
def recordAdmitted (state : ForwardSyncState K C) (slot : SlotNo) (hash : Hash32) :
    ForwardSyncState K C × WalEntry × Option SlotNo :=
  let (utxoFpCache, postFp) := fingerprint state.utxoFpCache state.receive.ledger
  let wal : WalEntry := .admitBlock state.priorFp hash slot .valid postFp
  let after := { state with priorFp := postFp, utxoFpCache }
  match state.receive.chainDep.lastBlockNo with
  | none => (after, wal, none)
  | some blockNo =>
      if shouldSnapshotAfterBlock slot blockNo state.cadence state.lastCheckpoint then
        ({ after with lastCheckpoint := some slot }, wal, some slot)
      else (after, wal, none)

/-- The result of one event, with the state and the store it leaves. -/
structure Synced (K : Kinds) (W C : Type) where
  result : Except (ReceiveError K) AdmitPlan
  state : ForwardSyncState K C
  store : W

def forwardSyncStep (state : ForwardSyncState K C) (store : W) (event : ReceiveEvent) :
    Synced K W C :=
  let received := receiveApply authorities write none state.receive store event
  let after := { state with receive := received.state }
  match received.result with
  | .error error => ⟨.error error, after, received.store⟩
  | .ok (.admitted slot hash) =>
      let bytes := (deliveredBytes event).getD []
      let (recorded, wal, checkpointSlot) := recordAdmitted fingerprint after slot hash
      ⟨.ok (.durable ⟨hash, slot, bytes⟩ wal checkpointSlot slot hash), recorded, received.store⟩
  | .ok _ => ⟨.ok .empty, after, received.store⟩

/-! ## Sequences of events -/

def Synced.effects (synced : Synced K W C) : List SyncEffect :=
  match synced.result with
  | .ok plan => plan.effects
  | .error _ => []

/-- The state and the store after a sequence of events, and all effects planned in it. -/
def forwardSyncAll (state : ForwardSyncState K C) (store : W) :
    List ReceiveEvent → ForwardSyncState K C × W × List SyncEffect
  | [] => (state, store, [])
  | event :: events =>
      let synced := forwardSyncStep authorities write fingerprint state store event
      let rest := forwardSyncAll synced.state synced.store events
      (rest.1, rest.2.1, synced.effects ++ rest.2.2)

def SyncEffect.walEntry : SyncEffect → Option WalEntry
  | .appendWal entry => some entry
  | _ => none

def SyncEffect.storedBlock : SyncEffect → Option StoredBlock
  | .storeBlockBytes block => some block
  | _ => none

def SyncEffect.checkpoint : SyncEffect → Option SlotNo
  | .commitCheckpoint slot => some slot
  | _ => none

def SyncEffect.storedPoint : SyncEffect → Option Point
  | .storeBlockBytes block => some ⟨block.slot, block.hash⟩
  | _ => none

def SyncEffect.loggedPoint : SyncEffect → Option Point
  | .appendWal (.admitBlock _ blockHash slot _ _) => some ⟨slot, blockHash⟩
  | _ => none

def SyncEffect.tip : SyncEffect → Option Point
  | .advanceTip slot hash => some ⟨slot, hash⟩
  | _ => none

/-- Wherever the effects break off, every tip is of a logged block and every logged block is stored. -/
def DurableBeforeTip (effects : List SyncEffect) : Prop :=
  ∀ done, done <+: effects →
    done.filterMap SyncEffect.tip <+: done.filterMap SyncEffect.loggedPoint ∧
      done.filterMap SyncEffect.loggedPoint <+: done.filterMap SyncEffect.storedPoint

end Ade.ForwardSync
