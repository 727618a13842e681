import Ade.ChainDb.Store
import Ade.Consensus.PraosState

/-! Snapshots of the ledger and the states that a rollback rebuilds from them.

Block validation and the snapshot codec are parameters. -/

namespace Ade.Rollback
open Std Library ChainDb Consensus

/-- What the rollback path calls and does not look into. `Failure` is the type of their errors. -/
structure Rules (Ledger Failure : Type) where
  /-- `block_validity`. -/
  validate : Ledger → PraosChainDepState → Bytes → Except Failure (Ledger × PraosChainDepState)
  /-- `block_validity_trusted_replay` with the era schedule extended to the target slot. -/
  trustedReplay : SlotNo → Ledger → PraosChainDepState → Bytes →
    Except Failure (Ledger × PraosChainDepState)
  /-- The era that `decode_block_envelope` reads. -/
  envelopeEra : Bytes → Except Failure CardanoEra
  encodeSnapshot : Ledger → PraosChainDepState → Except Failure Bytes
  decodeSnapshot : Bytes → Except Failure (Ledger × PraosChainDepState)

variable {Ledger Failure : Type}

/-! ## Capturing -/

structure SnapshotCadence where
  everyNBlocks : UInt32

def shouldSnapshotAfterBlock (slot : SlotNo) (blockNo : BlockNo) (cadence : SnapshotCadence)
    (lastSnapshot : Option SlotNo) : Bool :=
  if cadence.everyNBlocks = 0 then false
  else if blockNo % cadence.everyNBlocks.toUInt64 ≠ 0 then false
  else
    match lastSnapshot with
    | some last => ¬ last ≥ slot
    | none => true

inductive PersistentCacheError (Failure : Type) where
  | encode (failure : Failure)
  | store (error : ChainDbError)

/-- `PersistentSnapshotCache::capture`. -/
def capture (rules : Rules Ledger Failure) (db : PersistentChainDb) (slot : SlotNo)
    (ledger : Ledger) (chainDep : PraosChainDepState) :
    Except (PersistentCacheError Failure) Unit × PersistentChainDb :=
  match rules.encodeSnapshot ledger chainDep with
  | .error failure => (.error (.encode failure), db)
  | .ok bytes =>
      match db.putSnapshot slot bytes with
      | (.ok (), stored) => (.ok (), stored)
      | (.error failure, stored) => (.error (.store failure), stored)

structure PersistentSnapshotWriter where
  db : PersistentChainDb
  cadence : SnapshotCadence
  lastCapture : Option SlotNo

def onAdmitted (rules : Rules Ledger Failure) (writer : PersistentSnapshotWriter) (slot : SlotNo)
    (blockNo : BlockNo) (ledger : Ledger) (chainDep : PraosChainDepState) :
    Except (PersistentCacheError Failure) Bool × PersistentSnapshotWriter :=
  if shouldSnapshotAfterBlock slot blockNo writer.cadence writer.lastCapture then
    match capture rules writer.db slot ledger chainDep with
    | (.ok (), db) => (.ok true, { writer with db := db, lastCapture := some slot })
    | (.error failure, db) => (.error failure, { writer with db := db })
  else (.ok false, writer)

/-! ## Materializing -/

def nearestSlot (db : PersistentChainDb) (targetSlot : SlotNo) : Option SlotNo := do
  let slots ← db.listSnapshotSlots.toOption
  slots.reverse.find? (fun slot => slot ≤ targetSlot)

def nearestLe (rules : Rules Ledger Failure) (db : PersistentChainDb) (targetSlot : SlotNo) :
    Option (SlotNo × Ledger × PraosChainDepState) := do
  let candidate ← nearestSlot db targetSlot
  let bytes ← (← (db.getSnapshot candidate).toOption)
  let (ledger, chainDep) ← (rules.decodeSnapshot bytes).toOption
  return (candidate, ledger, chainDep)

def saturatingSucc (slot : SlotNo) : SlotNo :=
  if slot.toNat = 2 ^ 64 - 1 then slot else slot + 1

/-- The adapter's loop stops at the first block above the range. -/
def blocksInRange (db : PersistentChainDb) (fromExclusive toInclusive : SlotNo) :
    List (SlotNo × Bytes) :=
  match db.iterFromSlot (saturatingSucc fromExclusive) with
  | .ok blocks =>
      (blocks.takeWhile fun block => block.slot ≤ toInclusive).map fun block =>
        (block.slot, block.bytes)
  | .error _ => []

inductive MaterializeError (Failure : Type) where
  | rollbackTooDeep (targetSlot : SlotNo) (oldestSnapshot : Option SlotNo)
  | replayFailedAt (slot : SlotNo) (failure : Failure)
  | eraNotSupported (era : CardanoEra) (slot : SlotNo)
deriving DecidableEq

def isSupportedEra (era : CardanoEra) : Bool := era = .babbage ∨ era = .conway

def replayBlock (rules : Rules Ledger Failure) (targetSlot : SlotNo) (entry : SlotNo × Bytes)
    (state : Ledger × PraosChainDepState) :
    Except (MaterializeError Failure) (Ledger × PraosChainDepState) :=
  match rules.envelopeEra entry.2 with
  | .error failure => .error (.replayFailedAt entry.1 failure)
  | .ok era =>
      if isSupportedEra era then
        match rules.trustedReplay targetSlot state.1 state.2 entry.2 with
        | .ok next => .ok next
        | .error failure => .error (.replayFailedAt entry.1 failure)
      else .error (.eraNotSupported era entry.1)

def replayForward (rules : Rules Ledger Failure) (targetSlot : SlotNo) :
    List (SlotNo × Bytes) → Ledger × PraosChainDepState →
      Except (MaterializeError Failure) (Ledger × PraosChainDepState)
  | [], state => .ok state
  | entry :: entries, state => do
      replayForward rules targetSlot entries (← replayBlock rules targetSlot entry state)

def overlay (recoveredEta0 : Option Nonce) (chainDep : PraosChainDepState) : PraosChainDepState :=
  match recoveredEta0 with
  | some eta0 => chainDep.overlayRecoveredEta0 eta0
  | none => chainDep

def materializeRolledBackState (rules : Rules Ledger Failure) (db : PersistentChainDb)
    (recoveredEta0 : Option Nonce) (targetSlot : SlotNo) :
    Except (MaterializeError Failure) (Ledger × PraosChainDepState) :=
  match nearestLe rules db targetSlot with
  | none => .error (.rollbackTooDeep targetSlot none)
  | some (snapshotSlot, ledger, chainDep) =>
      let start := (ledger, overlay recoveredEta0 chainDep)
      if snapshotSlot = targetSlot then .ok start
      else replayForward rules targetSlot (blocksInRange db snapshotSlot targetSlot) start

/-! ## The node

A node that stores what it accepts, offers every new state to the snapshot writer and rolls back
through the materialized state. It remembers the state it had after each block of its chain, newest
first, and for each snapshot the chain that it was taken on. -/

structure Admission (Ledger : Type) where
  block : StoredBlock
  ledger : Ledger
  chainDep : PraosChainDepState

structure Origin (Ledger : Type) where
  slot : SlotNo
  ledger : Ledger
  chainDep : PraosChainDepState
  recoveredEta0 : Option Nonce

structure Node (Ledger : Type) where
  writer : PersistentSnapshotWriter
  ledger : Ledger
  chainDep : PraosChainDepState
  chain : List (Admission Ledger)
  takenOn : SlotNo → List StoredBlock

namespace Node

/-- A fresh store that holds the initial snapshot. A recovered nonce is laid over the live state. -/
def start (origin : Origin Ledger) (bytes : Bytes) (cadence : SnapshotCadence)
    (lastCapture : Option SlotNo) : Node Ledger where
  writer := ⟨(PersistentChainDb.new.putSnapshot origin.slot bytes).2, cadence, lastCapture⟩
  ledger := origin.ledger
  chainDep := overlay origin.recoveredEta0 origin.chainDep
  chain := []
  takenOn := fun _ => []

def tipSlot (origin : Origin Ledger) (node : Node Ledger) : SlotNo :=
  match node.chain with
  | [] => origin.slot
  | newest :: _ => newest.block.slot

def blocks (node : Node Ledger) : List StoredBlock := node.chain.map Admission.block

def extend (rules : Rules Ledger Failure) (node : Node Ledger) (admission : Admission Ledger)
    (blockNo : BlockNo) : Node Ledger :=
  let stored := (node.writer.db.putBlock admission.block).2
  let offered := onAdmitted rules { node.writer with db := stored } admission.block.slot blockNo
    admission.ledger admission.chainDep
  { writer := offered.2
    ledger := admission.ledger
    chainDep := admission.chainDep
    chain := admission :: node.chain
    takenOn :=
      match offered.1 with
      | .ok true =>
          Function.update node.takenOn admission.block.slot (admission.block :: node.blocks)
      | _ => node.takenOn }

def rewind (node : Node Ledger) (slot : SlotNo) (state : Ledger × PraosChainDepState)
    (chain : List (Admission Ledger)) : Node Ledger :=
  { node with
    writer := { node.writer with db := (node.writer.db.rollbackToSlot slot).2 }
    ledger := state.1
    chainDep := state.2
    chain := chain }

end Node

inductive NodeAction where
  | admitBlock (block : StoredBlock) (blockNo : BlockNo)
  | rollBack (slot : SlotNo)

/-- Header validation rejects a slot at or below the last one, so an accepted block is later than
the tip. -/
inductive NodeStep (rules : Rules Ledger Failure) (origin : Origin Ledger) :
    Node Ledger → NodeAction → Node Ledger → Prop
  | admitBlock {node : Node Ledger} (admission : Admission Ledger) (blockNo : BlockNo)
      (later : node.tipSlot origin < admission.block.slot)
      (accepted : rules.validate node.ledger node.chainDep admission.block.bytes =
        .ok (admission.ledger, admission.chainDep))
      (stored : (node.writer.db.putBlock admission.block).1 = .ok ()) :
      NodeStep rules origin node (.admitBlock admission.block blockNo)
        (node.extend rules admission blockNo)
  | rollBack {node : Node Ledger} (above below : List (Admission Ledger))
      (target : Admission Ledger) (state : Ledger × PraosChainDepState)
      (onChain : node.chain = above ++ target :: below)
      (materialized : materializeRolledBackState rules node.writer.db origin.recoveredEta0
        target.block.slot = .ok state) :
      NodeStep rules origin node (.rollBack target.block.slot)
        (node.rewind target.block.slot state (target :: below))

/-- The snapshot nearest to the target was taken on the current chain. -/
def Node.SnapshotOnChain (node : Node Ledger) (targetSlot : SlotNo) : Prop :=
  ∀ slot ∈ nearestSlot node.writer.db targetSlot,
    node.takenOn slot = node.blocks.filter (fun block => block.slot ≤ slot)

/-- A recovered nonce is never laid over the state: its epoch nonce is not the placeholder. -/
def Settled (origin : Origin Ledger) (chainDep : PraosChainDepState) : Prop :=
  origin.recoveredEta0.isSome → chainDep.epochNonce ≠ Nonce.zero

def SafeAction (origin : Origin Ledger) (node : Node Ledger) (next : Node Ledger) :
    NodeAction → Prop
  | .admitBlock _ _ => Settled origin next.chainDep
  | .rollBack slot => node.SnapshotOnChain slot ∧ slot.toNat ≠ 2 ^ 64 - 1

def SafeStep (rules : Rules Ledger Failure) (origin : Origin Ledger) (node : Node Ledger)
    (action : NodeAction) (next : Node Ledger) : Prop :=
  NodeStep rules origin node action next ∧ SafeAction origin node next action

end Ade.Rollback
