import Ade.Network.Messages
import Ade.Participant.Pump

/-! What a participant does with a block or a rollback of a peer. -/

namespace Ade.Participant
open Library ChainDb Codec.Shelley Consensus Receive Rollback ForwardSync Wal BlockValidity

/-! ## Classifying a block -/

inductive VenueRole where
  | unknown
  | singleProducer
  | participant
deriving DecidableEq, Repr

structure CandidateSummary where
  slot : SlotNo
  blockNo : BlockNo
  hash : Hash32
  prevHash : PrevHash

inductive ReceiveClass where
  | alreadyHave
  | linearExtend
  | competing
deriving DecidableEq, Repr

inductive ReceiveDisposition where
  | alreadyHave
  | linearExtend
  | refuseSingleProducer
  | needsForkChoice
deriving DecidableEq, Repr

def classifyReceive (durableTip : TipPoint) (candidate : CandidateSummary) (inSpine : Bool) :
    ReceiveClass :=
  if inSpine then .alreadyHave
  else if candidate.prevHash = .block durableTip.hash ∧ candidate.blockNo = durableTip.blockNo + 1 then
    .linearExtend
  else .competing

def resolveDisposition (class_ : ReceiveClass) (venue : VenueRole) : ReceiveDisposition :=
  match class_ with
  | .alreadyHave => .alreadyHave
  | .linearExtend => .linearExtend
  | .competing =>
      match venue with
      | .participant => .needsForkChoice
      | .singleProducer => .refuseSingleProducer
      | .unknown => .refuseSingleProducer

def durableTipMatches (tip : Option ChainTip) (expectedSlot : SlotNo) (expectedHash : Hash32) : Bool :=
  match tip with
  | some t => t.slot = expectedSlot ∧ t.hash = expectedHash
  | none => false

variable {env : Environment} (shell : Shell env)

/-! ## Applying a decision to the store -/

inductive ChainEvent where
  | chainExtended
  | rolledBack (toPoint : Point)
  | rolledForward
  | chainSelected (newTip : Point)
  | rejected

inductive ApplyError (env : Environment) where
  | materialize (error : MaterializeError env.Failure)
  | commitRollback (error : ChainWriteError)
  | pump (error : PumpError env)
  | missingRollForwardBlock
  | reconciliationMismatch (expectedSlot : SlotNo) (expectedHash : Hash32) (actual : Option ChainTip)

def State.tip (state : State env) : Option ChainTip :=
  match state.chaindb.tip with
  | .ok tip => tip
  | .error _ => none

/-- The durable tip must be where the decision wants it. -/
def reconcile (state : State env) (expected : Point) :
    Except (ApplyError env) (Option Point × State env) :=
  if durableTipMatches state.tip expected.slot expected.hash then .ok (some expected, state)
  else .error (.reconciliationMismatch expected.slot expected.hash state.tip)

/-- The state once a rollback is committed, before it is logged. -/
def rolledBackState (state : State env) (receive : ReceiveState env.kinds)
    (chaindb : PersistentChainDb) : State env :=
  { state with fwd := { state.fwd with receive, priorFp := shell.fingerprint receive.ledger }, chaindb }

def rollbackEntry (state : State env) (toPoint : Point) (toBlockNo : BlockNo)
    (reason : RollbackReason) : WalEntry :=
  let rbPoint : RollbackPoint := ⟨toPoint.slot, toPoint.hash, toBlockNo⟩
  let prior := state.fwd.receive.chainDep
  .rollBack rbPoint reason
    ⟨prior.lastSlot.getD 0, (state.tip.map ChainTip.hash).getD (Vector.replicate 32 0),
      prior.lastBlockNo.getD 0⟩ rbPoint

def applyChainEvent (state : State env) (event : ChainEvent) (reason : RollbackReason)
    (rollForwardBlock : Option Bytes) : Except (ApplyError env) (Option Point × State env) :=
  match event with
  | .rolledBack toPoint => do
      let (newLedger, newChainDep) ← (materializeRolledBackState shell.rules state.chaindb
        state.recoveredEta0 toPoint.slot).mapError .materialize
      match commitRollback (chainDbWriter (authorities env) persistentCalls) state.fwd.receive
          state.chaindb toPoint.slot newLedger newChainDep with
      | (.error error, _, _) => throw (.commitRollback error)
      | (.ok (), receive, chaindb) =>
          let committed := rolledBackState shell state receive chaindb
          let entry := rollbackEntry state toPoint (newChainDep.lastBlockNo.getD 0) reason
          reconcile { committed with wal := committed.wal ++ [entry] } toPoint
  | .chainSelected newTip =>
      match rollForwardBlock with
      | none => .error .missingRollForwardBlock
      | some bytes =>
          match pumpBlock shell state bytes with
          | (.error error, _) => .error (.pump error)
          | (.ok _, pumped) => reconcile pumped newTip
  | .chainExtended | .rolledForward | .rejected => .ok (none, state)

/-! ## The messages of a peer -/

inductive NodeSyncError (env : Environment) where
  | decode (error : env.Failure)
  | store (error : ChainDbError)
  | pump (error : PumpError env)
  | apply (error : ApplyError env)
  | unexpectedRollback
  | rollbackPointSlotMismatch (peerSlot storedSlot : SlotNo) (hash : Hash32)
  | accumulator

/-- The store of the epoch accumulator, which a rollback asks first and tells afterwards. -/
structure AccumulatorStore where
  admitAndClear : Point → Bool
  recertify : Bool

def askAccumulator (admitted : Bool) : Except (NodeSyncError env) Unit :=
  if admitted then .ok () else .error .accumulator

/-- The anchor that the node recovered from is not a stored block. -/
def isRecoveredAnchor (state : State env) (slot : SlotNo) (hash : Hash32) : Bool :=
  match state.recoveredAnchor with
  | some anchor => slot = anchor.slot ∧ hash = anchor.hash
  | none => false

def resolveAndApplyPeerRollback (accumulator : AccumulatorStore) (state : State env) :
    Network.Point → Except (NodeSyncError env) (State env)
  | .origin => .error .unexpectedRollback
  | .block slot hash =>
      if isRecoveredAnchor state slot hash then .ok state
      else do
        match ← (state.chaindb.getBlockByHash hash).mapError .store with
        | none => throw .unexpectedRollback
        | some stored =>
            if slot ≠ stored.slot then throw (.rollbackPointSlotMismatch slot stored.slot hash)
            let target : Point := ⟨stored.slot, hash⟩
            askAccumulator (accumulator.admitAndClear target)
            let (_, applied) ← (applyChainEvent shell state (.rolledBack target) .peerRollBackward
              none).mapError .apply
            askAccumulator accumulator.recertify
            return applied

/-- An error of the pump stops the node. -/
def admitBlock (state : State env) (blockBytes : Bytes) : Except (NodeSyncError env) (State env) :=
  match pumpBlock shell state blockBytes with
  | (.error error, _) => .error (.pump error)
  | (.ok _, pumped) => .ok pumped

/-- A competing block goes to the fork choice, which leaves the durable state as it is. -/
def receiveBlock (state : State env) (blockBytes : Bytes) : Except (NodeSyncError env) (State env) := do
  let decoded ← (decodeBlock env blockBytes).mapError .decode
  match ← state.chaindb.tip.mapError .store with
  | none => admitBlock shell state blockBytes
  | some tip =>
      let durableTip : TipPoint :=
        ⟨tip.slot, tip.hash, state.fwd.receive.chainDep.lastBlockNo.getD 0⟩
      let candidate : CandidateSummary :=
        ⟨decoded.headerInput.slot, decoded.headerInput.blockNo, decoded.blockHash, decoded.prevHash⟩
      let stored ← (state.chaindb.getBlockByHash candidate.hash).mapError .store
      match resolveDisposition (classifyReceive durableTip candidate stored.isSome) .participant with
      | .alreadyHave => return state
      | .linearExtend => admitBlock shell state blockBytes
      | .needsForkChoice => return state
      | .refuseSingleProducer => throw .unexpectedRollback

end Ade.Participant
