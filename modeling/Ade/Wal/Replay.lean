import Ade.Library.Run
import Ade.Wal.Entry

/-! Replay of the write-ahead log from the bootstrap anchor. -/

namespace Ade.Wal
open Library

structure RecoveredBootstrapProvenance where
  anchorFp : Hash32
  sidecarHash : Hash32
  epochNo : EpochNo
deriving DecidableEq, Repr

structure ReplayOutcome where
  tailFp : Hash32
  provenance : Option RecoveredBootstrapProvenance
  admitCount : Nat
deriving DecidableEq, Repr

/-! ## The look-ahead that marks abandoned admits -/

/-- The admits that are active, latest first, and the marks made so far. -/
structure SupersedeState where
  active : List (Nat × SlotNo)
  superseded : List Bool

/-- Pop and mark every active admit above the rollback target. -/
def popAbove (slot : SlotNo) : List (Nat × SlotNo) → List Bool → SupersedeState
  | [], superseded => ⟨[], superseded⟩
  | (index, top) :: active, superseded =>
      if top > slot then popAbove slot active (superseded.set index true)
      else ⟨(index, top) :: active, superseded⟩

def supersedeStep (index : Nat) (entry : WalEntry) (state : SupersedeState) :
    Except WalError SupersedeState :=
  match entry with
  | .admitBlock _ _ slot _ _ => .ok { state with active := (index, slot) :: state.active }
  | .rollBack toPoint _ _ _ =>
      let popped := popAbove toPoint.slot state.active state.superseded
      match popped.active with
      | (_, top) :: _ =>
          if top = toPoint.slot then .ok popped
          else .error (.rollbackTargetNotInChain index toPoint.slot)
      | [] => .error (.rollbackTargetNotInChain index toPoint.slot)
  | .seedEpochConsensusInputsImported .. => .ok state
  | .epochConsensusViewActivated .. => .ok state

def supersedeLoop : Nat → List WalEntry → SupersedeState → Except WalError SupersedeState
  | _, [], state => .ok state
  | index, entry :: entries, state => do
      supersedeLoop (index + 1) entries (← supersedeStep index entry state)

def computeSuperseded (entries : List WalEntry) : Except WalError (List Bool) := do
  return (← supersedeLoop 0 entries ⟨[], List.replicate entries.length false⟩).superseded

/-! ## The fingerprint walk -/

structure ReplayState where
  prevPostFp : Hash32
  provenance : Option RecoveredBootstrapProvenance
  admitCount : Nat
  pointFp : BTreeMap Point Hash32

def replayStep (anchorInitialLedgerFp : Hash32) (blockBytes : BTreeMap Hash32 Bytes)
    (index : Nat) (entry : WalEntry) (superseded : Bool) (state : ReplayState) :
    Except WalError ReplayState :=
  match entry with
  | .admitBlock priorFp blockHash slot _ postFp =>
      if superseded then .ok state
      else if priorFp ≠ state.prevPostFp then
        .error (.chainBreak index state.prevPostFp priorFp)
      else if ¬ blockBytes.contains blockHash then
        .error (.blockBytesMissing blockHash)
      else
        .ok { state with
          pointFp := state.pointFp.insert ⟨slot, blockHash⟩ postFp
          prevPostFp := postFp
          admitCount := state.admitCount + 1 }
  | .rollBack toPoint _ _ _ =>
      match state.pointFp[toPoint.point]? with
      | some fp => .ok { state with prevPostFp := fp }
      | none => .error (.rollbackTargetNotInChain index toPoint.slot)
  | .seedEpochConsensusInputsImported anchorFp sidecarHash epochNo =>
      if state.provenance.isSome then .error .duplicateProvenance
      else if anchorFp ≠ anchorInitialLedgerFp then
        .error (.provenanceAnchorMismatch anchorInitialLedgerFp anchorFp)
      else .ok { state with provenance := some ⟨anchorFp, sidecarHash, epochNo⟩ }
  | .epochConsensusViewActivated .. => .ok state

/-- The walk reads each entry together with its mark. -/
def replayLoop (anchorInitialLedgerFp : Hash32) (blockBytes : BTreeMap Hash32 Bytes) :
    Nat → List (WalEntry × Bool) → ReplayState → Except WalError ReplayState
  | _, [], state => .ok state
  | index, (entry, superseded) :: entries, state => do
      let next ← replayStep anchorInitialLedgerFp blockBytes index entry superseded state
      replayLoop anchorInitialLedgerFp blockBytes (index + 1) entries next

def replayFromAnchor (anchorInitialLedgerFp : Hash32) (entries : List WalEntry)
    (blockBytes : BTreeMap Hash32 Bytes) : Except WalError ReplayOutcome := do
  let superseded ← computeSuperseded entries
  let final ← replayLoop anchorInitialLedgerFp blockBytes 0 (entries.zip superseded)
    ⟨anchorInitialLedgerFp, none, 0, ∅⟩
  return ⟨final.prevPostFp, final.provenance, final.admitCount⟩

/-! ## Chain verification

The same walk without the block bytes and without the provenance checks. -/

structure VerifyState where
  prevPostFp : Hash32
  pointFp : BTreeMap Point Hash32

def verifyStep (index : Nat) (entry : WalEntry) (superseded : Bool) (state : VerifyState) :
    Except WalError VerifyState :=
  match entry with
  | .admitBlock priorFp blockHash slot _ postFp =>
      if superseded then .ok state
      else if priorFp ≠ state.prevPostFp then
        .error (.chainBreak index state.prevPostFp priorFp)
      else .ok ⟨postFp, state.pointFp.insert ⟨slot, blockHash⟩ postFp⟩
  | .rollBack toPoint _ _ _ =>
      match state.pointFp[toPoint.point]? with
      | some fp => .ok { state with prevPostFp := fp }
      | none => .error (.rollbackTargetNotInChain index toPoint.slot)
  | .seedEpochConsensusInputsImported .. => .ok state
  | .epochConsensusViewActivated .. => .ok state

def verifyLoop : Nat → List (WalEntry × Bool) → VerifyState → Except WalError VerifyState
  | _, [], state => .ok state
  | index, (entry, superseded) :: entries, state => do
      verifyLoop (index + 1) entries (← verifyStep index entry superseded state)

/-- The walk of `verify_chain` over the entries that `read_all` returned. -/
def verifyChain (anchorFp : Hash32) (entries : List WalEntry) : Except WalError Unit := do
  let superseded ← computeSuperseded entries
  let _ ← verifyLoop 0 (entries.zip superseded) ⟨anchorFp, ∅⟩

/-! ## The live node

What the log is for: a stack of admitted blocks over the anchor. -/

structure LiveBlock where
  slot : SlotNo
  hash : Hash32
  postFp : Hash32
deriving DecidableEq, Repr

namespace LiveBlock

def point (block : LiveBlock) : Point := ⟨block.slot, block.hash⟩

end LiveBlock

/-- The stack is kept top first. -/
structure LiveNode where
  stack : List LiveBlock
  imported : Bool
deriving DecidableEq, Repr

def tipFp (anchorFp : Hash32) : List LiveBlock → Hash32
  | [] => anchorFp
  | top :: _ => top.postFp

namespace LiveNode

def empty : LiveNode := ⟨[], false⟩

end LiveNode

inductive LiveStep (anchorFp : Hash32) : LiveNode → WalEntry → LiveNode → Prop
  | push {node : LiveNode} (block : LiveBlock) (verdict : BlockVerdictTag)
      (later : ∀ top ∈ node.stack.head?, top.slot < block.slot) :
      LiveStep anchorFp node
        (.admitBlock (tipFp anchorFp node.stack) block.hash block.slot verdict block.postFp)
        { node with stack := block :: node.stack }
  | rollBack {node : LiveNode} (above below : List LiveBlock) (target : LiveBlock)
      (blockNo : BlockNo) (reason : RollbackReason) (priorTip selectedTip : RollbackPoint)
      (onStack : node.stack = above ++ target :: below) :
      LiveStep anchorFp node
        (.rollBack ⟨target.slot, target.hash, blockNo⟩ reason priorTip selectedTip)
        { node with stack := target :: below }
  | importSeed {node : LiveNode} (sidecarHash : Hash32) (epochNo : EpochNo)
      (fresh : node.imported = false) :
      LiveStep anchorFp node (.seedEpochConsensusInputsImported anchorFp sidecarHash epochNo)
        { node with imported := true }
  | activate {node : LiveNode} (targetEpoch : EpochNo) (networkMagic : UInt32) (era : CardanoEra)
      (transitionPoint : Point) (sourceCheckpointCommitment : Hash32)
      (snapshotPhase : SnapshotPhase)
      (nonceCommitment stakeViewCanonicalHash viewCanonicalHash : Hash32) :
      LiveStep anchorFp node
        (.epochConsensusViewActivated targetEpoch networkMagic era transitionPoint
          sourceCheckpointCommitment snapshotPhase nonceCommitment stakeViewCanonicalHash
          viewCanonicalHash) node

abbrev LiveRun (anchorFp : Hash32) := Run (LiveStep anchorFp)

/-- The slots that the rollbacks of a log return to, in log order. -/
def rollbackSlots : List WalEntry → List SlotNo
  | [] => []
  | .rollBack toPoint _ _ _ :: entries => toPoint.slot :: rollbackSlots entries
  | _ :: entries => rollbackSlots entries

end Ade.Wal
