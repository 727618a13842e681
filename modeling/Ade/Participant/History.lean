import Ade.Participant.ForkSwitch
import Ade.Wal.Replay

/-! What a participant keeps: a history of admitted blocks, in the store, in the log and in memory. -/

namespace Ade.Participant
open Library ChainDb Codec.Shelley Consensus Receive Rollback ForwardSync Wal BlockValidity

variable {env : Environment} (shell : Shell env)

/-- The state that a node starts from, with the recovered nonce laid over it. -/
def originState (origin : Origin env.Ledger) : env.Ledger × PraosChainDepState :=
  (origin.ledger, overlay origin.recoveredEta0 origin.chainDep)

/-- A node that has the snapshot of its origin and no blocks. -/
def State.start (origin : Origin env.Ledger) (snapshot : Bytes) (recoveredAnchor : Option ChainTip)
    (cadence : ForwardSync.SnapshotCadence) : State env where
  fwd :=
    { receive := ⟨(originState origin).1, (originState origin).2, .new⟩
      priorFp := shell.fingerprint origin.ledger
      cadence := cadence
      lastCheckpoint := none
      utxoFpCache := () }
  recoveredAnchor := recoveredAnchor
  recoveredEta0 := origin.recoveredEta0
  chaindb := (PersistentChainDb.new.putSnapshot origin.slot snapshot).2
  wal := []

variable (env) in
/-- A block is stored under its own slot and hash. -/
def Named (block : StoredBlock) : Prop :=
  ∃ decoded, decodeBlock env block.bytes = .ok decoded ∧ block.hash = decoded.blockHash ∧
    block.slot = decoded.headerInput.slot

variable (env) in
/-- The second block names the first one as the block before it. -/
def NamesParent (parent child : StoredBlock) : Prop :=
  ∃ decoded, decodeBlock env child.bytes = .ok decoded ∧ decoded.prevHash = .block parent.hash

/-- The state after the validation of blocks, one atop the other. -/
def validateAll (start : env.Ledger × PraosChainDepState) (blocks : List StoredBlock) :
    Except env.Failure (env.Ledger × PraosChainDepState) :=
  blocks.foldlM (fun state block => shell.rules.validate state.1 state.2 block.bytes) start

/-- The store holds the blocks, the state in memory is that of their validation, and the log is the
history of a stack of them. -/
structure Lockstep (origin : Origin env.Ledger) (state : State env) (blocks : List StoredBlock) :
    Prop where
  stored : state.chaindb.iterFromSlot 0 = .ok blocks
  ascending : blocks.Pairwise fun earlier later => earlier.slot < later.slot
  named : ∀ block ∈ blocks, Named env block
  live : validateAll shell (originState origin) blocks =
    .ok (state.fwd.receive.ledger, state.fwd.receive.chainDep)
  priorFp : state.fwd.priorFp = shell.fingerprint state.fwd.receive.ledger
  logged : ∃ stack, LiveRun (shell.fingerprint origin.ledger) .empty state.wal ⟨stack, false⟩ ∧
    stack.map LiveBlock.point = (blocks.map fun block => Point.mk block.slot block.hash).reverse ∧
    tipFp (shell.fingerprint origin.ledger) stack = state.fwd.priorFp

def Turn.isRefetch : Turn → Bool
  | .refetch _ _ => true
  | _ => false

/-- The block names the durable tip, where there is one. -/
def NamesTop (state : State env) (blockBytes : Bytes) : Prop :=
  ∀ top ∈ state.tip, ∃ decoded, decodeBlock env blockBytes = .ok decoded ∧
    decoded.prevHash = .block top.hash

/-- Every body that is admitted names the durable tip as the block before it. -/
def Extending : State env → List Bytes → Prop
  | _, [] => True
  | state, bytes :: bodies =>
      match pumpBlock shell state bytes with
      | (.ok (some _), pumped) =>
          NamesTop state bytes ∧ Extending pumped bodies
      | (.ok none, pumped) => Extending pumped bodies
      | (.error _, _) => True

end Ade.Participant
