import Ade.BlockValidity.HeaderInput
import Ade.ForwardSync.Reducer

/-! Chains of admitted blocks. -/

namespace Ade.BlockValidity
open Library ChainDb Codec.Shelley Consensus ForwardSync Receive Wal

variable (env : Environment)

def Ascends (parent child : AdmittedBlock) : Prop :=
  ∃ above below, decodeBlock env parent.bytes = .ok above ∧ decodeBlock env child.bytes = .ok below ∧
    above.headerInput.slot < below.headerInput.slot ∧
    above.headerInput.blockNo < below.headerInput.blockNo

/-- Each transition starts from the fingerprint at which the one before it ends, and they are those
of the blocks in their order. -/
def Records : Hash32 → List AdmittedBlock → List WalEntry → Prop
  | _, [], [] => True
  | fp, block :: blocks, .admitBlock priorFp blockHash slot _ postFp :: entries =>
      priorFp = fp ∧
        (∃ decoded, decodeBlock env block.bytes = .ok decoded ∧ blockHash = decoded.blockHash ∧
          slot = decoded.headerInput.slot) ∧
        Records postFp blocks entries
  | _, _, _ => False

/-- What a run of the forward sync leaves behind, from a state on. -/
structure Synchronized {C : Type} (state : ForwardSyncState env.kinds C)
    (blocks : List AdmittedBlock) (effects : List SyncEffect) : Prop where
  records : Records env state.priorFp blocks (effects.filterMap SyncEffect.walEntry)
  stored : (effects.filterMap SyncEffect.storedBlock).map StoredBlock.bytes =
    blocks.map AdmittedBlock.bytes
  durable : DurableBeforeTip effects
  checkpoints : (effects.filterMap SyncEffect.checkpoint).Pairwise (· < ·)
  fresh : ∀ slot ∈ effects.filterMap SyncEffect.checkpoint, state.lastCheckpoint < some slot

end Ade.BlockValidity
