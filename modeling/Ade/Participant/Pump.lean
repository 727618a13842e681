import Ade.BlockValidity.HeaderInput
import Ade.Consensus.EraExtension
import Ade.ForwardSync.Reducer

/-! The participant's durable state, and the pump that admits a block to it. -/

namespace Ade.BlockValidity
open Consensus

/-- The environment of a replay up to a slot. -/
abbrev Environment.extended (env : Environment) (slot : SlotNo) : Environment :=
  { env with eraSchedule := env.eraSchedule.extendToSlot slot }

end Ade.BlockValidity

namespace Ade.Participant
open Library ChainDb Codec.Shelley Consensus Receive Rollback ForwardSync Wal BlockValidity

/-- The snapshot codec and the fingerprint of the ledger. -/
structure Shell (env : Environment) where
  encodeSnapshot : env.Ledger → PraosChainDepState → Except env.Failure Bytes
  decodeSnapshot : Bytes → Except env.Failure (env.Ledger × PraosChainDepState)
  fingerprint : env.Ledger → Hash32

variable {env : Environment}

/-! ## Validation and its replay -/

def verdictState (outcome : BlockValidityOutcome env.kinds) :
    Except env.Failure (env.Ledger × PraosChainDepState) :=
  match outcome.verdict with
  | .valid _ _ _ => .ok (outcome.ledger, outcome.chainDep)
  | .invalid _ error => .error error

variable (env) in
def blockValidityTrustedReplay (target : SlotNo) (ledger : env.Ledger)
    (chainDep : PraosChainDepState) (blockCbor : Bytes) : BlockValidityOutcome env.kinds :=
  blockValidityWithEligibility (authorities (env.extended target)) ledger chainDep blockCbor
    .trustDurable

variable (shell : Shell env)

def Shell.rules : Rules env.Ledger env.Failure where
  validate ledger chainDep block := verdictState (blockValidity (authorities env) ledger chainDep block)
  trustedReplay target ledger chainDep block :=
    verdictState (blockValidityTrustedReplay env target ledger chainDep block)
  envelopeEra block := ((decodeBlockEnvelope block).mapError (codec env)).map BlockEnvelope.era
  encodeSnapshot := shell.encodeSnapshot
  decodeSnapshot := shell.decodeSnapshot

/-! ## The state -/

/-- The two recovered fields are set once, when the node starts. -/
structure State (env : Environment) where
  fwd : ForwardSyncState env.kinds Unit
  recoveredAnchor : Option ChainTip
  recoveredEta0 : Option Nonce
  chaindb : PersistentChainDb
  wal : List WalEntry

/-! ## The pump -/

inductive PumpError (env : Environment) where
  | receive (error : ReceiveError env.kinds)
  | store (error : ChainDbError)
  | tipBeforeDurable

structure PumpTip where
  slot : SlotNo
  hash : Hash32
  prevHash : Hash32
  blockNo : UInt64
deriving DecidableEq, Repr

/-- The fingerprint of the UTxO is cached by the source; the cache does not show in the result. -/
def syncStep (state : State env) (event : ReceiveEvent) :
    Except (PumpError env) AdmitPlan × State env :=
  let synced := forwardSyncStep (authorities env) (chainDbWriter (authorities env) persistentCalls)
    (fun _ ledger => ((), shell.fingerprint ledger)) state.fwd state.chaindb event
  (synced.result.mapError .receive, { state with fwd := synced.state, chaindb := synced.store })

/-- What the effects of a plan have done so far. -/
structure Applying (env : Environment) where
  state : State env
  bytesDurable : Bool
  walDurable : Bool
  tip : Option PumpTip

/-- The checkpoint sink of the participant does nothing. -/
def applyEffect (prevHash : Hash32) (blockNo : UInt64) (applying : Applying env) :
    SyncEffect → Except (PumpError env) (Applying env)
  | .storeBlockBytes stored =>
      match applying.state.chaindb.putBlock stored with
      | (.ok (), chaindb) =>
          .ok { applying with state := { applying.state with chaindb }, bytesDurable := true }
      | (.error error, _) => .error (.store error)
  | .appendWal entry =>
      .ok { applying with
        state := { applying.state with wal := applying.state.wal ++ [entry] }
        walDurable := true }
  | .commitCheckpoint _ => .ok applying
  | .advanceTip slot hash =>
      if ¬ (applying.bytesDurable ∧ applying.walDurable) then .error .tipBeforeDurable
      else .ok { applying with tip := some ⟨slot, hash, prevHash, blockNo⟩ }

def applyPlan (prevHash : Hash32) (blockNo : UInt64) :
    List SyncEffect → Applying env → Except (PumpError env) (Option PumpTip) × State env
  | [], applying => (.ok applying.tip, applying.state)
  | effect :: effects, applying =>
      match applyEffect prevHash blockNo applying effect with
      | .ok next => applyPlan prevHash blockNo effects next
      | .error error => (.error error, applying.state)

/-- A block that is stored at its slot already changes nothing. -/
def pumpBlock (state : State env) (blockBytes : Bytes) :
    Except (PumpError env) (Option PumpTip) × State env :=
  match decodeBlock env blockBytes with
  | .error error => (.error (.receive (.validity error)), state)
  | .ok decoded =>
      match state.chaindb.getBlockByHash decoded.blockHash with
      | .error error => (.error (.store error), state)
      | .ok stored =>
          if stored.map StoredBlock.slot = some decoded.headerInput.slot then (.ok none, state)
          else
            let tip : TipPoint := ⟨0, Vector.replicate 32 0, 0⟩
            match syncStep shell state
                (.rollForward decoded.headerInput.slot decoded.blockHash blockBytes tip) with
            | (.error error, cached) => (.error error, cached)
            | (.ok _, cached) =>
                match syncStep shell cached (.blockDelivered blockBytes) with
                | (.error error, delivered) => (.error error, delivered)
                | (.ok plan, delivered) =>
                    applyPlan (decoded.prevHash.blockHash.getD (Vector.replicate 32 0))
                      decoded.headerInput.blockNo plan.effects ⟨delivered, false, false, none⟩

end Ade.Participant
