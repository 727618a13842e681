import Ade.Codec.Cbor

/-! Write-ahead log entries and their canonical encoding. -/

namespace Ade.Wal
open Library Codec

structure RollbackPoint where
  slot : SlotNo
  hash : Hash32
  blockNo : BlockNo
deriving DecidableEq, Repr

namespace RollbackPoint

def point (p : RollbackPoint) : Point := ⟨p.slot, p.hash⟩

end RollbackPoint

inductive RollbackReason where
  | forkChoiceWin | peerRollBackward
deriving DecidableEq, Repr

namespace RollbackReason

def wireCode : RollbackReason → UInt64
  | .forkChoiceWin => 0
  | .peerRollBackward => 1

def fromWireCode (code : UInt64) : Option RollbackReason :=
  if code = 0 then some .forkChoiceWin
  else if code = 1 then some .peerRollBackward
  else none

end RollbackReason

inductive BlockVerdictTag where
  | valid | invalid
deriving DecidableEq, Repr

namespace BlockVerdictTag

def wireCode : BlockVerdictTag → UInt64
  | .valid => 0
  | .invalid => 1

def fromWireCode (code : UInt64) : Option BlockVerdictTag :=
  if code = 0 then some .valid
  else if code = 1 then some .invalid
  else none

end BlockVerdictTag

inductive SnapshotPhase where
  | mark | set | go
deriving DecidableEq, Repr

def snapshotPhaseWire : SnapshotPhase → UInt64
  | .mark => 0
  | .set => 1
  | .go => 2

def snapshotPhaseFromWire (code : UInt64) : Option SnapshotPhase :=
  if code = 0 then some .mark
  else if code = 1 then some .set
  else if code = 2 then some .go
  else none

inductive WalEntry where
  | admitBlock (priorFp blockHash : Hash32) (slot : SlotNo) (verdict : BlockVerdictTag)
      (postFp : Hash32)
  | seedEpochConsensusInputsImported (anchorFp sidecarHash : Hash32) (epochNo : EpochNo)
  | rollBack (toPoint : RollbackPoint) (reason : RollbackReason)
      (priorTip selectedTip : RollbackPoint)
  | epochConsensusViewActivated (targetEpoch : EpochNo) (networkMagic : UInt32) (era : CardanoEra)
      (transitionPoint : Point) (sourceCheckpointCommitment : Hash32)
      (snapshotPhase : SnapshotPhase) (nonceCommitment stakeViewCanonicalHash
        viewCanonicalHash : Hash32)
deriving DecidableEq, Repr

inductive IoErrorKind where
  | notFound | unexpectedEof
deriving DecidableEq, Repr

inductive WalError where
  | io (kind : IoErrorKind)
  | decode (error : CodecError)
  | structural (reason : String)
  | chainBreak (entryIndex : Nat) (expectedPriorFp actualPriorFp : Hash32)
  | blockBytesMissing (blockHash : Hash32)
  | corruptCrc (file : UInt32)
  | duplicateProvenance
  | provenanceAnchorMismatch (expected actual : Hash32)
  | rollbackTargetNotInChain (entryIndex : Nat) (toSlot : SlotNo)
deriving DecidableEq, Repr

def tagAdmitBlock : UInt64 := 0
def tagRollback : UInt64 := 1
def tagSeedEpochConsensusInputsImported : UInt64 := 3
def tagEpochConsensusViewActivated : UInt64 := 4

/-! ## Encoding -/

def writeHash32 (hash : Hash32) : Bytes := writeBytesCanonical hash.toList

def writeDefiniteArray (count : UInt64) : Bytes :=
  writeArrayHeader (.definite count (canonicalWidth count))

def writeRollbackPoint (p : RollbackPoint) : Bytes :=
  writeUintCanonical p.slot ++ writeHash32 p.hash ++ writeUintCanonical p.blockNo

def encodeWalEntry : WalEntry → Bytes
  | .admitBlock priorFp blockHash slot verdict postFp =>
      writeDefiniteArray 2 ++ writeUintCanonical tagAdmitBlock ++ writeDefiniteArray 5 ++
      writeHash32 priorFp ++ writeHash32 blockHash ++ writeUintCanonical slot ++
      writeUintCanonical verdict.wireCode ++ writeHash32 postFp
  | .seedEpochConsensusInputsImported anchorFp sidecarHash epochNo =>
      writeDefiniteArray 2 ++ writeUintCanonical tagSeedEpochConsensusInputsImported ++
      writeDefiniteArray 3 ++ writeHash32 anchorFp ++ writeHash32 sidecarHash ++
      writeUintCanonical epochNo
  | .rollBack toPoint reason priorTip selectedTip =>
      writeDefiniteArray 2 ++ writeUintCanonical tagRollback ++ writeDefiniteArray 10 ++
      writeRollbackPoint toPoint ++ writeUintCanonical reason.wireCode ++
      writeRollbackPoint priorTip ++ writeRollbackPoint selectedTip
  | .epochConsensusViewActivated targetEpoch networkMagic era transitionPoint
        sourceCheckpointCommitment snapshotPhase nonceCommitment stakeViewCanonicalHash
        viewCanonicalHash =>
      writeDefiniteArray 2 ++ writeUintCanonical tagEpochConsensusViewActivated ++
      writeDefiniteArray 10 ++ writeUintCanonical targetEpoch ++
      writeUintCanonical networkMagic.toUInt64 ++ writeUintCanonical era.asU64 ++
      writeUintCanonical transitionPoint.slot ++ writeHash32 transitionPoint.hash ++
      writeHash32 sourceCheckpointCommitment ++
      writeUintCanonical (snapshotPhaseWire snapshotPhase) ++ writeHash32 nonceCommitment ++
      writeHash32 stakeViewCanonicalHash ++ writeHash32 viewCanonicalHash

/-! ## Decoding -/

abbrev Decode := Cursor WalError

def decodeUint (data : Bytes) : Decode UInt64 := do
  let (value, _) ← ExceptT.adapt WalError.decode (readUint data)
  return value

def expectDefiniteArray (expectedLen : UInt64) (label : String) (data : Bytes) : Decode Unit := do
  match ← ExceptT.adapt WalError.decode (readArrayHeader data) with
  | .definite count _ =>
      if count ≠ expectedLen then
        throw (.structural (match label with
          | "entry wrapper" => "entry wrapper had wrong array length"
          | "AdmitBlock payload" => "AdmitBlock payload had wrong array length"
          | _ => "unknown array shape"))
  | .indefinite => throw (.structural "indefinite-length array not allowed in WAL")

def readHash32 (data : Bytes) : Decode Hash32 := do
  let (bytes, _) ← ExceptT.adapt WalError.decode (readBytes data)
  if exact : bytes.length = 32 then
    return ⟨bytes.toArray, by simpa using exact⟩
  else
    throw (.structural "expected 32-byte hash")

def readRollbackPoint (data : Bytes) : Decode RollbackPoint := do
  let slot ← decodeUint data
  let hash ← readHash32 data
  let blockNo ← decodeUint data
  return ⟨slot, hash, blockNo⟩

def okOr {α : Type} (value : Option α) (reason : String) : Decode α :=
  match value with
  | some value => return value
  | none => throw (.structural reason)

def decodeAdmitBlock (data : Bytes) : Decode WalEntry := do
  expectDefiniteArray 5 "AdmitBlock payload" data
  let priorFp ← readHash32 data
  let blockHash ← readHash32 data
  let slot ← decodeUint data
  let verdictCode ← decodeUint data
  let verdict ← okOr (BlockVerdictTag.fromWireCode verdictCode) "unknown verdict code"
  let postFp ← readHash32 data
  return .admitBlock priorFp blockHash slot verdict postFp

def decodeSeedEpochConsensusInputsImported (data : Bytes) : Decode WalEntry := do
  expectDefiniteArray 3 "SeedEpochConsensusInputsImported payload" data
  let anchorFp ← readHash32 data
  let sidecarHash ← readHash32 data
  let epochNo ← decodeUint data
  return .seedEpochConsensusInputsImported anchorFp sidecarHash epochNo

def decodeRollBack (data : Bytes) : Decode WalEntry := do
  expectDefiniteArray 10 "RollBack payload" data
  let toPoint ← readRollbackPoint data
  let reasonCode ← decodeUint data
  let reason ← okOr (RollbackReason.fromWireCode reasonCode) "unknown rollback reason code"
  let priorTip ← readRollbackPoint data
  let selectedTip ← readRollbackPoint data
  return .rollBack toPoint reason priorTip selectedTip

def decodeEpochConsensusViewActivated (data : Bytes) : Decode WalEntry := do
  expectDefiniteArray 10 "EpochConsensusViewActivated payload" data
  let targetEpoch ← decodeUint data
  let networkMagic ← decodeUint data
  if networkMagic.toNat > 0xffffffff then
    throw (.structural "network_magic out of u32 range")
  let eraCode ← decodeUint data
  let era ← okOr (CardanoEra.all.find? (fun era => era.asU64 = eraCode)) "unknown era code"
  let slot ← decodeUint data
  let transitionHash ← readHash32 data
  let sourceCheckpointCommitment ← readHash32 data
  let phaseCode ← decodeUint data
  let snapshotPhase ← okOr (snapshotPhaseFromWire phaseCode) "unknown snapshot phase code"
  let nonceCommitment ← readHash32 data
  let stakeViewCanonicalHash ← readHash32 data
  let viewCanonicalHash ← readHash32 data
  return .epochConsensusViewActivated targetEpoch networkMagic.toUInt32 era ⟨slot, transitionHash⟩
    sourceCheckpointCommitment snapshotPhase nonceCommitment stakeViewCanonicalHash
    viewCanonicalHash

def decodeWalEntryAt (data : Bytes) : Decode WalEntry := do
  expectDefiniteArray 2 "entry wrapper" data
  let tag ← decodeUint data
  if tag = tagAdmitBlock then decodeAdmitBlock data
  else if tag = tagSeedEpochConsensusInputsImported then
    decodeSeedEpochConsensusInputsImported data
  else if tag = tagRollback then decodeRollBack data
  else if tag = tagEpochConsensusViewActivated then decodeEpochConsensusViewActivated data
  else throw (.structural "unknown wal entry tag")

def decodeWalEntry (data : Bytes) : Except WalError (WalEntry × Nat) :=
  let (entry, consumed) := (decodeWalEntryAt data).runAt 0
  entry.map (·, consumed)

end Ade.Wal
