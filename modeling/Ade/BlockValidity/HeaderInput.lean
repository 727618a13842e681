import Ade.Codec.Shelley
import Ade.Consensus.Header
import Ade.Ledger.Delegation
import Ade.Receive.BlockValidity

/-! Decoding a block into what the header and the body authority read. -/

namespace Ade.BlockValidity
open Library Codec Codec.Shelley Consensus
open Ade.Ledger (LedgerError)

inductive FieldKind where
  | vkeyWitness | bootstrapKey | ed25519Signature | vrfVkey | vrfProof | kesVkey | kesSignature
  | opCertSignature | blockBodyHash
deriving DecidableEq, Repr

structure FieldError where
  field : FieldKind
  expected : Nat
  actual : Nat
deriving DecidableEq, Repr

inductive MissingInput where
  | epochNonce
  | setSnapshot
  | poolVrfKeyhash (pool : Hash28)
  | activeSlotsCoeff
deriving DecidableEq, Repr

/-- The verifiers, the hashes, the schedule, the stake and the body rules of a run. -/
structure Environment where
  Ledger : Type
  BodyVerdict : Type
  verifiers : Verifiers
  blake2b224 : Bytes → Hash28
  ledgerView : LedgerView
  eraSchedule : EraSchedule
  applyBlockWithVerdicts : EraSchedule → Ledger → CardanoEra → Bytes →
    Except LedgerError (BodyVerdict × Ledger)

namespace Environment
variable (env : Environment)

abbrev kinds : Receive.Kinds where
  Ledger := env.Ledger
  HeaderInput := HeaderInput
  BodyVerdict := env.BodyVerdict
  HeaderError := HeaderValidationError
  BodyError := LedgerError
  FieldError := FieldError
  MissingInput := MissingInput

abbrev Failure : Type := Receive.BlockValidityError env.kinds

end Environment

variable (env : Environment)

/-! ## The position and the body hash -/

def checkHeaderPosition (blockNumber : UInt64) (prevHash : PrevHash) :
    Except env.Failure Unit :=
  let prevIsGenesis := decide (prevHash = .genesis)
  if decide (blockNumber = 0) = prevIsGenesis then .ok ()
  else .error (.headerPositionInvalid blockNumber prevIsGenesis)

def blockBodyHash (block : ShelleyBlock) : Hash32 :=
  let hash := env.verifiers.blake2b256
  hash ((hash block.txBodies).toList ++ (hash block.witnessSets).toList ++
    (hash block.metadata).toList ++ (hash (block.invalidTxs.getD [])).toList)

/-! ## Slices of the block -/

def codec (failure : CodecError) : env.Failure := .body (.decoding failure)

def runCodec {α : Type} (read : Read α) : Except env.Failure α := (read.runAt 0).1.mapError (codec env)

def headerCborSlice (inner : Bytes) : Except env.Failure Bytes :=
  runCodec env do
    let _ ← readArrayHeader inner
    readItem inner

def headerBodySlice (inner : Bytes) : Except env.Failure Bytes :=
  runCodec env do
    let _ ← readArrayHeader inner
    let _ ← readArrayHeader inner
    readItem inner

def blockKesSignature (inner : Bytes) : Except env.Failure Bytes :=
  runCodec env do
    let _ ← readArrayHeader inner
    let _ ← readArrayHeader inner
    let _ ← skip inner
    readItem inner

def unwrapCborBytes (item : Bytes) : Except env.Failure Bytes :=
  runCodec env do return (← readBytes item).1

/-! ## The header input -/

def malformed (field : FieldKind) (expected actual : Nat) : env.Failure :=
  .malformedField ⟨field, expected, actual⟩

def expectArray (size : Nat) (bytes : Bytes) (field : FieldKind) :
    Except env.Failure (Vector UInt8 size) :=
  if sized : bytes.toArray.size = size then .ok ⟨bytes.toArray, sized⟩
  else .error (malformed env field size bytes.length)

/-- Two byte strings, whatever comes behind them. -/
def parseCombinedVrf (item : Bytes) : Except env.Failure (Bytes × Bytes) := do
  let (header, offset) := (readArrayHeader item).runAt 0
  match ← header.mapError (codec env) with
  | .definite count _ =>
      if count ≠ 2 then throw (malformed env .vrfProof 2 0)
  | .indefinite => throw (malformed env .vrfProof 2 0)
  let (output, next) := (readBytes item).runAt offset
  let (outputBytes, _) ← output.mapError (codec env)
  let (proof, _) := (readBytes item).runAt next
  let (proofBytes, _) ← proof.mapError (codec env)
  return (outputBytes, proofBytes)

def praosHeaderInput (inner : Bytes) (hb : ShelleyHeaderBody) : Except env.Failure HeaderInput := do
  let vrfResult ← match hb.vrf with
    | .combined vrfResult => .ok vrfResult
    | .split _ _ => .error (malformed env .vrfProof 0 0)
  let (outputBytes, proofBytes) ← parseCombinedVrf env vrfResult
  let vrfVk ← expectArray env 32 hb.vrfVkey .vrfVkey
  let output ← expectArray env 64 outputBytes .vrfProof
  let proof ← expectArray env 80 proofBytes .vrfProof
  let headerBodyBytes ← headerBodySlice env inner
  let kesSignature ← unwrapCborBytes env (← blockKesSignature env inner)
  return {
    slot := hb.slot
    blockNo := hb.blockNumber
    prevHash := hb.prevHash.blockHash.getD (Vector.replicate 32 0)
    bodyHash := hb.bodyHash
    issuerPool := env.blake2b224 hb.issuerVkey
    opCertKesPeriod := hb.operationalCert.kesPeriod
    opCertCounter := hb.operationalCert.sequenceNumber
    vrfVk
    vrf := .praos proof output
    kes := some {
      issuerVkey := hb.issuerVkey
      kesVkey := hb.operationalCert.hotVkey
      kesSignature
      opCertSignature := hb.operationalCert.sigma
      headerBodyBytes } }

/-! ## Decoding -/

structure DecodedBlock where
  era : CardanoEra
  headerInput : HeaderInput
  blockHash : Hash32
  prevHash : PrevHash
  computedBodyHash : Hash32
  innerStart : Nat
  innerEnd : Nat

def unsupportedEra : env.Failure :=
  codec env (.invalidCborStructure 0 "block_validity: unsupported pre-Babbage era")

def decodeInner (era : CardanoEra) (inner : Bytes) : Except env.Failure ShelleyBlock :=
  match era with
  | .babbage => (decodeBabbageBlock inner).mapError (codec env)
  | .conway => (decodeConwayBlock inner).mapError (codec env)
  | _ => .error (unsupportedEra env)

def headerInputOfEra (era : CardanoEra) (inner : Bytes) (hb : ShelleyHeaderBody) :
    Except env.Failure HeaderInput :=
  match era with
  | .babbage | .conway => praosHeaderInput env inner hb
  | _ => .error (unsupportedEra env)

def decodeBlock (blockCbor : Bytes) : Except env.Failure DecodedBlock := do
  let envelope ← (decodeBlockEnvelope blockCbor).mapError (codec env)
  let inner := slice blockCbor (envelope.blockStart, envelope.blockEnd)
  let block ← decodeInner env envelope.era inner
  let hb := block.header.body
  checkHeaderPosition env hb.blockNumber hb.prevHash
  let headerCbor ← headerCborSlice env inner
  let headerInput ← headerInputOfEra env envelope.era inner hb
  return {
    era := envelope.era
    headerInput
    blockHash := env.verifiers.blake2b256 headerCbor
    prevHash := hb.prevHash
    computedBodyHash := blockBodyHash env block
    innerStart := envelope.blockStart
    innerEnd := envelope.blockEnd }

/-! ## The authorities -/

def eligibility : Receive.LeaderEligibility → LeaderEligibility
  | .enforce => .enforce
  | .trustDurable => .trustDurable

def appliedHeader (applied : HeaderApplied) : Receive.AppliedHeader :=
  ⟨applied.summary.slot, applied.summary.blockNo, applied.summary.bodyHash, applied.newState⟩

def DecodedBlock.decoded (decoded : DecodedBlock) : Receive.DecodedBlock env.kinds :=
  ⟨decoded.era, decoded.headerInput, decoded.headerInput.slot, decoded.blockHash,
    decoded.computedBodyHash, decoded.innerStart, decoded.innerEnd⟩

def authorities : Receive.Authorities env.kinds where
  decodeBlock blockCbor := (decodeBlock env blockCbor).map (DecodedBlock.decoded env)
  validateAndApplyHeader chainDep headerInput leaderEligibility :=
    (Consensus.validateAndApplyHeader env.verifiers chainDep headerInput env.ledgerView
      env.eraSchedule (eligibility leaderEligibility)).map appliedHeader
  applyBlockWithVerdicts := env.applyBlockWithVerdicts env.eraSchedule

end Ade.BlockValidity
