import Ade.Codec.Conway

/-! The blocks of the eras from Shelley on, and the envelope that names their era. -/

namespace Ade.Codec.Shelley
open Library

inductive PrevHash where
  | genesis
  | block (hash : Hash32)
deriving DecidableEq, Repr

def PrevHash.blockHash : PrevHash → Option Hash32
  | .genesis => none
  | .block hash => some hash

inductive VrfData where
  | split (nonceVrf leaderVrf : Bytes)
  | combined (vrfResult : Bytes)
deriving DecidableEq, Repr

structure OperationalCert where
  hotVkey : Bytes
  sequenceNumber : UInt64
  kesPeriod : UInt64
  sigma : Bytes
deriving DecidableEq, Repr

structure ProtocolVersion where
  major : UInt64
  minor : UInt64
deriving DecidableEq, Repr

structure ShelleyHeaderBody where
  blockNumber : UInt64
  slot : UInt64
  prevHash : PrevHash
  issuerVkey : Bytes
  vrfVkey : Bytes
  vrf : VrfData
  bodySize : UInt64
  bodyHash : Hash32
  operationalCert : OperationalCert
  protocolVersion : ProtocolVersion
deriving DecidableEq, Repr

structure ShelleyHeader where
  body : ShelleyHeaderBody
  kesSignature : Bytes
deriving DecidableEq, Repr

/-- The parts behind the header are kept as they stand. -/
structure ShelleyBlock where
  header : ShelleyHeader
  txCount : UInt64
  txBodies : Bytes
  witnessSets : Bytes
  metadata : Bytes
  invalidTxs : Option Bytes
deriving DecidableEq, Repr

variable (data : Bytes)

/-- A header of an array of one of the given lengths. -/
def readArrayOf (lengths : List UInt64) (detail : String) : Read UInt64 := do
  match ← readArrayHeader data with
  | .definite count _ =>
      if count ∈ lengths then return count else throw (.invalidCborStructure (← get) detail)
  | .indefinite => throw (.invalidCborStructure (← get) detail)

/-! ## Operational certificates -/

inductive OpCertCodecError where
  | badFieldType (field detail : String)
  | wrongHotVkeyLength (found expected : Nat)
  | wrongSigmaLength (found expected : Nat)
deriving DecidableEq, Repr

def hotVkeyLen : Nat := 32

def sigmaLen : Nat := 64

def opCertField {α : Type} (field detail : String) (read : Read α) : Cursor OpCertCodecError α :=
  ExceptT.adapt (fun _ => .badFieldType field detail) read

def readOpcertFieldsFrom : Cursor OpCertCodecError OperationalCert := do
  let (hotVkey, _) ← opCertField "hot_vkey" "expected CBOR byte string" (readBytes data)
  if hotVkey.length ≠ hotVkeyLen then throw (.wrongHotVkeyLength hotVkey.length hotVkeyLen)
  let (sequenceNumber, _) ←
    opCertField "sequence_number" "expected CBOR unsigned integer" (readUint data)
  let (kesPeriod, _) ← opCertField "kes_period" "expected CBOR unsigned integer" (readUint data)
  let (sigma, _) ← opCertField "sigma" "expected CBOR byte string" (readBytes data)
  if sigma.length ≠ sigmaLen then throw (.wrongSigmaLength sigma.length sigmaLen)
  return { hotVkey, sequenceNumber, kesPeriod, sigma }

/-- A failure is reported where the fields could not be read any further. -/
def decodeOpCertFields (detail : String) : Read OperationalCert :=
  Cursor.ofRun fun offset =>
    match (readOpcertFieldsFrom data).runAt offset with
    | (.ok opCert, after) => (.ok opCert, after)
    | (.error _, after) => (.error (.invalidCborStructure after detail), after)

/-! ## Headers -/

def decodePrevHash : Read PrevHash := do
  if data[← get]? = some 0xf6 then
    modify (· + 1)
    return .genesis
  else return .block (← readHash32 data)

/-- Headers of 15 fields are those of Shelley to Alonzo, headers of 10 the later ones. -/
def decodeVrf (hdrLen : UInt64) : Read VrfData := do
  if hdrLen = 15 then
    let nonceVrf ← readItem data
    let leaderVrf ← readItem data
    return .split nonceVrf leaderVrf
  else return .combined (← readItem data)

def decodeOperationalCert (hdrLen : UInt64) : Read OperationalCert := do
  if hdrLen = 15 then decodeOpCertFields data "operational cert fields (inline)"
  else
    let _ ← readArrayOf data [4] "operational cert must be array(4)"
    decodeOpCertFields data "operational cert fields (nested)"

def decodeProtocolVersion (hdrLen : UInt64) : Read ProtocolVersion := do
  if hdrLen ≠ 15 then
    let _ ← readArrayOf data [2] "protocol version must be array(2)"
  let (major, _) ← readUint data
  let (minor, _) ← readUint data
  return { major, minor }

def decodeHeaderBody : Read ShelleyHeaderBody := do
  let hdrLen ← readArrayOf data [15, 10] "header body must be array(15) or array(10)"
  let (blockNumber, _) ← readUint data
  let (slot, _) ← readUint data
  let prevHash ← decodePrevHash data
  let (issuerVkey, _) ← readBytes data
  let (vrfVkey, _) ← readBytes data
  let vrf ← decodeVrf data hdrLen
  let (bodySize, _) ← readUint data
  let bodyHash ← readHash32 data
  let operationalCert ← decodeOperationalCert data hdrLen
  let protocolVersion ← decodeProtocolVersion data hdrLen
  return { blockNumber, slot, prevHash, issuerVkey, vrfVkey, vrf, bodySize, bodyHash,
           operationalCert, protocolVersion }

def decodeHeader : Read ShelleyHeader := do
  let _ ← readArrayOf data [2] "header must be array(2)"
  let body ← decodeHeaderBody data
  let kesSignature ← readItem data
  return { body, kesSignature }

/-! ## Blocks -/

/-- The transaction bodies with their array header, and how many there are. -/
def decodeTxBodies : Read (UInt64 × Bytes) := do
  let start ← get
  let items ← readArray data (skip data)
  return (UInt64.ofNat items.length, slice data (start, ← get))

def decodeShelleyBlockInner : Read ShelleyBlock := do
  let blockLen ← readArrayOf data [4, 5] "post-Byron block must be array(4) or array(5)"
  let header ← decodeHeader data
  let (txCount, txBodies) ← decodeTxBodies data
  let witnessSets ← readItem data
  let metadata ← readItem data
  let invalidTxs ← if blockLen = 5 then some <$> readItem data else pure none
  return { header, txCount, txBodies, witnessSets, metadata, invalidTxs }

/-- The eras that share the layout, each with a decoder of this shape. -/
def decodeBlockOfEra : Except CodecError ShelleyBlock :=
  match (decodeShelleyBlockInner data).runAt 0 with
  | (.error failure, _) => .error failure
  | (.ok decoded, offset) =>
      if offset ≠ data.length then .error (.trailingBytes offset data.length) else .ok decoded

def decodeBabbageBlock : Except CodecError ShelleyBlock := decodeBlockOfEra data

def decodeConwayBlock : Except CodecError ShelleyBlock := decodeBlockOfEra data

/-! ## The envelope -/

structure BlockEnvelope where
  era : CardanoEra
  blockStart : Nat
  blockEnd : Nat
deriving DecidableEq, Repr

def eraOfTag (tag : UInt8) : Except CodecError CardanoEra :=
  match CardanoEra.all[tag.toNat]? with
  | some era => .ok era
  | none => .error (.unknownEraTag tag)

def readEnvelope : Read BlockEnvelope := do
  match ← readArrayHeader data with
  | .definite count _ =>
      if count < 2 then
        throw (.invalidCborStructure 0 "block envelope array has fewer than 2 elements")
      if count > 2 then
        throw (.invalidCborStructure 0 "block envelope array has more than 2 elements")
  | .indefinite => throw (.invalidCborStructure 0 "block envelope must be definite-length array")
  let (tagValue, _) ← readUint data
  if tagValue > 255 then throw (.unknownEraTag 255)
  let era ← liftExcept (eraOfTag tagValue.toUInt8)
  let blockStart ← get
  let (_, blockEnd) ← skip data
  if (← get) ≠ data.length then throw (.trailingBytes (← get) data.length)
  return { era, blockStart, blockEnd }

def decodeBlockEnvelope : Except CodecError BlockEnvelope :=
  if data.isEmpty then .error (.unexpectedEof 0 1) else ((readEnvelope data).runAt 0).1

end Ade.Codec.Shelley
