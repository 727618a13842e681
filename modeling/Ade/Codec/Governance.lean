import Ade.Codec.Conway
import Ade.Ledger.State

/-! The codec of the proposal procedures in a Conway transaction body. -/

namespace Ade.Codec
open Std Library
open Ade.Ledger (GovAction GovActionId StakeCredential)

structure Anchor where
  raw : Bytes
deriving DecidableEq, Repr

structure ProposalProcedure where
  deposit : Coin
  returnAddr : Bytes
  govAction : GovAction
  anchor : Anchor
deriving DecidableEq

/-! ## Reading -/

/-- After the header of an array that must have `expected` elements. -/
def expectCount {α : Type} (expected : UInt64) (detail : String) (next : Read α) :
    ContainerEncoding → Read α
  | .definite count _ =>
      if count = expected then next else do throw (.invalidCborStructure (← get) detail)
  | .indefinite => do throw (.invalidCborStructure (← get) detail)

def readExactly (size : Nat) (detail : String) (data : Bytes) : Read (Vector UInt8 size) := do
  let start ← get
  let (bytes, _) ← readBytes data
  if sized : bytes.toArray.size = size then return ⟨bytes.toArray, sized⟩
  else throw (.invalidLength start detail)

def readGovHash28 : Bytes → Read Hash28 := readExactly 28 "hash28 must be 28 bytes"

def readGovHash32 : Bytes → Read Hash32 := readExactly 32 "hash32 must be 32 bytes"

def nullByte : UInt8 := 0xf6

def peekNull (data : Bytes) : Read Bool := do
  let byte ← liftExcept (peekByte data (← get))
  return byte = nullByte

/-- A null, or what `next` reads. -/
def readOptional {α : Type} (next : Bytes → Read α) (data : Bytes) : Read (Option α) := do
  if ← peekNull data then
    modify (· + 1)
    return none
  else some <$> next data

def decodeGovActionId (data : Bytes) : Read GovActionId := do
  expectCount 2 "gov_action_id must be array(2) [tx_hash, index]" (do
    let txHash ← readGovHash32 data
    let (index, _) ← readUint data
    return { txHash, index := UInt32.ofNat index.toNat }) (← readArrayHeader data)

def decodeGovActionIdOpt : Bytes → Read (Option GovActionId) := readOptional decodeGovActionId

def decodeHash28Opt : Bytes → Read (Option Hash28) := readOptional readGovHash28

def decodeAnchor (data : Bytes) : Read Anchor := do return ⟨← readItem data⟩

/-- The hash is read before the type is looked at. -/
def decodeStakeCredential (data : Bytes) : Read StakeCredential := do
  expectCount 2 "stake credential must be array(2)" (do
    let credTypeOffset ← get
    let (credType, _) ← readUint data
    let hash ← readGovHash28 data
    if credType = 0 then return .keyHash hash
    else if credType = 1 then return .scriptHash hash
    else throw (.invalidCborStructure credTypeOffset "unknown stake credential type"))
    (← readArrayHeader data)

def decodeColdCredentialSet (data : Bytes) : Read (BTreeSet StakeCredential) := do
  skipOptionalTag data
  expectDefinite "committee removed set must be definite-length" (fun count => do
    return ExtTreeSet.ofList (← Cursor.times (decodeStakeCredential data) count.toNat))
    (← readArrayHeader data)

def decodeColdCredentialEpoch (data : Bytes) : Read (StakeCredential × UInt64) := do
  let credential ← decodeStakeCredential data
  let (epoch, _) ← readUint data
  return (credential, epoch)

/-- The last epoch of a repeated credential counts. -/
def decodeColdCredentialEpochMap (data : Bytes) : Read (BTreeMap StakeCredential UInt64) := do
  expectDefinite "committee added map must be definite-length" (fun count => do
    return ExtTreeMap.ofList (← Cursor.times (decodeColdCredentialEpoch data) count.toNat))
    (← readMapHeader data)

/-- Any tag may stand before the pair. -/
def decodeUnitInterval (data : Bytes) : Read (UInt64 × UInt64) := do
  if (← peekMajor data) = majorTag then
    let _ ← readTag data
  expectCount 2 "unit_interval must be array(2) [numerator, denominator]" (do
    let (numerator, _) ← readUint data
    let (denominator, _) ← readUint data
    return (numerator, denominator)) (← readArrayHeader data)

def decodeProtocolVersion (data : Bytes) : Read (UInt64 × UInt64) := do
  expectCount 2 "protocol_version must be array(2) [major, minor]" (do
    let (major, _) ← readUint data
    let (minor, _) ← readUint data
    return (major, minor)) (← readArrayHeader data)

def decodeWithdrawal (data : Bytes) : Read (Bytes × Coin) := do
  let (addr, _) ← readBytes data
  let (amount, _) ← readUint data
  return (addr, amount)

def decodeTreasuryWithdrawals (data : Bytes) : Read (List (Bytes × Coin)) := do
  expectDefinite "treasury withdrawals map must be definite-length"
    (fun count => Cursor.times (decodeWithdrawal data) count.toNat) (← readMapHeader data)

/-- The number of elements is checked together with the tag. -/
def decodeTaggedAction (data : Bytes) (tagOffset : Nat) (tag arrLen : UInt64) : Read GovAction := do
  if tag = 0 ∧ arrLen = 4 then
    let prevAction ← decodeGovActionIdOpt data
    let update ← readItem data
    let policyHash ← decodeHash28Opt data
    return .parameterChange prevAction update policyHash
  else if tag = 1 ∧ arrLen = 3 then
    let prevAction ← decodeGovActionIdOpt data
    let protocolVersion ← decodeProtocolVersion data
    return .hardForkInitiation prevAction protocolVersion
  else if tag = 2 ∧ arrLen = 3 then
    let withdrawals ← decodeTreasuryWithdrawals data
    let policyHash ← decodeHash28Opt data
    return .treasuryWithdrawals withdrawals policyHash
  else if tag = 3 ∧ arrLen = 2 then
    let prevAction ← decodeGovActionIdOpt data
    return .noConfidence prevAction
  else if tag = 4 ∧ arrLen = 5 then
    let prevAction ← decodeGovActionIdOpt data
    let removed ← decodeColdCredentialSet data
    let added ← decodeColdCredentialEpochMap data
    let threshold ← decodeUnitInterval data
    return .updateCommittee prevAction removed added threshold
  else if tag = 5 ∧ arrLen = 3 then
    let prevAction ← decodeGovActionIdOpt data
    let raw ← readItem data
    return .newConstitution prevAction raw
  else if tag = 6 ∧ arrLen = 1 then return .infoAction
  else throw (.unknownCertTag tag tagOffset)

def decodeGovActionBody (data : Bytes) (arrLen : UInt64) : Read GovAction := do
  let tagOffset ← get
  let (tag, _) ← readUint data
  decodeTaggedAction data tagOffset tag arrLen

def govActionDetail : String := "gov_action must be non-empty definite-length array"

def decodeGovAction (data : Bytes) : Read GovAction := do
  expectDefinite govActionDetail (fun arrLen =>
    if arrLen ≥ 1 then decodeGovActionBody data arrLen
    else do throw (.invalidCborStructure (← get) govActionDetail)) (← readArrayHeader data)

def decodeProposalProcedure (data : Bytes) : Read ProposalProcedure := do
  expectCount 4 "proposal_procedure must be array(4) [deposit, return_addr, gov_action, anchor]" (do
    let (deposit, _) ← readUint data
    let (returnAddr, _) ← readBytes data
    let govAction ← decodeGovAction data
    let anchor ← decodeAnchor data
    return { deposit, returnAddr, govAction, anchor }) (← readArrayHeader data)

def nonEmptyDetail : String := "proposal_procedures set must be non-empty (CIP-1694)"

def decodeProposalSet (data : Bytes) : Read (List ProposalProcedure) := do
  skipOptionalTag data
  match ← readArrayHeader data with
  | .definite count _ =>
      if count = 0 then throw (.invalidCborStructure (← get) nonEmptyDetail)
      Cursor.times (decodeProposalProcedure data) count.toNat
  | .indefinite =>
      let procs ← untilBreak data (decodeProposalProcedure data) data.length
      modify (· + 1)
      if procs = [] then throw (.invalidCborStructure (← get) nonEmptyDetail)
      return procs

def decodeProposalProcedures (data : Bytes) : Except CodecError (List ProposalProcedure) :=
  let (procs, offset) := (decodeProposalSet data).runAt 0
  procs.bind fun procs =>
    if offset = data.length then .ok procs else .error (.trailingBytes offset data.length)

/-! ## Writing -/

def writeCountedArray (count : UInt64) : Bytes := writeArrayHeader (.definite count (canonicalWidth count))

def writeCountedMap (count : UInt64) : Bytes := writeMapHeader (.definite count (canonicalWidth count))

def encodeGovActionIdOpt : Option GovActionId → Bytes
  | none => writeNull
  | some id =>
      writeArrayHeader (.definite 2 .inline) ++ writeBytesCanonical id.txHash.toList ++
        writeUintCanonical id.index.toUInt64

def encodeHash28Opt : Option Hash28 → Bytes
  | none => writeNull
  | some hash => writeBytesCanonical hash.toList

def encodeAnchor (anchor : Anchor) : Bytes := anchor.raw

def encodeStakeCredential : StakeCredential → Bytes
  | .keyHash hash =>
      writeArrayHeader (.definite 2 .inline) ++ writeUintCanonical 0 ++ writeBytesCanonical hash.toList
  | .scriptHash hash =>
      writeArrayHeader (.definite 2 .inline) ++ writeUintCanonical 1 ++ writeBytesCanonical hash.toList

def encodeColdCredentialSet (set : BTreeSet StakeCredential) : Bytes :=
  writeTag 258 (canonicalWidth 258) ++ writeCountedArray (UInt64.ofNat set.size) ++
    (set.toList.map encodeStakeCredential).flatten

def encodeColdCredentialEpochMap (map : BTreeMap StakeCredential UInt64) : Bytes :=
  writeCountedMap (UInt64.ofNat map.size) ++ (map.toList.map fun entry =>
    encodeStakeCredential entry.1 ++ writeUintCanonical entry.2).flatten

def encodeUnitInterval (interval : UInt64 × UInt64) : Bytes :=
  writeTag 30 (canonicalWidth 30) ++ writeArrayHeader (.definite 2 .inline) ++
    writeUintCanonical interval.1 ++ writeUintCanonical interval.2

def encodeTreasuryWithdrawals (withdrawals : List (Bytes × Coin)) : Bytes :=
  writeCountedMap (UInt64.ofNat withdrawals.length) ++ (withdrawals.map fun entry =>
    writeBytesCanonical entry.1 ++ writeUintCanonical entry.2).flatten

/-- What is opaque is spliced in as it is. -/
def encodeGovAction : GovAction → Bytes
  | .parameterChange prevAction update policyHash =>
      writeArrayHeader (.definite 4 .inline) ++ writeUintCanonical 0 ++
        (encodeGovActionIdOpt prevAction ++ update ++ encodeHash28Opt policyHash)
  | .hardForkInitiation prevAction (major, minor) =>
      writeArrayHeader (.definite 3 .inline) ++ writeUintCanonical 1 ++
        (encodeGovActionIdOpt prevAction ++
          (writeArrayHeader (.definite 2 .inline) ++ writeUintCanonical major ++ writeUintCanonical minor))
  | .treasuryWithdrawals withdrawals policyHash =>
      writeArrayHeader (.definite 3 .inline) ++ writeUintCanonical 2 ++
        (encodeTreasuryWithdrawals withdrawals ++ encodeHash28Opt policyHash)
  | .noConfidence prevAction =>
      writeArrayHeader (.definite 2 .inline) ++ writeUintCanonical 3 ++ encodeGovActionIdOpt prevAction
  | .updateCommittee prevAction removed added threshold =>
      writeArrayHeader (.definite 5 .inline) ++ writeUintCanonical 4 ++
        (encodeGovActionIdOpt prevAction ++ encodeColdCredentialSet removed ++
          encodeColdCredentialEpochMap added ++ encodeUnitInterval threshold)
  | .newConstitution prevAction raw =>
      writeArrayHeader (.definite 3 .inline) ++ writeUintCanonical 5 ++
        (encodeGovActionIdOpt prevAction ++ raw)
  | .infoAction => writeArrayHeader (.definite 1 .inline) ++ writeUintCanonical 6

def encodeProposalProcedure (procedure : ProposalProcedure) : Bytes :=
  writeArrayHeader (.definite 4 .inline) ++ writeUintCanonical procedure.deposit ++
    writeBytesCanonical procedure.returnAddr ++ encodeGovAction procedure.govAction ++
    encodeAnchor procedure.anchor

def encodeProposalProcedures (procs : List ProposalProcedure) : Bytes :=
  writeCountedArray (UInt64.ofNat procs.length) ++ (procs.map encodeProposalProcedure).flatten

end Ade.Codec
