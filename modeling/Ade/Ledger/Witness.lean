import Ade.Ledger.ScriptWitnesses

/-! The witness set of one transaction. The decoders' own errors carry no text. -/

namespace Ade.Ledger
open Std Library
open Ade.Codec (Read ContainerEncoding decodeNativeScriptsPreserved isBreak majorArray
  majorMap peekMajor readArray readArrayHeader readBytes readMapHeader readUint skip
  skipOptionalTag slice)

structure VKeyWitnessRef where
  vkey : Bytes
  signature : Bytes
deriving DecidableEq, Repr

structure BootstrapWitnessRef where
  vkey : Bytes
  signature : Bytes
  chainCode : Bytes
  attributes : Bytes
deriving DecidableEq, Repr

structure TotalExUnits where
  mem : Int
  cpu : Int
deriving DecidableEq, Repr

/-- All that is read out of a witness set. -/
structure WitnessSetInfo extends WitnessInfo where
  bootstrapWitnesses : List BootstrapWitnessRef
  hasPlutusV1 : Bool
  hasPlutusV2 : Bool
  hasPlutusV3 : Bool
  totalExUnits : TotalExUnits

namespace WitnessSetInfo

def empty : WitnessSetInfo where
  availableKeyHashes := ∅
  nativeScripts := []
  plutusScriptHashes := ∅
  bootstrapKeyHashes := ∅
  bootstrapWitnesses := []
  hasPlutusV1 := false
  hasPlutusV2 := false
  hasPlutusV3 := false
  totalExUnits := ⟨0, 0⟩

def hasPlutus (info : WitnessSetInfo) : Bool :=
  info.hasPlutusV1 || info.hasPlutusV2 || info.hasPlutusV3

end WitnessSetInfo

structure WitnessHashes where
  blake2b224 : Bytes → Hash28
  sha3_256 : Bytes → Hash32

/-! ## Containers -/

section
variable {α : Type}

def expectCount (expected : UInt64) (next : Read α) : ContainerEncoding → Read α
  | .definite count _ =>
      if count = expected then next else do throw (.invalidCborStructure (← get) "")
  | .indefinite => do throw (.invalidCborStructure (← get) "")

/-- The break is not taken. -/
def entriesUntilBreak (data : Bytes) (entry : α → Read α) : Nat → α → Read α
  | 0, _ => do throw (.unexpectedEof (← get) 1)
  | left + 1, state => do
      if ← isBreak data then return state
      else entriesUntilBreak data entry left (← entry state)

def forEachEntry (data : Bytes) (entry : α → Read α) (state : α) : Read α := do
  match ← readMapHeader data with
  | .definite count _ => Cursor.iterate entry count.toNat state
  | .indefinite =>
      let state ← entriesUntilBreak data entry data.length state
      modify (· + 1)
      return state

end

/-! ## Redeemers -/

def maxI64 : Int := 2 ^ 63 - 1

def clampU64ToI64 (value : UInt64) : Int := min value.toNat maxI64

def TotalExUnits.add (total units : TotalExUnits) : TotalExUnits :=
  ⟨min (total.mem + units.mem) maxI64, min (total.cpu + units.cpu) maxI64⟩

def readExUnits (data : Bytes) : Read TotalExUnits := do
  expectCount 2 (do
    let (mem, _) ← readUint data
    let (cpu, _) ← readUint data
    return ⟨clampU64ToI64 mem, clampU64ToI64 cpu⟩) (← readArrayHeader data)

/-- `[tag, index, data, [mem, cpu]]`. -/
def readRedeemer (data : Bytes) : Read TotalExUnits := do
  expectCount 4 (do
    let _ ← skip data
    let _ ← skip data
    let _ ← skip data
    readExUnits data) (← readArrayHeader data)

def sumRedeemersArray (data : Bytes) : Read TotalExUnits := do
  return (← readArray data (readRedeemer data)).foldl TotalExUnits.add ⟨0, 0⟩

/-- `[tag, index] => [data, [mem, cpu]]`. -/
def addRedeemerEntry (data : Bytes) (total : TotalExUnits) : Read TotalExUnits := do
  let _ ← skip data
  expectCount 2 (do
    let _ ← skip data
    return total.add (← readExUnits data)) (← readArrayHeader data)

def sumRedeemersMap (data : Bytes) : Read TotalExUnits :=
  forEachEntry data (addRedeemerEntry data) ⟨0, 0⟩

/-- What is neither an array nor a map declares nothing. -/
def sumRedeemerExUnits (data : Bytes) : Read TotalExUnits := do
  skipOptionalTag data
  if (← get) ≥ data.length then throw (.invalidCborStructure (← get) "")
  let major ← peekMajor data
  if major = majorArray then sumRedeemersArray data
  else if major = majorMap then sumRedeemersMap data
  else
    let _ ← skip data
    return ⟨0, 0⟩

/-! ## Keys and signatures -/

def decodeVKeyWitness (data : Bytes) : Read VKeyWitnessRef := do
  expectCount 2 (do
    let (vkey, _) ← readBytes data
    let (signature, _) ← readBytes data
    return ⟨vkey, signature⟩) (← readArrayHeader data)

def vkeyWitnessEntry (data : Bytes) (witnesses : List VKeyWitnessRef) :
    Read (List VKeyWitnessRef) := do
  let (key, _) ← readUint data
  if key = 0 then
    skipOptionalTag data
    readArray data (decodeVKeyWitness data)
  else
    let _ ← skip data
    return witnesses

def decodeConwayVKeyWitnessSetSingle (data : Bytes) : Except LedgerError (List VKeyWitnessRef) :=
  ((forEachEntry data (vkeyWitnessEntry data) []).runAt 0).1.mapError .decoding

def decodeBootstrapWitness (data : Bytes) : Read BootstrapWitnessRef := do
  expectCount 4 (do
    let (vkey, _) ← readBytes data
    let (signature, _) ← readBytes data
    let (chainCode, _) ← readBytes data
    let (attributes, _) ← readBytes data
    return ⟨vkey, signature, chainCode, attributes⟩) (← readArrayHeader data)

def decodeBootstrapWitnesses (data : Bytes) : Read (List BootstrapWitnessRef) :=
  readArray data (decodeBootstrapWitness data)

/-- The head of `[0, [0, vkey ‖ chain_code], attributes]`. -/
def bootstrapRootPrefix : Bytes := [0x83, 0x00, 0x82, 0x00, 0x58, 0x40]

section
variable (hashes : WitnessHashes)

def bootstrapKeyHash (vkey chainCode attributes : Bytes) : Hash28 :=
  hashes.blake2b224
    (hashes.sha3_256 (bootstrapRootPrefix ++ vkey ++ chainCode ++ attributes)).toList

def BootstrapWitnessRef.keyHash (witness : BootstrapWitnessRef) : Hash28 :=
  bootstrapKeyHash hashes witness.vkey witness.chainCode witness.attributes

def decodeVKeyHash (data : Bytes) : Read Hash28 := do
  expectCount 2 (do
    let (vkey, _) ← readBytes data
    let _ ← skip data
    return hashes.blake2b224 vkey) (← readArrayHeader data)

def decodeVKeyHashes (data : Bytes) : Read (BTreeSet Hash28) := do
  return ExtTreeSet.ofList (← readArray data (decodeVKeyHash hashes data))

def hashPlutusScripts (data : Bytes) (tag : UInt8) (known : BTreeSet Hash28) :
    Read (BTreeSet Hash28) := do
  skipOptionalTag data
  let scripts ← readArray data (readBytes data)
  return known.insertMany (scripts.map fun script =>
    prefixedScriptHash hashes.blake2b224 tag script.1)

def decodeWitnessNativeScripts (data : Bytes) : Read (List WitnessNativeScript) := do
  let scripts ← decodeNativeScriptsPreserved data
  return scripts.map fun entry =>
    ⟨prefixedScriptHash hashes.blake2b224 nativeScriptPrefix (slice data entry.2), entry.1⟩

/-- A repeated key replaces what was there, but Plutus scripts are gathered. -/
def witnessEntry (data : Bytes) (info : WitnessSetInfo) : Read WitnessSetInfo := do
  let (key, _) ← readUint data
  if key = 0 then
    skipOptionalTag data
    return { info with availableKeyHashes := ← decodeVKeyHashes hashes data }
  else if key = 1 then
    skipOptionalTag data
    return { info with nativeScripts := ← decodeWitnessNativeScripts hashes data }
  else if key = 2 then
    skipOptionalTag data
    let bootstrapWitnesses ← decodeBootstrapWitnesses data
    return { info with
      bootstrapWitnesses
      bootstrapKeyHashes :=
        ExtTreeSet.ofList (bootstrapWitnesses.map (BootstrapWitnessRef.keyHash hashes)) }
  else if key = 3 then
    return { info with
      hasPlutusV1 := true
      plutusScriptHashes := ← hashPlutusScripts hashes data plutusV1Prefix info.plutusScriptHashes }
  else if key = 6 then
    return { info with
      hasPlutusV2 := true
      plutusScriptHashes := ← hashPlutusScripts hashes data plutusV2Prefix info.plutusScriptHashes }
  else if key = 7 then
    return { info with
      hasPlutusV3 := true
      plutusScriptHashes := ← hashPlutusScripts hashes data plutusV3Prefix info.plutusScriptHashes }
  else if key = 5 then return { info with totalExUnits := ← sumRedeemerExUnits data }
  else
    let _ ← skip data
    return info

/-- Bytes behind the map are passed over. -/
def decodeWitnessInfoSingle (data : Bytes) : Except LedgerError WitnessSetInfo :=
  ((forEachEntry data (witnessEntry hashes data) .empty).runAt 0).1.mapError .decoding

end

end Ade.Ledger
