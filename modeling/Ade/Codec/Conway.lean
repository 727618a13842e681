import Ade.Codec.Skip
import Ade.Ledger.Utxo

/-! The typed decoder of a Conway transaction body. -/

namespace Ade.Codec
open Std Library
open Ade.Ledger (TxIn)

abbrev Coin := UInt64

def skip (data : Bytes) : Read (Nat × Nat) := Cursor.ofRun (skipItem data)

def slice (data : Bytes) (range : Nat × Nat) : Bytes := (data.drop range.1).take (range.2 - range.1)

/-- An item as it stands in the data. -/
def readItem (data : Bytes) : Read Bytes := do return slice data (← skip data)

/-- Any tag is passed over, not only that of a set. -/
def skipOptionalTag (data : Bytes) : Read Unit := do
  if (← get) < data.length then
    if (← peekMajor data) = majorTag then
      let _ ← readTag data

def readHash (size : Nat) (detail : String) (data : Bytes) : Read (Vector UInt8 size) := do
  let (bytes, _) ← readBytes data
  if sized : bytes.toArray.size = size then return ⟨bytes.toArray, sized⟩
  else throw (.invalidLength ((← get) - bytes.length) detail)

def readHash32 : Bytes → Read Hash32 := readHash 32 "expected 32-byte hash"

def readHash28 : Bytes → Read Hash28 := readHash 28 "expected 28-byte key hash"

/-- After the header of an array that must have two elements. -/
def expectPair {α : Type} (detail : String) (next : Read α) : ContainerEncoding → Read α
  | .definite count _ =>
      if count = 2 then next else do throw (.invalidCborStructure (← get) detail)
  | .indefinite => do throw (.invalidCborStructure (← get) detail)

/-- After a header that must be of definite length. -/
def expectDefinite {α : Type} (detail : String) (next : UInt64 → Read α) :
    ContainerEncoding → Read α
  | .definite count _ => next count
  | .indefinite => do throw (.invalidCborStructure (← get) detail)

/-! ## Inputs -/

def decodeTxIn (data : Bytes) : Read TxIn := do
  expectPair "tx input must be array(2)" (do
    let txHash ← readHash32 data
    let (index, _) ← readUint data
    return { txHash, index := UInt16.ofNat index.toNat }) (← readArrayHeader data)

def decodeTxInputs (data : Bytes) : Read (BTreeSet TxIn) := do
  return ExtTreeSet.ofList (← readArray data (decodeTxIn data))

def decodeRequiredSigners (data : Bytes) : Read (BTreeSet Hash28) := do
  skipOptionalTag data
  return ExtTreeSet.ofList (← readArray data (readHash28 data))

/-! ## Outputs -/

structure BabbageTxOut where
  address : Bytes
  coin : Coin
  multiAsset : Option Bytes
  datumOption : Option Bytes
  scriptRef : Option Bytes
deriving DecidableEq, Repr

def decodeValue (data : Bytes) : Read (Coin × Option Bytes) := do
  let major ← peekMajor data
  if major = majorUnsigned then
    let (coin, _) ← readUint data
    return (coin, none)
  else if major = majorArray then
    expectPair "Babbage value array must be array(2)" (do
      let (coin, _) ← readUint data
      let multiAsset ← readItem data
      return (coin, some multiAsset)) (← readArrayHeader data)
  else throw (.unexpectedCborType (← get) "uint or array for value" major)

structure PartialTxOut where
  address : Option Bytes
  coin : Coin
  multiAsset : Option Bytes
  datumOption : Option Bytes
  scriptRef : Option Bytes

/-- A plain coin leaves the assets of an earlier entry in place. -/
def decodeTxOutEntry (data : Bytes) (out : PartialTxOut) : Read PartialTxOut := do
  let (key, _) ← readUint data
  if key = 0 then
    let (address, _) ← readBytes data
    return { out with address := some address }
  else if key = 1 then
    let (coin, multiAsset) ← decodeValue data
    return { out with coin, multiAsset := multiAsset.or out.multiAsset }
  else if key = 2 then return { out with datumOption := some (← readItem data) }
  else if key = 3 then return { out with scriptRef := some (← readItem data) }
  else
    let _ ← skip data
    return out

def requireAddress (out : PartialTxOut) : Read BabbageTxOut :=
  match out.address with
  | some address => pure { out with address }
  | none => do throw (.invalidCborStructure (← get) "Babbage tx output missing address (key 0)")

def decodeBabbageTxOutMap (data : Bytes) : Read BabbageTxOut := do
  expectDefinite "Babbage tx output map must be definite-length" (fun count => do
    requireAddress (← Cursor.iterate (decodeTxOutEntry data) count.toNat ⟨none, 0, none, none, none⟩))
    (← readMapHeader data)

/-- An item that only longer arrays have. -/
def readItemIf (present : Bool) (data : Bytes) : Read (Option Bytes) :=
  if present then some <$> readItem data else pure none

def decodeBabbageTxOutFields (data : Bytes) (count : UInt64) : Read BabbageTxOut := do
  if 2 ≤ count ∧ count ≤ 4 then
    let (address, _) ← readBytes data
    let (coin, multiAsset) ← decodeValue data
    let datumOption ← readItemIf (count ≥ 3) data
    let scriptRef ← readItemIf (count ≥ 4) data
    return { address, coin, multiAsset, datumOption, scriptRef }
  else throw (.invalidCborStructure (← get) "Babbage tx output array must have 2-4 elements")

def decodeBabbageTxOutArray (data : Bytes) : Read BabbageTxOut := do
  expectDefinite "Babbage tx output array must have 2-4 elements" (decodeBabbageTxOutFields data)
    (← readArrayHeader data)

def decodeBabbageTxOut (data : Bytes) : Read BabbageTxOut := do
  let major ← peekMajor data
  if major = majorMap then decodeBabbageTxOutMap data
  else if major = majorArray then decodeBabbageTxOutArray data
  else throw (.unexpectedCborType (← get) "array or map for Babbage tx output" major)

def decodeConwayOutputs (data : Bytes) : Read (List BabbageTxOut) :=
  readArray data (decodeBabbageTxOut data)

/-! ## The body -/

structure ConwayTxBody (Procedure : Type) where
  inputs : BTreeSet TxIn
  outputs : List BabbageTxOut
  fee : Coin
  ttl : Option SlotNo
  certs : Option Bytes
  withdrawals : Option Bytes
  metadataHash : Option Hash32
  validityIntervalStart : Option SlotNo
  mint : Option Bytes
  scriptDataHash : Option Hash32
  collateralInputs : Option (BTreeSet TxIn)
  requiredSigners : Option (BTreeSet Hash28)
  networkId : Option UInt8
  collateralReturn : Option BabbageTxOut
  totalCollateral : Option Coin
  referenceInputs : Option (BTreeSet TxIn)
  votingProcedures : Option Bytes
  proposalProcedures : Option (List Procedure)
  treasuryValue : Option Coin
  donation : Option Coin

/-- The entries read so far; a repeated key replaces what was there. -/
structure PartialTxBody (Procedure : Type) where
  inputs : Option (BTreeSet TxIn)
  outputs : Option (List BabbageTxOut)
  fee : Option Coin
  ttl : Option SlotNo
  certs : Option Bytes
  withdrawals : Option Bytes
  metadataHash : Option Hash32
  validityIntervalStart : Option SlotNo
  mint : Option Bytes
  scriptDataHash : Option Hash32
  collateralInputs : Option (BTreeSet TxIn)
  requiredSigners : Option (BTreeSet Hash28)
  networkId : Option UInt8
  collateralReturn : Option BabbageTxOut
  totalCollateral : Option Coin
  referenceInputs : Option (BTreeSet TxIn)
  votingProcedures : Option Bytes
  proposalProcedures : Option (List Procedure)
  treasuryValue : Option Coin
  donation : Option Coin

def PartialTxBody.empty {Procedure : Type} : PartialTxBody Procedure :=
  ⟨none, none, none, none, none, none, none, none, none, none, none, none, none, none, none, none,
    none, none, none, none⟩

section
variable {Procedure : Type} (decodeProposalProcedures : Bytes → Except CodecError (List Procedure))

def readCoin (data : Bytes) : Read UInt64 := do return (← readUint data).1

def readProcedures (data : Bytes) : Read (List Procedure) := do
  liftExcept (decodeProposalProcedures (← readItem data))

def decodeBodyValue (data : Bytes) (body : PartialTxBody Procedure) (key : UInt64) :
    Read (PartialTxBody Procedure) := do
  if key = 0 then
    skipOptionalTag data
    return { body with inputs := some (← decodeTxInputs data) }
  else if key = 1 then return { body with outputs := some (← decodeConwayOutputs data) }
  else if key = 2 then return { body with fee := some (← readCoin data) }
  else if key = 3 then return { body with ttl := some (← readCoin data) }
  else if key = 4 then return { body with certs := some (← readItem data) }
  else if key = 5 then return { body with withdrawals := some (← readItem data) }
  else if key = 7 then return { body with metadataHash := some (← readHash32 data) }
  else if key = 8 then return { body with validityIntervalStart := some (← readCoin data) }
  else if key = 9 then return { body with mint := some (← readItem data) }
  else if key = 11 then return { body with scriptDataHash := some (← readHash32 data) }
  else if key = 13 then
    skipOptionalTag data
    return { body with collateralInputs := some (← decodeTxInputs data) }
  else if key = 14 then
    skipOptionalTag data
    return { body with requiredSigners := some (← decodeRequiredSigners data) }
  else if key = 15 then
    return { body with networkId := some (UInt8.ofNat (← readCoin data).toNat) }
  else if key = 16 then return { body with collateralReturn := some (← decodeBabbageTxOut data) }
  else if key = 17 then return { body with totalCollateral := some (← readCoin data) }
  else if key = 18 then
    skipOptionalTag data
    return { body with referenceInputs := some (← decodeTxInputs data) }
  else if key = 19 then return { body with votingProcedures := some (← readItem data) }
  else if key = 20 then
    let procedures ← readProcedures decodeProposalProcedures data
    return { body with proposalProcedures := some procedures }
  else if key = 21 then return { body with treasuryValue := some (← readCoin data) }
  else if key = 22 then return { body with donation := some (← readCoin data) }
  else
    let _ ← skip data
    return body

def decodeBodyEntry (data : Bytes) (body : PartialTxBody Procedure) :
    Read (PartialTxBody Procedure) := do
  decodeBodyValue decodeProposalProcedures data body (← readUint data).1

def require {α : Type} (detail : String) : Option α → Read α
  | some value => pure value
  | none => do throw (.invalidCborStructure (← get) detail)

def requireFields (body : PartialTxBody Procedure) : Read (ConwayTxBody Procedure) := do
  let inputs ← require "Conway tx body missing inputs (key 0)" body.inputs
  let outputs ← require "Conway tx body missing outputs (key 1)" body.outputs
  let fee ← require "Conway tx body missing fee (key 2)" body.fee
  return { body with inputs, outputs, fee }

def decodeConwayTxBody (data : Bytes) : Read (ConwayTxBody Procedure) := do
  expectDefinite "Conway tx body must be definite-length map" (fun count => do
    requireFields (← Cursor.iterate (decodeBodyEntry decodeProposalProcedures data) count.toNat .empty))
    (← readMapHeader data)

end

end Ade.Codec
