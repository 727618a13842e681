import Ade.Codec.Conway
import Ade.Ledger.GovCert

/-! What a transaction body does: the UTxO effect on the block path and on the mempool path, and the
certificates of a block. -/

namespace Ade.Ledger
open Std Library Codec

abbrev LedgerRead := Cursor LedgerError

def decoded {α : Type} (read : Read α) : LedgerRead α := ExceptT.adapt LedgerError.decoding read

structure ShelleyBlock where
  txCount : UInt64
  txBodies : Bytes
  invalidTxs : Option Bytes

/-! ## Output slices -/

structure AlonzoPlusSlices where
  outputs : List (Nat × Nat)
  collateralReturn : Option (Nat × Nat)

def locateEntry (bodyBytes : Bytes) (slices : AlonzoPlusSlices) : Read AlonzoPlusSlices := do
  let (key, _) ← readUint bodyBytes
  if key = 1 then
    let outputs ← readArray bodyBytes (skip bodyBytes)
    return { slices with outputs := slices.outputs ++ outputs }
  else if key = 16 then return { slices with collateralReturn := some (← skip bodyBytes) }
  else
    let _ ← skip bodyBytes
    return slices

def locateAlonzoPlusSlices (bodyBytes : Bytes) : Read AlonzoPlusSlices := do
  match ← readMapHeader bodyBytes with
  | .indefinite => throw (.invalidCborStructure 0 "Alonzo+ tx body must be definite-length map")
  | .definite count _ => Cursor.iterate (locateEntry bodyBytes) count.toNat ⟨[], none⟩

def alonzoPlus (bodyBytes : Bytes) (out : BabbageTxOut) (range : Nat × Nat) : TxOut :=
  .alonzoPlus (slice bodyBytes range) out.address out.coin

/-- As many outputs as the shorter list has. -/
def alonzoPlusOutputs (bodyBytes : Bytes) (outputs : List BabbageTxOut)
    (ranges : List (Nat × Nat)) : List TxOut :=
  List.zipWith (alonzoPlus bodyBytes) outputs ranges

/-- Indices are cast to `u16`. -/
def indexed (outputs : List TxOut) : List (UInt16 × TxOut) :=
  outputs.zipIdx.map fun entry => (UInt16.ofNat entry.2, entry.1)

def applyEffect (bound : Nat) (spends : List TxIn) (produces : List (UInt16 × TxOut))
    (txId : Hash32) (utxo : OverlayUtxo) : OverlayUtxo :=
  produces.foldl (fun utxo entry => utxo.insert bound ⟨txId, entry.1⟩ entry.2)
    (spends.foldl (fun utxo input => (utxo.remove bound input).1) utxo)

section
variable {Procedure : Type} (decodeProposalProcedures : Bytes → Except CodecError (List Procedure))
  (bound : Nat)

/-! ## The mempool path -/

def applyConwayTxToUtxo (utxo : OverlayUtxo) (body : Codec.ConwayTxBody Procedure)
    (bodyBytes : Bytes) (txId : Hash32) : Except LedgerError OverlayUtxo := do
  let slices ← ((locateAlonzoPlusSlices bodyBytes).runAt 0).1.mapError LedgerError.decoding
  return applyEffect bound body.inputs.toList
    (indexed (alonzoPlusOutputs bodyBytes body.outputs slices.outputs)) txId utxo

/-! ## The block path -/

structure TxUtxoEffect where
  spends : List TxIn
  produces : List (UInt16 × TxOut)
  collateralConsumed : List TxIn
deriving DecidableEq

/-- The decoders of the eras before Conway. -/
structure OlderEras where
  extract : CardanoEra → Bytes → LedgerRead (List TxIn × List TxOut)

variable (older : OlderEras)

/-- A body, and the bytes it was read from. -/
def decodeBodyBytes (data : Bytes) : LedgerRead (Codec.ConwayTxBody Procedure × Bytes) := do
  let start ← get
  let body ← decoded (decodeConwayTxBody decodeProposalProcedures data)
  return (body, slice data (start, ← get))

/-- A reader of its own bytes, started anew. -/
def located (bodyBytes : Bytes) : LedgerRead AlonzoPlusSlices :=
  liftExcept (((locateAlonzoPlusSlices bodyBytes).runAt 0).1.mapError LedgerError.decoding)

def extractInputsOutputsFromTx (data : Bytes) (era : CardanoEra) :
    LedgerRead (List TxIn × List TxOut) := do
  if era = .conway then
    let (body, bodyBytes) ← decodeBodyBytes decodeProposalProcedures data
    let slices ← located bodyBytes
    return (body.inputs.toList, alonzoPlusOutputs bodyBytes body.outputs slices.outputs)
  else older.extract era data

def collateralOutput (bodyStart : Nat) (body : Codec.ConwayTxBody Procedure) (bodyBytes : Bytes)
    (slices : AlonzoPlusSlices) : Except LedgerError (List (UInt16 × TxOut)) :=
  match body.collateralReturn, slices.collateralReturn with
  | some out, some range =>
      .ok [(UInt16.ofNat body.outputs.length, alonzoPlus bodyBytes out range)]
  | none, none => .ok []
  | _, _ => .error (.decoding (.invalidCborStructure bodyStart
      "collateral return present in one view and absent in the other"))

/-- A phase-2-invalid transaction spends its collateral and produces the collateral return. -/
def extractTxUtxoEffect (data : Bytes) (era : CardanoEra) (phase2Invalid : Bool) :
    LedgerRead TxUtxoEffect := do
  if ¬ phase2Invalid then
    let (inputs, outputs) ← extractInputsOutputsFromTx decodeProposalProcedures older data era
    return { spends := inputs, produces := indexed outputs, collateralConsumed := [] }
  else if era = .alonzo ∨ era = .babbage ∨ era = .conway then
    let bodyStart ← get
    let (body, bodyBytes) ← decodeBodyBytes decodeProposalProcedures data
    let slices ← located bodyBytes
    let spends := body.collateralInputs.elim [] fun inputs => inputs.toList
    let produces ← liftExcept (collateralOutput bodyStart body bodyBytes slices)
    return { spends, produces, collateralConsumed := spends }
  else throw (.decoding (.invalidCborStructure (← get)
    "phase-2-invalid transaction in a pre-Alonzo era"))

/-- Entries that are no integers are passed over. -/
def invalidIndices (bytes : Bytes) : Nat → Nat → List UInt64
  | 0, _ => []
  | count + 1, offset =>
      match (readUint bytes).runAt offset with
      | (.ok (index, _), after) => index :: invalidIndices bytes count after
      | (.error _, after) => invalidIndices bytes count after

/-- The first entry that is no integer ends the list. -/
def invalidIndicesUntilBreak (bytes : Bytes) : Nat → Nat → List UInt64
  | 0, _ => []
  | left + 1, offset =>
      match (isBreak bytes).runAt offset with
      | (.ok false, _) =>
          match (readUint bytes).runAt offset with
          | (.ok (index, _), after) => index :: invalidIndicesUntilBreak bytes left after
          | (.error _, _) => []
      | _ => []

def decodeInvalidTxIndices : Option Bytes → BTreeSet UInt64
  | none => ∅
  | some bytes =>
      match (readArrayHeader bytes).runAt 0 with
      | (.ok (.definite count _), after) =>
          ExtTreeSet.ofList (invalidIndices bytes count.toNat after)
      | (.ok .indefinite, after) =>
          ExtTreeSet.ofList (invalidIndicesUntilBreak bytes bytes.length after)
      | (.error _, _) => ∅

/-- One pass over the transactions of a block, with their indices. -/
def forEachTx {σ : Type} (data : Bytes) (processOne : UInt64 → σ → LedgerRead σ) (state : σ) :
    LedgerRead σ := do
  match ← decoded (readArrayHeader data) with
  | .definite count _ =>
      return (← Cursor.iterate (fun state => do
        return (state.1 + 1, ← processOne state.1 state.2)) count.toNat (0, state)).2
  | .indefinite => untilBreak data.length 0 state
where
  untilBreak : Nat → UInt64 → σ → LedgerRead σ
    | 0, _, _ => do throw (.decoding (.unexpectedEof (← get) 1))
    | left + 1, index, state => do
        if ← decoded (isBreak data) then return state
        else untilBreak left (index + 1) (← processOne index state)

def trackTx (crypto : Bytes → Hash32) (data : Bytes) (era : CardanoEra) (invalid : BTreeSet UInt64)
    (index : UInt64) (utxo : OverlayUtxo) : LedgerRead OverlayUtxo := do
  let start ← get
  let effect ← extractTxUtxoEffect decodeProposalProcedures older data era (invalid.contains index)
  let txHash := crypto (slice data (start, ← get))
  return applyEffect bound effect.spends effect.produces txHash utxo

def trackUtxo (blake2b256 : Bytes → Hash32) (block : ShelleyBlock) (era : CardanoEra)
    (utxo : OverlayUtxo) : Except LedgerError OverlayUtxo :=
  if block.txCount = 0 then .ok utxo
  else
    let invalid := decodeInvalidTxIndices block.invalidTxs
    ((forEachTx block.txBodies (trackTx decodeProposalProcedures bound older blake2b256
      block.txBodies era invalid) utxo).runAt 0).1

end

/-! ## Certificates -/

section
variable {σ : Type} (accumulate : σ → Bytes → Except LedgerError σ)

def certEntry (data : Bytes) (skipCerts : Bool) (state : σ) : LedgerRead σ := do
  let (key, _) ← decoded (readUint data)
  if key = 4 ∧ ¬ skipCerts then
    let certBytes ← decoded (readItem data)
    liftExcept (accumulate state certBytes)
  else
    let _ ← decoded (skip data)
    return state

/-- The certificates of an indefinite-length body are passed over. -/
def skipEntries (data : Bytes) : Nat → LedgerRead Unit
  | 0 => do throw (.decoding (.unexpectedEof (← get) 1))
  | left + 1 => do
      if ← decoded (isBreak data) then modify (· + 1)
      else
        let _ ← decoded (skip data)
        let _ ← decoded (skip data)
        skipEntries data left

def processTxCerts (data : Bytes) (invalid : BTreeSet UInt64) (index : UInt64) (state : σ) :
    LedgerRead σ := do
  match ← decoded (readMapHeader data) with
  | .indefinite =>
      skipEntries data data.length
      return state
  | .definite count _ =>
      Cursor.iterate (certEntry accumulate data (invalid.contains index)) count.toNat state

def walkCertificates (block : ShelleyBlock) (state : σ) : Except LedgerError σ :=
  if block.txCount = 0 then .ok state
  else
    let invalid := decodeInvalidTxIndices block.invalidTxs
    ((forEachTx block.txBodies (processTxCerts accumulate block.txBodies invalid) state).runAt 0).1

end

def processBlockCertificates (decoders : CertDecoders) (block : ShelleyBlock) (era : CardanoEra)
    (keyDeposit : Coin) (govEnv : Option GovCertEnv) (ledger : CertLedger) :
    Except LedgerError CertLedger :=
  walkCertificates
    (fun ledger certBytes => accumulateTxCerts decoders era certBytes ledger keyDeposit govEnv)
    block ledger

/-! ## The entries of a body -/

def readField (data : Bytes) : Read (UInt64 × Bytes) := do
  let (key, _) ← readUint data
  return (key, ← readItem data)

/-- The keys of a body, with the bytes of their values. -/
def bodyFields (bodyBytes : Bytes) : List (UInt64 × Bytes) :=
  let fields : Read (List (UInt64 × Bytes)) := do
    expectDefinite "" (fun count => Cursor.times (readField bodyBytes) count.toNat)
      (← readMapHeader bodyBytes)
  (fields.runAt 0).1.toOption.getD []

def valuesAt (key : UInt64) (bodyBytes : Bytes) : List Bytes :=
  ((bodyFields bodyBytes).filter fun field => field.1 = key).map Prod.snd

/-- The outputs under every occurrence of key 1. -/
def outputArrays (bodyBytes : Bytes) : List (List BabbageTxOut) :=
  (valuesAt 1 bodyBytes).filterMap fun value => ((decodeConwayOutputs value).runAt 0).1.toOption

/-! ## Agreement -/

def payee (out : BabbageTxOut) : Bytes × Coin := (out.address, out.coin)

/-- An entry whose `raw` decodes to the address and the coin beside it. -/
def Faithful (out : BabbageTxOut) (produced : UInt16 × TxOut) : Prop :=
  ∃ raw decoded, produced.2 = .alonzoPlus raw out.address out.coin ∧
    (decodeBabbageTxOut raw).runAt 0 = (.ok decoded, raw.length) ∧ payee decoded = payee out

/-- The block path, the mempool path and the certificate walk read the same transaction out of the
bytes, wherever they stand in a block. -/
structure ReadersAgree {Procedure : Type}
    (decodeProposalProcedures : Bytes → Except CodecError (List Procedure)) (bound : Nat)
    (older : OlderEras) (blake2b256 : Bytes → Hash32) (bodyBytes : Bytes)
    (body : Codec.ConwayTxBody Procedure) : Prop where
  sameUtxo : ∀ before after invalid index utxo, ¬ ExtTreeSet.contains invalid index →
    ∃ next, (trackTx decodeProposalProcedures bound older blake2b256 (before ++ bodyBytes ++ after)
      .conway invalid index utxo).runAt before.length =
        (.ok next, before.length + bodyBytes.length) ∧
      applyConwayTxToUtxo bound utxo body bodyBytes (blake2b256 bodyBytes) = .ok next
  produced : ∃ effect, (extractTxUtxoEffect decodeProposalProcedures older bodyBytes .conway
      false).runAt 0 = (.ok effect, bodyBytes.length) ∧
    effect.produces.map (fun entry => entry.1.toNat) = List.range body.outputs.length ∧
    List.Forall₂ Faithful body.outputs effect.produces
  certs : ∀ {σ : Type} (accumulate : σ → Bytes → Except LedgerError σ) (state : σ)
      (before after : Bytes) (invalid : BTreeSet UInt64) (index : UInt64), ¬ invalid.contains index →
    ((processTxCerts accumulate (before ++ bodyBytes ++ after) invalid index state).runAt
      before.length).1 = body.certs.toList.foldlM accumulate state

/-- The certificates occur once at most, there are no more outputs than indices, and the outputs
under all the occurrences of key 1 begin as the last ones do. -/
structure Unambiguous (bodyBytes : Bytes) : Prop where
  certs : (valuesAt 4 bodyBytes).length ≤ 1
  outputs : ∀ last ∈ (outputArrays bodyBytes).getLast?, last.length ≤ 2 ^ 16 ∧
    ((outputArrays bodyBytes).flatten.take last.length).map payee = last.map payee

end Ade.Ledger
