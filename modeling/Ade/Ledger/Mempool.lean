import Ade.Ledger.PhaseOne

/-! The validity of one transaction, and the mempool that admits by it. -/

namespace Ade.Ledger
open Std Library
open Ade.Codec (CodecError decodeConwayCerts decodeProposalProcedures)

inductive PlutusEvalOutcome where
  | ineligible
  | passed (totalCpu totalMem : Int) (scriptCount : Nat)
  | failed (reason : String)
deriving DecidableEq, Repr

/-- What a script evaluation is given. -/
structure PlutusRequest where
  bodyBytes : Bytes
  witnessBytes : Bytes
  inputs : BTreeSet TxIn
  collateral : Option (BTreeSet TxIn)
  referenceInputs : Option (BTreeSet TxIn)
  utxo : OverlayUtxo
  era : CardanoEra
  initialBudget : UInt64 × UInt64
  costModelsCbor : Option Bytes

/-- Cryptography, the evaluation of scripts, and the decoders of older eras. -/
structure TxEnv where
  crypto : TxCrypto
  tryEvaluateTx : PlutusRequest → PlutusEvalOutcome
  /-- `maxOverlayEntries` in the source. -/
  bound : Nat
  older : OlderEras
  decodeCertificates : Bytes → Except CodecError (List Certificate)

/-! ## Validity -/

inductive TxValidityVerdict where
  | valid (txId : Hash32) (applied : LedgerState OverlayUtxo)
  | invalid (rejected : TxRejectClass) (failure : TxValidityError)

structure TxValidityOutcome where
  verdict : TxValidityVerdict
  applied : LedgerState OverlayUtxo

/-- The state is the one before. -/
def TxValidityOutcome.invalid (ledger : LedgerState OverlayUtxo) (failure : TxValidityError) :
    TxValidityOutcome where
  verdict := .invalid failure.class failure
  applied := ledger

def plutusRequest (ledger : LedgerState OverlayUtxo) (tx : DecodedTx) : PlutusRequest where
  bodyBytes := tx.bodyBytes
  witnessBytes := tx.witnessSetBytes
  inputs := tx.body.inputs
  collateral := tx.body.collateralInputs
  referenceInputs := tx.body.referenceInputs
  utxo := ledger.utxoState
  era := .conway
  initialBudget := (ledger.protocolParams.maxTxExUnitsCpu, ledger.protocolParams.maxTxExUnitsMem)
  costModelsCbor := ledger.protocolParams.costModelsCbor

section
variable (env : TxEnv)

/-- Transactions without Plutus scripts, and those whose inputs are not all known, pass. -/
def txPhaseTwo (ledger : LedgerState OverlayUtxo) (tx : DecodedTx) : Except TxValidityError Unit :=
  if tx.witnessInfo.hasPlutus then
    match env.tryEvaluateTx (plutusRequest ledger tx) with
    | .failed _ => .error .phase2
    | .passed _ _ _ | .ineligible => .ok ()
  else .ok ()

/-- The decoded transaction, and the UTxO behind it. -/
def checkTx (ledger : LedgerState OverlayUtxo) (txCbor : Bytes) :
    Except TxValidityError (DecodedTx × OverlayUtxo) := do
  let tx ← decodeTx env.crypto txCbor
  txPhaseOne env.crypto ledger tx
  txPhaseTwo env ledger tx
  let utxoState ← (applyConwayTxToUtxo env.bound ledger.utxoState tx.body tx.bodyBytes
    tx.txId).mapError fun failure => .phase1 (.ledger failure)
  return (tx, utxoState)

def txValidity (ledger : LedgerState OverlayUtxo) (txCbor : Bytes) : TxValidityOutcome :=
  match checkTx env ledger txCbor with
  | .error failure => .invalid ledger failure
  | .ok (tx, utxoState) =>
      let applied := { ledger with utxoState }
      { verdict := .valid tx.txId applied, applied }

/-! ## Admission -/

structure MempoolState where
  accepted : List Hash32
  accumulating : LedgerState OverlayUtxo

def MempoolState.new (base : LedgerState OverlayUtxo) : MempoolState := ⟨[], base⟩

inductive AdmitOutcome where
  | admitted (txId : Hash32)
  | rejected (rejected : TxRejectClass) (failure : TxValidityError)

def admitTx (mempool : MempoolState) (txCbor : Bytes) : MempoolState × AdmitOutcome :=
  match (txValidity env mempool.accumulating txCbor).verdict with
  | .valid txId applied => (⟨mempool.accepted ++ [txId], applied⟩, .admitted txId)
  | .invalid rejected failure => (mempool, .rejected rejected failure)

/-! ## Runs -/

def admitAll (mempool : MempoolState) (txs : List Bytes) : MempoolState :=
  txs.foldl (fun mempool txCbor => (admitTx env mempool txCbor).1) mempool

/-- The transactions that a run admits, in order. -/
def admittedTxs (mempool : MempoolState) : List Bytes → List DecodedTx
  | [] => []
  | txCbor :: txs =>
      let rest := admittedTxs (admitTx env mempool txCbor).1 txs
      match checkTx env mempool.accumulating txCbor with
      | .ok (tx, _) => tx :: rest
      | .error _ => rest

/-! ## The same transactions in a block -/

def TxEnv.certDecoders : CertDecoders where
  decodeConwayCerts
  decodeCertificates := env.decodeCertificates

def LedgerState.govCertEnv (ledger : LedgerState OverlayUtxo) : Option GovCertEnv :=
  ledger.conwayDepositParams.map fun params => ⟨ledger.epochState.epoch, params.drepActivity⟩

/-- One certificate field. -/
def accumulateField (ledger : LedgerState OverlayUtxo) (certs : CertLedger) (certBytes : Bytes) :
    Except LedgerError CertLedger :=
  accumulateTxCerts env.certDecoders .conway certBytes certs ledger.protocolParams.keyDeposit
    ledger.govCertEnv

/-- Only full certificate and governance states accumulate. -/
def applyCertsOnBlockPath (ledger : LedgerState OverlayUtxo) (tx : DecodedTx) :
    Option (LedgerState OverlayUtxo) :=
  match ledger.certState, ledger.govState with
  | .authoritative cert, .authoritative gov =>
      (((processTxCerts (accumulateField env ledger) tx.bodyBytes ∅ 0 ⟨cert, gov⟩).runAt
        0).1.toOption).map fun after => { ledger with
          certState := .authoritative after.cert, govState := .authoritative after.gov }
  | _, _ => none

def trackOnBlockPath (utxo : OverlayUtxo) (tx : DecodedTx) : Option OverlayUtxo :=
  ((trackTx decodeProposalProcedures env.bound env.older env.crypto.blake2b256 tx.bodyBytes
    .conway ∅ 0 utxo).runAt 0).1.toOption

/-- The effects of a transaction in a block that does not list it as invalid. -/
def applyOnBlockPath (ledger : LedgerState OverlayUtxo) (tx : DecodedTx) :
    Option (LedgerState OverlayUtxo) := do
  let utxoState ← trackOnBlockPath env ledger.utxoState tx
  applyCertsOnBlockPath env { ledger with utxoState } tx

/-- A run of the mempool leaves the state that the admitted transactions leave in a block, and a
transaction that it rejects leaves nothing. -/
structure AccumulatesAsBlock (base : LedgerState OverlayUtxo) (txs : List Bytes) : Prop where
  effects : (admittedTxs env (.new base) txs).foldlM (applyOnBlockPath env) base =
    some (admitAll env (.new base) txs).accumulating
  rejected : ∀ txCbor rejected failure,
    (admitTx env (admitAll env (.new base) txs) txCbor).2 = .rejected rejected failure →
      (admitTx env (admitAll env (.new base) txs) txCbor).1 = admitAll env (.new base) txs

/-- Applied alone, the certificates of the transaction succeed and leave the state as it is. -/
def CertsInert (base : LedgerState OverlayUtxo) (tx : DecodedTx) : Prop :=
  ∃ cert gov, base.certState = .authoritative cert ∧ base.govState = .authoritative gov ∧
    (valuesAt 4 tx.bodyBytes).foldlM (accumulateField env base) ⟨cert, gov⟩ = .ok ⟨cert, gov⟩

end

end Ade.Ledger
