import Ade.Ledger.ProposalDeposits
import Ade.Ledger.State
import Ade.Ledger.TxEffect
import Ade.Ledger.UtxoFree

/-! Phase one of a Conway transaction: its decoding, the witnesses that it needs, and the checks
against the ledger state. -/

namespace Ade.Ledger
open Std Library
open Ade.Codec (BabbageTxOut CodecError ProposalProcedure decodeProposalProcedures readArrayHeader
  readItem)

abbrev Ed25519VerificationKey := Vector UInt8 32

abbrev Ed25519Signature := Vector UInt8 64

/-- The hashes, and whether a signature's verification gives `Ok(true)`. -/
structure TxCrypto extends WitnessHashes where
  blake2b256 : Bytes → Hash32
  verifyEd25519 : Ed25519VerificationKey → Bytes → Ed25519Signature → Bool

/-! ## Errors -/

inductive WitnessField where
  | verificationKey | signature
deriving DecidableEq, Repr

inductive WitnessClosureError where
  | missingRequiredSigner (keyHash : Hash28) (source : SignerSource)
  | invalidWitnessSignature (keyHash : Hash28)
  | malformedWitnessField (which : WitnessField) (keyHash : Hash28)
  | invalidSuppliedWitnessSignature (keyHash : Hash28)
  | invalidBootstrapWitnessSignature (keyHash : Hash28)
deriving DecidableEq, Repr

/-- The source has these among its ledger errors. -/
inductive PhaseOneError where
  | ledger (failure : LedgerError)
  | requiredSignerDerivation (failure : RequiredSignerError)
  | utxoFreeObligation (failure : UtxoFreeRejection)
  | scriptWitnessDerivation (failure : ScriptWitnessError)
  | nativeScriptFailed (failed : ScriptError)
  | scriptWitnessClosure (failures : ScriptClosureFailures)
  | missingConwayDepositParams
  | reducedCertStateNotValidatable
  | exUnitsTooBig (declaredMem declaredCpu maxMem maxCpu : Int)
  | badInputs (missing : BTreeSet TxIn)
  | nonDisjointRefInputs (intersection : BTreeSet TxIn)
  | noCollateralInputs
  | insufficientCollateral (balance : Int) (required : UInt64) (percent : UInt16) (fee : Coin)
  | collateralContainsNonAda
  | incorrectTotalCollateral (balance : Int) (declared : Coin)
  | missingRequiredSigners (missing : BTreeSet Hash28)
  | wrongNetworkInTxBody (declared current : UInt8)
  | wrongNetworkInOutput (addressFirstByte current : UInt8)

inductive TxValidityError where
  | decode (failure : LedgerError)
  | witness (failure : WitnessClosureError)
  | phase1 (failure : PhaseOneError)
  | phase2

inductive TxRejectClass where
  | phase1Invalid | witnessInvalid | missingRequiredSigner | phase2Invalid | malformedField
deriving DecidableEq, Repr

def TxValidityError.class : TxValidityError → TxRejectClass
  | .decode _ => .malformedField
  | .witness (.missingRequiredSigner _ _) => .missingRequiredSigner
  | .witness _ => .witnessInvalid
  | .phase1 _ => .phase1Invalid
  | .phase2 => .phase2Invalid

/-! ## Decoding -/

structure DecodedTx where
  body : TxBody
  /-- As the body stands in the transaction. -/
  bodyBytes : Bytes
  txId : Hash32
  witnessInfo : WitnessSetInfo
  vkeyWitnesses : List VKeyWitnessRef
  witnessSetBytes : Bytes

/-- What stands behind the witness set is not read. -/
def readTx (data : Bytes) : LedgerRead ((TxBody × Bytes) × Bytes) := do
  match ← decoded (readArrayHeader data) with
  | .definite count _ =>
      if count < 2 then
        throw (.decoding (.invalidCborStructure (← get)
          "Conway transaction must be a definite array of >= 2 elements"))
      let body ← decodeBodyBytes decodeProposalProcedures data
      return (body, ← decoded (readItem data))
  | .indefinite =>
      throw (.decoding (.invalidCborStructure (← get)
        "Conway transaction must be a definite array of >= 2 elements"))

def decodeTx (crypto : TxCrypto) (txCbor : Bytes) : Except TxValidityError DecodedTx := do
  let ((body, bodyBytes), witnessSetBytes) ← ((readTx txCbor).runAt 0).1.mapError .decode
  let witnessInfo ←
    (decodeWitnessInfoSingle crypto.toWitnessHashes witnessSetBytes).mapError .decode
  let vkeyWitnesses ← (decodeConwayVKeyWitnessSetSingle witnessSetBytes).mapError .decode
  return {
    body, bodyBytes, witnessInfo, vkeyWitnesses, witnessSetBytes
    txId := crypto.blake2b256 bodyBytes }

/-! ## Required signers -/

def TxOut.addressBytes : TxOut → Bytes
  | byron address _ => address.asBytes
  | shelleyMary address _ => address
  | alonzoPlus _ address _ => address

def TxOut.coin : TxOut → Coin
  | byron _ coin => coin
  | shelleyMary _ value => value.coin
  | alonzoPlus _ _ coin => coin

/-- Scripts and addresses without a payment part ask for no signature. -/
def paymentKeyHash : Bytes → Except RequiredSignerError (Option Hash28)
  | [] => .error (.malformedField .outputAddress 0)
  | header :: rest =>
      if header >>> 4 > 0x7 ∨ header &&& 0x10 ≠ 0 then .ok none
      else if sized : (rest.take 28).toArray.size = 28 then .ok (some ⟨(rest.take 28).toArray, sized⟩)
      else .error (.malformedField .outputAddress 1)

/-- The addresses of the spent and the collateral outputs. -/
abbrev ResolvedInputs := BTreeMap TxIn Bytes

def spendableInputs (body : TxBody) : List TxIn :=
  body.inputs.toList ++ (body.collateralInputs.map ExtTreeSet.toList).getD []

/-- The first input that is not in the UTxO ends it. -/
def resolveInputs (utxo : OverlayUtxo) (inputs : List TxIn) : Option ResolvedInputs :=
  inputs.foldlM (fun (resolved : ResolvedInputs) input =>
    (utxo.get input).map fun out => resolved.insert input out.addressBytes) ∅

def requireInput (resolved : ResolvedInputs) (source : SignerSource) (req : RequiredSigners)
    (input : TxIn) : Except RequiredSignerError RequiredSigners :=
  match resolved[input]? with
  | none => .error (.unresolvableInput input)
  | some address => do
      match ← paymentKeyHash address with
      | some hash => return req.require source hash
      | none => return req

def collectKeys (source : SignerSource) (walk : Bytes → Except RequiredSignerError (List Credential))
    (field : Option Bytes) (req : RequiredSigners) : Except RequiredSignerError RequiredSigners :=
  match field with
  | none => .ok req
  | some bytes => do return (← walk bytes).foldl (requireKey source) req

/-- The sources that need no UTxO. -/
def collectTxDerived (body : TxBody) (req : RequiredSigners) :
    Except RequiredSignerError RequiredSigners := do
  let req := ((body.requiredSigners.map ExtTreeSet.toList).getD []).foldl
    (RequiredSigners.require · .explicitRequiredSigner) req
  let req ← collectKeys .withdrawalKey walkWithdrawalCredentials body.withdrawals req
  let req ← collectKeys .certificateKey walkCertificateCredentials body.certs req
  collectKeys .governanceVoter walkVoterCredentials body.votingProcedures req

def txDerivedRequiredSigners (body : TxBody) : Except RequiredSignerError RequiredSigners :=
  collectTxDerived body ⟨∅, ∅⟩

def requiredSigners (body : TxBody) (resolved : ResolvedInputs) :
    Except RequiredSignerError RequiredSigners := do
  let req ← body.inputs.toList.foldlM (requireInput resolved .inputPaymentKey) ⟨∅, ∅⟩
  let req ← ((body.collateralInputs.map ExtTreeSet.toList).getD []).foldlM
    (requireInput resolved .collateralPaymentKey) req
  collectTxDerived body req

/-! ## Signatures -/

/-- The first source in the order of the enumeration. -/
def firstSource (required : RequiredSigners) (keyHash : Hash28) : SignerSource :=
  ([.inputPaymentKey, .explicitRequiredSigner, .withdrawalKey, .certificateKey, .governanceVoter,
    .collateralPaymentKey].find? fun source => (source, keyHash) ∈ required.provenance).getD
      .explicitRequiredSigner

structure ParsedWitness where
  keyHash : Hash28
  vk : Ed25519VerificationKey
  sig : Ed25519Signature

def parseWitness (keyHash : Hash28) (vkey signature : Bytes) :
    Except WitnessClosureError ParsedWitness :=
  if key : vkey.toArray.size = 32 then
    if sig : signature.toArray.size = 64 then
      .ok ⟨keyHash, ⟨vkey.toArray, key⟩, ⟨signature.toArray, sig⟩⟩
    else .error (.malformedWitnessField .signature keyHash)
  else .error (.malformedWitnessField .verificationKey keyHash)

section
variable (crypto : TxCrypto)

def ParsedWitness.verifies (bodyHash : Hash32) (witness : ParsedWitness) : Bool :=
  crypto.verifyEd25519 witness.vk bodyHash.toList witness.sig

def VKeyWitnessRef.parse (witness : VKeyWitnessRef) : Except WitnessClosureError ParsedWitness :=
  parseWitness (crypto.blake2b224 witness.vkey) witness.vkey witness.signature

def BootstrapWitnessRef.parse (witness : BootstrapWitnessRef) :
    Except WitnessClosureError ParsedWitness :=
  parseWitness (witness.keyHash crypto.toWitnessHashes) witness.vkey witness.signature

/-- A key that a witness claims, but does not sign for, is told from one without a witness. -/
def checkCovered (bodyHash : Hash32) (required : RequiredSigners) (parsed : List ParsedWitness)
    (keyHash : Hash28) : Except WitnessClosureError Unit :=
  let matching := parsed.filter fun witness => witness.keyHash = keyHash
  if matching.any (ParsedWitness.verifies crypto bodyHash) then .ok ()
  else if matching.isEmpty then
    .error (.missingRequiredSigner keyHash (firstSource required keyHash))
  else .error (.invalidWitnessSignature keyHash)

/-- All the witnesses are parsed first. -/
def verifyRequiredWitnesses (bodyHash : Hash32) (required : RequiredSigners)
    (witnesses : List VKeyWitnessRef) : Except WitnessClosureError Unit := do
  let parsed ← witnesses.mapM (VKeyWitnessRef.parse crypto)
  required.keys.toList.forM (checkCovered crypto bodyHash required parsed)

def checkSupplied (bodyHash : Hash32) (invalid : Hash28 → WitnessClosureError)
    (parsed : Except WitnessClosureError ParsedWitness) : Except WitnessClosureError Unit := do
  let witness ← parsed
  if witness.verifies crypto bodyHash then return ()
  else throw (invalid witness.keyHash)

def verifySuppliedWitnesses (bodyHash : Hash32) (vkeyWitnesses : List VKeyWitnessRef)
    (bootstrapWitnesses : List BootstrapWitnessRef) : Except WitnessClosureError Unit := do
  vkeyWitnesses.forM fun witness =>
    checkSupplied crypto bodyHash .invalidSuppliedWitnessSignature (witness.parse crypto)
  bootstrapWitnesses.forM fun witness =>
    checkSupplied crypto bodyHash .invalidBootstrapWitnessSignature (witness.parse crypto)

end

/-! ## Scripts -/

def ResolvedScriptOutput.fromRawOutput (raw : Bytes) :
    Except ScriptWitnessError ResolvedScriptOutput :=
  match ((Codec.decodeBabbageTxOut raw).runAt 0).1 with
  | .ok out => .ok ⟨out.address, out.scriptRef⟩
  | .error _ => .error .malformedResolvedOutput

/-- Outputs of the eras before Alonzo hold no script. -/
def ResolvedScriptOutput.fromTxout : TxOut → Except ScriptWitnessError ResolvedScriptOutput
  | .alonzoPlus raw _ _ => fromRawOutput raw
  | out => .ok ⟨out.addressBytes, none⟩

def scriptInputs (body : TxBody) : List TxIn :=
  body.inputs.toList ++ (body.referenceInputs.map ExtTreeSet.toList).getD []

/-- There is no context if an input is absent, and an error at an output that is malformed. -/
def resolveFromUtxo (body : TxBody) (lookup : TxIn → Option TxOut) :
    Except ScriptWitnessError (Option ResolvedScriptContext) :=
  go (scriptInputs body) ∅
where
  go : List TxIn → BTreeMap TxIn ResolvedScriptOutput →
      Except ScriptWitnessError (Option ResolvedScriptContext)
    | [], outputs => .ok (some ⟨outputs⟩)
    | input :: inputs, outputs =>
        if outputs.contains input then go inputs outputs
        else
          match lookup input with
          | none => .ok none
          | some out => do go inputs (outputs.insert input (← ResolvedScriptOutput.fromTxout out))

def checkScriptWitnesses (blake2b224 : Bytes → Hash28) (body : TxBody) (witnesses : WitnessInfo)
    (context : Option ResolvedScriptContext) : Except PhaseOneError NativeScriptVerdict := do
  let verdict ←
    (nativeScriptVerdict blake2b224 body witnesses context).mapError .scriptWitnessDerivation
  match verdict with
  | .reduced (.definiteReject failed) => .error (.nativeScriptFailed failed)
  | .exact (.invalid failures) => .error (.scriptWitnessClosure failures)
  | .reduced .undetermined | .exact .valid => .ok verdict

/-! ## Checks against the state -/

def checkTxExUnitsWithinCap (declared : TotalExUnits) (maxMem maxCpu : Int) :
    Except PhaseOneError Unit :=
  if declared.mem ≤ maxMem ∧ declared.cpu ≤ maxCpu then .ok ()
  else .error (.exUnitsTooBig declared.mem declared.cpu maxMem maxCpu)

def collectRequiredTxins (body : TxBody) : BTreeSet TxIn :=
  (body.inputs.insertMany ((body.collateralInputs.map ExtTreeSet.toList).getD [])).insertMany
    ((body.referenceInputs.map ExtTreeSet.toList).getD [])

def checkInputsPresent (inputs : BTreeSet TxIn) (utxo : OverlayUtxo) : Except PhaseOneError Unit :=
  let missing := inputs.filter fun input => ¬ utxo.contains input
  if missing.isEmpty then .ok () else .error (.badInputs missing)

/-- Only from protocol version 9 to 10. -/
def checkReferenceInputDisjoint (inputs referenceInputs : BTreeSet TxIn) (pvMajor : UInt16) :
    Except PhaseOneError Unit :=
  if pvMajor > 8 ∧ pvMajor < 11 then
    let intersection := inputs.filter fun input => referenceInputs.contains input
    if intersection.isEmpty then .ok () else .error (.nonDisjointRefInputs intersection)
  else .ok ()

def checkCollateralNonEmpty (collateral : BTreeSet TxIn) : Except PhaseOneError Unit :=
  if collateral.isEmpty then .error .noCollateralInputs else .ok ()

def hasAssets : TxOut → Bool
  | .shelleyMary _ value => ¬ value.multiAsset.isEmpty
  | _ => false -- assets of later outputs are not looked for

/-- The sum saturates at 128 bits. -/
def sumCollateral (collateral : BTreeSet TxIn) (utxo : OverlayUtxo) : Nat × Bool :=
  let outs := collateral.toList.filterMap utxo.get
  (outs.foldl (fun sum out => min (sum + out.coin.toNat) (2 ^ 128 - 1)) 0, outs.any hasAssets)

/-- `as i128`. -/
def u128AsI128 (sum : Nat) : Int := if sum < 2 ^ 127 then sum else sum - 2 ^ 128

/-- A collateral of fewer than `2 ^ 63` inputs is far from the bounds of `i128`. -/
def computeCollateralBalance (sum : Nat) (returned : Coin) : Int := u128AsI128 sum - returned.toNat

def saturatingMulI128 (a b : Int) : Int := max (-2 ^ 127) (min (a * b) (2 ^ 127 - 1))

def requiredCollateral (percent : UInt16) (fee : Coin) : UInt64 :=
  UInt64.ofNat (min ((percent.toNat * fee.toNat + 99) / 100) (2 ^ 64 - 1))

def checkCollateralPercent (balance : Int) (percent : UInt16) (fee : Coin) :
    Except PhaseOneError Unit :=
  if saturatingMulI128 percent.toNat fee.toNat ≤ saturatingMulI128 balance 100 then .ok ()
  else .error (.insufficientCollateral balance (requiredCollateral percent fee) percent fee)

def checkCollateralContainsNonAda (anyNonAda hasReturn : Bool) : Except PhaseOneError Unit :=
  if anyNonAda ∧ ¬ hasReturn then .error .collateralContainsNonAda else .ok ()

def checkTotalCollateral (balance : Int) : Option Coin → Except PhaseOneError Unit
  | none => .ok ()
  | some declared =>
      if balance = declared.toNat then .ok () else .error (.incorrectTotalCollateral balance declared)

def checkCollateral (body : TxBody) (utxo : OverlayUtxo) (percent : UInt16)
    (collateral : BTreeSet TxIn) : Except PhaseOneError Unit :=
  if collateral.isEmpty then .ok ()
  else do
    let (sum, anyNonAda) := sumCollateral collateral utxo
    let balance := computeCollateralBalance sum ((body.collateralReturn.map BabbageTxOut.coin).getD 0)
    checkCollateralPercent balance percent body.fee
    checkCollateralContainsNonAda anyNonAda body.collateralReturn.isSome
    checkTotalCollateral balance body.totalCollateral

def checkRequiredSigners (available required : BTreeSet Hash28) : Except PhaseOneError Unit :=
  let missing := required.filter fun key => ¬ available.contains key
  if missing.isEmpty then .ok () else .error (.missingRequiredSigners missing)

def checkTxNetworkId (current : UInt8) : Option UInt8 → Except PhaseOneError Unit
  | none => .ok ()
  | some declared =>
      if declared = current then .ok () else .error (.wrongNetworkInTxBody declared current)

def checkAddressNetwork (current : UInt8) (out : BabbageTxOut) : Except PhaseOneError Unit :=
  match addressNetwork out.address with
  | .ok network =>
      if network = current then .ok ()
      else .error (.wrongNetworkInOutput (out.address.head?.getD 0) current)
  | .error _ => .error (.wrongNetworkInOutput (out.address.head?.getD 0) current)

structure StateBackedParams where
  collateralPercent : UInt16
  currentNetwork : UInt8
  protocolVersionMajor : UInt16
  maxMem : Int
  maxCpu : Int
  depositParams : ConwayDepositParams

def validateConwayStateBacked (body : TxBody) (utxo : OverlayUtxo) (witnessInfo : WitnessSetInfo)
    (params : StateBackedParams) (certState : CertState) : Except PhaseOneError Unit := do
  checkTxExUnitsWithinCap witnessInfo.totalExUnits params.maxMem params.maxCpu
  checkInputsPresent (collectRequiredTxins body) utxo
  checkReferenceInputDisjoint body.inputs (body.referenceInputs.getD ∅) params.protocolVersionMajor
  if witnessInfo.totalExUnits.mem > 0 ∨ witnessInfo.totalExUnits.cpu > 0 then
    checkCollateralNonEmpty (body.collateralInputs.getD ∅)
  body.collateralInputs.forM (checkCollateral body utxo params.collateralPercent)
  body.requiredSigners.forM (checkRequiredSigners witnessInfo.availableKeyHashes)
  (checkConwayCoinConservation conwayDecoders (coinFields body)
    (fun input => (utxo.get input).map TxOut.coin) params.depositParams certState).mapError .ledger
  checkTxNetworkId params.currentNetwork body.networkId
  (body.outputs ++ body.collateralReturn.toList).forM (checkAddressNetwork params.currentNetwork)

/-! ## Phase one -/

/-- `as i64`. -/
def asI64 (value : UInt64) : Int :=
  if value.toNat < 2 ^ 63 then value.toNat else value.toNat - 2 ^ 64

def LedgerState.stateBackedParams (ledger : LedgerState OverlayUtxo) :
    Except PhaseOneError StateBackedParams :=
  match ledger.conwayDepositParams with
  | none => .error .missingConwayDepositParams
  | some _ => .ok {
      collateralPercent := ledger.protocolParams.collateralPercent
      currentNetwork := ledger.protocolParams.networkId
      protocolVersionMajor := UInt16.ofNat ledger.protocolParams.protocolMajor.toNat
      maxMem := asI64 ledger.protocolParams.maxTxExUnitsMem
      maxCpu := asI64 ledger.protocolParams.maxTxExUnitsCpu
      depositParams := ⟨ledger.protocolParams.keyDeposit, ledger.protocolParams.poolDeposit⟩ }

def LedgerState.authoritativeCerts (ledger : LedgerState OverlayUtxo) :
    Except PhaseOneError CertState :=
  match ledger.certState with
  | .authoritative certs => .ok certs
  | .reducedUnavailable => .error .reducedCertStateNotValidatable

/-- Of unresolved inputs only the sources in the transaction itself are required. -/
def requiredOf (ledger : LedgerState OverlayUtxo) (body : TxBody) :
    Except RequiredSignerError RequiredSigners :=
  if ledger.trackUtxo then
    match resolveInputs ledger.utxoState (spendableInputs body) with
    | some resolved => requiredSigners body resolved
    | none => txDerivedRequiredSigners body
  else txDerivedRequiredSigners body

def scriptContext (ledger : LedgerState OverlayUtxo) (body : TxBody) :
    Except ScriptWitnessError (Option ResolvedScriptContext) :=
  if ledger.trackUtxo then resolveFromUtxo body ledger.utxoState.get else .ok none

def txPhaseOne (crypto : TxCrypto) (ledger : LedgerState OverlayUtxo) (tx : DecodedTx) :
    Except TxValidityError Unit := do
  let required ←
    (requiredOf ledger tx.body).mapError fun failure => .phase1 (.requiredSignerDerivation failure)
  (verifyRequiredWitnesses crypto tx.txId required tx.vkeyWitnesses).mapError .witness
  (verifySuppliedWitnesses crypto tx.txId tx.vkeyWitnesses
    tx.witnessInfo.bootstrapWitnesses).mapError .witness
  (checkTxNetworks tx.body ledger.protocolParams.networkId).mapError fun failure =>
    .phase1 (.utxoFreeObligation failure)
  let context ←
    (scriptContext ledger tx.body).mapError fun failure => .phase1 (.scriptWitnessDerivation failure)
  let _ ← (checkScriptWitnesses crypto.blake2b224 tx.body tx.witnessInfo.toWitnessInfo
    context).mapError .phase1
  if ledger.trackUtxo then
    let params ← ledger.stateBackedParams.mapError .phase1
    let certs ← ledger.authoritativeCerts.mapError .phase1
    (validateConwayStateBacked tx.body ledger.utxoState tx.witnessInfo params certs).mapError .phase1

end Ade.Ledger
