import Ade.Codec.Governance
import Ade.Ledger.RequiredSigners
import Ade.Ledger.Scripts

/-! The closure of the witness scripts of a Conway transaction. -/

namespace Ade.Ledger
open Std Library
open Ade.Codec (NativeScript ProposalProcedure Read isBreak majorTag peekMajor readArrayHeader
  readBytes readMapHeader readTag readUint skip)

abbrev TxBody := Codec.ConwayTxBody ProposalProcedure

inductive ScriptPurpose where
  | spending | rewarding | certifying | minting | voting | proposing
deriving DecidableEq, Repr

/-- The needed script hashes, each with the purposes that demanded it. -/
structure ScriptsNeeded where
  hashes : BTreeSet Hash28
  provenance : Finset (ScriptPurpose × Hash28)

def ScriptsNeeded.empty : ScriptsNeeded := ⟨∅, ∅⟩

def ScriptsNeeded.need (needed : ScriptsNeeded) (purpose : ScriptPurpose) (hash : Hash28) :
    ScriptsNeeded :=
  { needed with hashes := needed.hashes.insert hash
                provenance := insert (purpose, hash) needed.provenance }

structure ResolvedScriptOutput where
  address : Bytes
  scriptRef : Option Bytes
deriving DecidableEq, Repr

/-- The resolved outputs of the spend inputs and the reference inputs of one transaction. -/
structure ResolvedScriptContext where
  outputs : BTreeMap TxIn ResolvedScriptOutput

structure WitnessNativeScript where
  hash : Hash28
  script : NativeScript

structure WitnessInfo where
  availableKeyHashes : BTreeSet Hash28
  nativeScripts : List WitnessNativeScript
  plutusScriptHashes : BTreeSet Hash28
  bootstrapKeyHashes : BTreeSet Hash28

structure ScriptError where
  scriptHash : Hash28
  reason : NativeScriptFailure
deriving DecidableEq, Repr

structure ScriptClosureFailures where
  notValidating : BTreeMap Hash28 NativeScriptFailure
  extraneous : BTreeSet Hash28
  missing : BTreeSet Hash28

def ScriptClosureFailures.isEmpty (failures : ScriptClosureFailures) : Bool :=
  failures.notValidating.isEmpty && failures.extraneous.isEmpty && failures.missing.isEmpty

inductive ReducedScriptVerdict where
  | definiteReject (failed : ScriptError)
  | undetermined
deriving DecidableEq

inductive ExactScriptVerdict where
  | valid
  | invalid (failures : ScriptClosureFailures)

inductive NativeScriptVerdict where
  | reduced (verdict : ReducedScriptVerdict)
  | exact (verdict : ExactScriptVerdict)

inductive ScriptWitnessError where
  | malformedField (failure : RequiredSignerError)
  | malformedMint (offset : Nat)
  | malformedResolvedOutput
  | malformedScriptRef
deriving DecidableEq, Repr

def validityInterval (body : TxBody) : ValidityInterval :=
  ⟨body.validityIntervalStart, body.ttl⟩

def scriptSigners (witnesses : WitnessInfo) : BTreeSet Hash28 :=
  witnesses.availableKeyHashes.insertMany witnesses.bootstrapKeyHashes.toList

/-- Of several scripts with one hash the last is kept. -/
def witnessNativeScripts (witnesses : WitnessInfo) : BTreeMap Hash28 NativeScript :=
  witnesses.nativeScripts.foldl (fun scripts witness => scripts.insert witness.hash witness.script) ∅

def scriptFailure (script : NativeScript) (signers : BTreeSet Hash28) (interval : ValidityInterval) :
    Option NativeScriptFailure :=
  (evaluateNativeScript signers interval script).failure?

/-- The first failing script in the order of the hashes. -/
def reducedVerdict (body : TxBody) (witnesses : WitnessInfo) : ReducedScriptVerdict :=
  let signers := scriptSigners witnesses
  let interval := validityInterval body
  let failed := (witnessNativeScripts witnesses).toList.findSome? fun entry =>
    (scriptFailure entry.2 signers interval).map (ScriptError.mk entry.1)
  match failed with
  | some failed => .definiteReject failed
  | none => .undetermined

/-! ## Needed scripts -/

def paymentScriptHash : Bytes → Option Hash28
  | [] => none
  | header :: rest =>
      if header >>> 4 > 0x7 ∨ header &&& 0x10 = 0 then none
      else if sized : (rest.take 28).toArray.size = 28 then some ⟨(rest.take 28).toArray, sized⟩
      else none

def mintPolicy (data : Bytes) : Cursor ScriptWitnessError Hash28 := do
  let (policy, _) ← failingAt .malformedMint (readBytes data)
  if sized : policy.toArray.size = 28 then
    let _ ← failingAt .malformedMint (skip data)
    return ⟨policy.toArray, sized⟩
  else throw (.malformedMint (← get))

def readMintPolicies (data : Bytes) : Cursor ScriptWitnessError (List Hash28) := do
  if (← failingAt .malformedMint (peekMajor data)) = majorTag then
    let _ ← failingAt .malformedMint (readTag data)
  let enc ← failingAt .malformedMint (readMapHeader data)
  iterate .malformedMint data (mintPolicy data) enc

def mintPolicies (data : Bytes) : Except ScriptWitnessError (List Hash28) :=
  ((readMintPolicies data).runAt 0).1

def needSpending (ctx : ResolvedScriptContext) (needed : ScriptsNeeded) (input : TxIn) : ScriptsNeeded :=
  match (ctx.outputs[input]?).bind fun out => paymentScriptHash out.address with
  | some hash => needed.need .spending hash
  | none => needed

/-- Keys need no script. -/
def needScript (purpose : ScriptPurpose) (needed : ScriptsNeeded) : Credential → ScriptsNeeded
  | .script hash => needed.need purpose hash
  | .key _ => needed

def needWalked (purpose : ScriptPurpose)
    (walk : Bytes → Except RequiredSignerError (List Credential)) (field : Option Bytes)
    (needed : ScriptsNeeded) : Except ScriptWitnessError ScriptsNeeded :=
  match field with
  | none => .ok needed
  | some bytes => do
      let credentials ← (walk bytes).mapError .malformedField
      return credentials.foldl (needScript purpose) needed

def needMinting (mint : Option Bytes) (needed : ScriptsNeeded) :
    Except ScriptWitnessError ScriptsNeeded :=
  match mint with
  | none => .ok needed
  | some bytes => do return (← mintPolicies bytes).foldl (ScriptsNeeded.need · .minting) needed

def guardrail : GovAction → Option Hash28
  | .parameterChange _ _ policyHash => policyHash
  | .treasuryWithdrawals _ policyHash => policyHash
  | _ => none

def needProposing (needed : ScriptsNeeded) (proposal : ProposalProcedure) : ScriptsNeeded :=
  match guardrail proposal.govAction with
  | some hash => needed.need .proposing hash
  | none => needed

def txDerivedScriptsNeeded (body : TxBody) (needed : ScriptsNeeded) :
    Except ScriptWitnessError ScriptsNeeded := do
  let needed ← needWalked .rewarding walkWithdrawalCredentials body.withdrawals needed
  let needed ← needWalked .certifying walkCertificateCredentials body.certs needed
  let needed ← needMinting body.mint needed
  let needed ← needWalked .voting walkVoterCredentials body.votingProcedures needed
  return (body.proposalProcedures.getD []).foldl needProposing needed

def scriptsNeeded (body : TxBody) (ctx : ResolvedScriptContext) :
    Except ScriptWitnessError ScriptsNeeded :=
  txDerivedScriptsNeeded body (body.inputs.toList.foldl (needSpending ctx) .empty)

/-! ## Reference scripts -/

inductive ReferenceScript where
  | native (script : NativeScript)
  | plutus

def nativeScriptPrefix : UInt8 := 0x00

def plutusV1Prefix : UInt8 := 0x01

def plutusV2Prefix : UInt8 := 0x02

def plutusV3Prefix : UInt8 := 0x03

section
variable (blake2b224 : Bytes → Hash28)

def prefixedScriptHash (tag : UInt8) (bytes : Bytes) : Hash28 := blake2b224 (tag :: bytes)

/-- The hash is over the script's own bytes. -/
def readReferenceScript (inner : Bytes) : Cursor ScriptWitnessError (Hash28 × ReferenceScript) := do
  let malformed := fun _ : Nat => ScriptWitnessError.malformedScriptRef
  match ← failingAt malformed (readArrayHeader inner) with
  | .definite 2 _ =>
      let (lang, _) ← failingAt malformed (readUint inner)
      if lang = 0 then
        let (script, range) ← failingAt malformed (Codec.readOne inner)
        return (prefixedScriptHash blake2b224 nativeScriptPrefix (Codec.slice inner range), .native script)
      else if lang = 1 ∨ lang = 2 ∨ lang = 3 then
        let (bytes, _) ← failingAt malformed (readBytes inner)
        let tag :=
          if lang = 1 then plutusV1Prefix else if lang = 2 then plutusV2Prefix else plutusV3Prefix
        return (prefixedScriptHash blake2b224 tag bytes, .plutus)
      else throw .malformedScriptRef
  | _ => throw .malformedScriptRef

def unwrapScriptRef (raw : Bytes) : Cursor ScriptWitnessError Bytes := do
  let malformed := fun _ : Nat => ScriptWitnessError.malformedScriptRef
  let (tag, _) ← failingAt malformed (readTag raw)
  if tag ≠ 24 then throw .malformedScriptRef
  return (← failingAt malformed (readBytes raw)).1

def decodeScriptRef (raw : Bytes) : Except ScriptWitnessError (Hash28 × ReferenceScript) := do
  let inner ← ((unwrapScriptRef raw).runAt 0).1
  ((readReferenceScript blake2b224 inner).runAt 0).1

/-- A later input replaces what an earlier one supplied under the same hash. -/
def referenceScript (ctx : ResolvedScriptContext) (scripts : BTreeMap Hash28 ReferenceScript)
    (input : TxIn) : Except ScriptWitnessError (BTreeMap Hash28 ReferenceScript) :=
  match (ctx.outputs[input]?).bind ResolvedScriptOutput.scriptRef with
  | none => .ok scripts
  | some raw => do
      let (hash, script) ← decodeScriptRef blake2b224 raw
      return scripts.insert hash script

def referenceScripts (body : TxBody) (ctx : ResolvedScriptContext) :
    Except ScriptWitnessError (BTreeMap Hash28 ReferenceScript) :=
  let inputs := body.inputs.toList ++ (body.referenceInputs.map ExtTreeSet.toList).getD []
  inputs.foldlM (referenceScript blake2b224 ctx) ∅

/-! ## The closure -/

/-- The script that is evaluated for a needed hash. -/
def provided (refs : BTreeMap Hash28 ReferenceScript) (witNative : BTreeMap Hash28 NativeScript)
    (hash : Hash28) : Option NativeScript :=
  match refs[hash]? with
  | some (.native script) => some script
  | some .plutus => none
  | none => witNative[hash]?

def noteFailure (failureOf : Hash28 → Option NativeScriptFailure)
    (failures : BTreeMap Hash28 NativeScriptFailure) (hash : Hash28) :
    BTreeMap Hash28 NativeScriptFailure :=
  match failureOf hash with
  | some reason => failures.insert hash reason
  | none => failures

def received (witnesses : WitnessInfo) : BTreeSet Hash28 :=
  ExtTreeSet.ofList ((witnessNativeScripts witnesses).keys ++ witnesses.plutusScriptHashes.toList)

def neededNonRefs (needed : BTreeSet Hash28) (refs : BTreeMap Hash28 ReferenceScript) : BTreeSet Hash28 :=
  needed.filter fun hash => ¬ refs.contains hash

def closureFailures (witnesses : WitnessInfo) (interval : ValidityInterval)
    (needed : BTreeSet Hash28) (refs : BTreeMap Hash28 ReferenceScript) : ScriptClosureFailures :=
  let witNative := witnessNativeScripts witnesses
  let signers := scriptSigners witnesses
  let failureOf := fun hash =>
    (provided refs witNative hash).bind fun script => scriptFailure script signers interval
  { notValidating := needed.toList.foldl (noteFailure failureOf) ∅
    extraneous := (received witnesses).filter fun hash => ¬ (neededNonRefs needed refs).contains hash
    missing := (neededNonRefs needed refs).filter fun hash => ¬ (received witnesses).contains hash }

def exactVerdict (body : TxBody) (witnesses : WitnessInfo) (ctx : ResolvedScriptContext) :
    Except ScriptWitnessError ExactScriptVerdict := do
  let needed ← scriptsNeeded body ctx
  let refs ← referenceScripts blake2b224 body ctx
  let failures := closureFailures witnesses (validityInterval body) needed.hashes refs
  return if failures.isEmpty then .valid else .invalid failures

def nativeScriptVerdict (body : TxBody) (witnesses : WitnessInfo) :
    Option ResolvedScriptContext → Except ScriptWitnessError NativeScriptVerdict
  | none => .ok (.reduced (reducedVerdict body witnesses))
  | some ctx => do return .exact (← exactVerdict blake2b224 body witnesses ctx)

end

/-! ## The closure law -/

/-- The hashes of the scripts in the witness set. -/
def WitnessInfo.Scripts (witnesses : WitnessInfo) (hash : Hash28) : Prop :=
  (∃ witness ∈ witnesses.nativeScripts, witness.hash = hash) ∨ hash ∈ witnesses.plutusScriptHashes

/-- Where a needed native script is taken: from the reference scripts, or else from the witness set. -/
inductive Supplies (witnesses : WitnessInfo) (refs : BTreeMap Hash28 ReferenceScript) (hash : Hash28) :
    NativeScript → Prop
  | reference {script : NativeScript} (found : refs[hash]? = some (.native script)) :
      Supplies witnesses refs hash script
  | witness {before after : List WitnessNativeScript} {script : NativeScript}
      (absent : hash ∉ refs) (listed : witnesses.nativeScripts = before ++ ⟨hash, script⟩ :: after)
      (last : ∀ witness ∈ after, witness.hash ≠ hash) : Supplies witnesses refs hash script

end Ade.Ledger
