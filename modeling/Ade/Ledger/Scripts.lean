import Ade.Codec.NativeScript

/-! Evaluation of native scripts over their nodes in post-order. -/

namespace Ade.Ledger
open Std Library Ade.Codec

inductive NativeScriptFailure where
  | missingRequiredSignature (keyHash : Hash28)
  | timelockStartNotMet (lockStart : SlotNo) (txStart : Option SlotNo)
  | timelockExpiryNotMet (lockExpiry : SlotNo) (txExpiry : Option SlotNo)
  | thresholdNotMet (required : Int) (provided : Nat)
deriving DecidableEq, Repr

/-- The verdicts on native scripts. -/
inductive ScriptVerdict where
  | nativeScriptPassed
  | nativeScriptFailed (reason : NativeScriptFailure)
deriving DecidableEq, Repr

/-- A missing start is −∞, a missing expiry is +∞. -/
structure ValidityInterval where
  invalidBefore : Option SlotNo
  invalidHereafter : Option SlotNo
deriving DecidableEq, Repr

def ValidityInterval.unbounded : ValidityInterval := ⟨none, none⟩

def firstFailure : List ScriptVerdict → ScriptVerdict
  | [] => .nativeScriptPassed
  | .nativeScriptFailed reason :: _ => .nativeScriptFailed reason
  | .nativeScriptPassed :: subs => firstFailure subs

def evaluateNode (signers : BTreeSet Hash28) (interval : ValidityInterval)
    (subs : List ScriptVerdict) : NativeScriptNode → ScriptVerdict
  | .sig keyHash =>
      if signers.contains keyHash then .nativeScriptPassed
      else .nativeScriptFailed (.missingRequiredSignature keyHash)
  | .all _ => firstFailure subs
  | .any _ =>
      if subs.contains .nativeScriptPassed then .nativeScriptPassed
      else .nativeScriptFailed (.thresholdNotMet 1 0)
  | .mOfN threshold _ =>
      if threshold < 0 then .nativeScriptPassed
      else
        let needed := threshold.toNat
        if needed = 0 then .nativeScriptPassed
        else
          let passed := (subs.filter (· == .nativeScriptPassed)).length
          if passed ≥ needed then .nativeScriptPassed
          else .nativeScriptFailed (.thresholdNotMet threshold passed)
  | .invalidBefore lock =>
      match interval.invalidBefore with
      | some start =>
          if lock ≤ start then .nativeScriptPassed
          else .nativeScriptFailed (.timelockStartNotMet lock (some start))
      | none => .nativeScriptFailed (.timelockStartNotMet lock none)
  | .invalidHereafter lock =>
      match interval.invalidHereafter with
      | some expiry =>
          if expiry ≤ lock then .nativeScriptPassed
          else .nativeScriptFailed (.timelockExpiryNotMet lock (some expiry))
      | none => .nativeScriptFailed (.timelockExpiryNotMet lock none)

section
variable (signers : BTreeSet Hash28) (interval : ValidityInterval)

/-- The verdicts of a node's sub-scripts are the last `arity` of the stack. -/
def evaluateStep (verdicts : List ScriptVerdict) (node : NativeScriptNode) : List ScriptVerdict :=
  let arity := min node.arity verdicts.length
  let kept := verdicts.length - arity
  verdicts.take kept ++ [evaluateNode signers interval (verdicts.drop kept) node]

def evaluateNodes (nodes : List NativeScriptNode) : List ScriptVerdict :=
  nodes.foldl (evaluateStep signers interval) []

def evaluateNativeScript (script : NativeScript) : ScriptVerdict :=
  (evaluateNodes signers interval script.nodes).getLast?.getD .nativeScriptPassed

/-! ## The recursive definition -/

def leafVerdict : Leaf → ScriptVerdict
  | .sig keyHash =>
      if keyHash ∈ signers then .nativeScriptPassed
      else .nativeScriptFailed (.missingRequiredSignature keyHash)
  | .invalidBefore lock =>
      if ∃ start ∈ interval.invalidBefore, lock ≤ start then .nativeScriptPassed
      else .nativeScriptFailed (.timelockStartNotMet lock interval.invalidBefore)
  | .invalidHereafter lock =>
      if ∃ expiry ∈ interval.invalidHereafter, expiry ≤ lock then .nativeScriptPassed
      else .nativeScriptFailed (.timelockExpiryNotMet lock interval.invalidHereafter)

def ScriptVerdict.failure? : ScriptVerdict → Option NativeScriptFailure
  | nativeScriptPassed => none
  | nativeScriptFailed reason => some reason

/-- A list of scripts under `all` fails as the first of them that fails. A threshold is compared with
the number of scripts that pass. -/
def compositeVerdict (subs : List ScriptVerdict) : Composite → ScriptVerdict
  | .all =>
      match subs.findSome? ScriptVerdict.failure? with
      | none => .nativeScriptPassed
      | some reason => .nativeScriptFailed reason
  | .any =>
      if .nativeScriptPassed ∈ subs then .nativeScriptPassed
      else .nativeScriptFailed (.thresholdNotMet 1 0)
  | .mOfN threshold =>
      if threshold ≤ subs.count .nativeScriptPassed then .nativeScriptPassed
      else .nativeScriptFailed (.thresholdNotMet threshold (subs.count .nativeScriptPassed))

mutual

def scriptVerdict : ScriptSyntax → ScriptVerdict
  | .leaf _ leaf => leafVerdict signers interval leaf
  | .list _ composite _ scripts => compositeVerdict (scriptVerdicts scripts) composite

def scriptVerdicts : List ScriptSyntax → List ScriptVerdict
  | [] => []
  | script :: scripts => scriptVerdict script :: scriptVerdicts scripts

end

end

end Ade.Ledger
