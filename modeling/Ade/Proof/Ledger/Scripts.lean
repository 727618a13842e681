import Ade.Ledger.Scripts
import Ade.Proof.Codec.NativeScript

namespace Ade.Proof.Ledger
open Library Ade.Codec Ade.Ledger
open Ade.Proof.Codec

variable {signers more : BTreeSet Hash28} {interval : ValidityInterval}

/-! ## One node -/

theorem evaluateNode_leaf (leaf : Leaf) :
    evaluateNode signers interval [] leaf.node = leafVerdict signers interval leaf := by
  cases leaf with
  | sig keyHash => simp [Leaf.node, evaluateNode, leafVerdict]
  | invalidBefore lock =>
      cases start : interval.invalidBefore <;>
        simp [Leaf.node, evaluateNode, leafVerdict, start]
  | invalidHereafter lock =>
      cases expiry : interval.invalidHereafter <;>
        simp [Leaf.node, evaluateNode, leafVerdict, expiry]

theorem firstFailure_eq (subs : List ScriptVerdict) :
    firstFailure subs = compositeVerdict subs .all := by
  induction subs with
  | nil => rfl
  | cons sub subs ih =>
      cases sub with
      | nativeScriptPassed => exact ih
      | nativeScriptFailed reason => rfl

theorem evaluateNode_composite (subs : List ScriptVerdict) (composite : Composite) (arity : Nat) :
    evaluateNode signers interval subs (composite.node arity) = compositeVerdict subs composite := by
  cases composite with
  | all => exact firstFailure_eq subs
  | any => simp [Composite.node, evaluateNode, compositeVerdict]
  | mOfN threshold =>
      have counted : (subs.filter (· == .nativeScriptPassed)).length =
          subs.count .nativeScriptPassed := List.countP_eq_length_filter.symm
      simp only [Composite.node, evaluateNode, compositeVerdict, counted]
      by_cases negative : threshold < 0
      · rw [if_pos negative, if_pos (by omega)]
      · rw [if_neg negative]
        by_cases zero : threshold.toNat = 0
        · rw [if_pos zero, if_pos (by omega)]
        · rw [if_neg zero]
          by_cases enough : threshold.toNat ≤ subs.count .nativeScriptPassed
          · rw [if_pos enough, if_pos (by omega)]
          · rw [if_neg enough, if_neg (by omega)]

/-! ## The stack -/

theorem evaluateStep_leaf (verdicts : List ScriptVerdict) (leaf : Leaf) :
    evaluateStep signers interval verdicts leaf.node =
      verdicts ++ [leafVerdict signers interval leaf] := by
  simp [evaluateStep, arity_leaf, evaluateNode_leaf]

theorem evaluateStep_composite (verdicts subs : List ScriptVerdict) (composite : Composite) :
    evaluateStep signers interval (verdicts ++ subs) (composite.node subs.length) =
      verdicts ++ [compositeVerdict subs composite] := by
  simp [evaluateStep, arity_composite, evaluateNode_composite]

theorem length_scriptVerdicts (scripts : List ScriptSyntax) :
    (scriptVerdicts signers interval scripts).length = scripts.length := by
  induction scripts with
  | nil => rfl
  | cons script scripts ih => rw [scriptVerdicts, List.length_cons, ih, List.length_cons]

mutual

theorem foldl_postOrder (script : ScriptSyntax) (verdicts : List ScriptVerdict) :
    script.postOrder.foldl (evaluateStep signers interval) verdicts =
      verdicts ++ [scriptVerdict signers interval script] := by
  match script with
  | .leaf declared leaf =>
      rw [ScriptSyntax.postOrder, List.foldl_cons, List.foldl_nil, evaluateStep_leaf, scriptVerdict]
  | .list declared composite indefinite scripts =>
      rw [ScriptSyntax.postOrder, List.foldl_append, foldl_postOrders, List.foldl_cons,
        List.foldl_nil, ← @length_scriptVerdicts signers interval scripts, evaluateStep_composite,
        scriptVerdict]

theorem foldl_postOrders (scripts : List ScriptSyntax) (verdicts : List ScriptVerdict) :
    (postOrders scripts).foldl (evaluateStep signers interval) verdicts =
      verdicts ++ scriptVerdicts signers interval scripts := by
  match scripts with
  | [] => rw [postOrders, scriptVerdicts, List.foldl_nil, List.append_nil]
  | script :: scripts =>
      rw [postOrders, List.foldl_append, foldl_postOrder, foldl_postOrders, scriptVerdicts,
        List.append_assoc, List.singleton_append]

end

/-! ## Accepted node lists are trees -/

theorem leaf_or_composite (node : NativeScriptNode) :
    (∃ leaf : Leaf, node = leaf.node) ∨
      ∃ composite : Composite, node = composite.node node.arity := by
  cases node with
  | sig keyHash => exact .inl ⟨.sig keyHash, rfl⟩
  | all arity => exact .inr ⟨.all, rfl⟩
  | any arity => exact .inr ⟨.any, rfl⟩
  | mOfN threshold arity => exact .inr ⟨.mOfN threshold, rfl⟩
  | invalidBefore slot => exact .inl ⟨.invalidBefore slot, rfl⟩
  | invalidHereafter slot => exact .inl ⟨.invalidHereafter slot, rfl⟩

theorem postOrders_append (first second : List ScriptSyntax) :
    postOrders (first ++ second) = postOrders first ++ postOrders second := by
  induction first with
  | nil => rfl
  | cons script first ih => rw [List.cons_append, postOrders, ih, postOrders, List.append_assoc]

/-- A node takes the last of the scripts that wait for a parent, and waits in their place. -/
theorem forest_step {node : NativeScriptNode} {waiting : List ScriptSyntax}
    (enough : node.arity ≤ waiting.length) :
    ∃ scripts : List ScriptSyntax, scripts.length = waiting.length - node.arity + 1 ∧
      postOrders scripts = postOrders waiting ++ [node] := by
  rcases leaf_or_composite node with ⟨leaf, rfl⟩ | ⟨composite, same⟩
  · refine ⟨waiting ++ [.leaf 0 leaf], ?_, ?_⟩
    · rw [arity_leaf, List.length_append, List.length_singleton, Nat.sub_zero]
    · rw [postOrders_append]
      simp [postOrders, ScriptSyntax.postOrder]
  · have owned : (waiting.drop (waiting.length - node.arity)).length = node.arity := by
      rw [List.length_drop]
      omega
    refine ⟨waiting.take (waiting.length - node.arity) ++
      [.list 0 composite false (waiting.drop (waiting.length - node.arity))], ?_, ?_⟩
    · rw [List.length_append, List.length_take, List.length_singleton]
      omega
    · have split := postOrders_append (waiting.take (waiting.length - node.arity))
        (waiting.drop (waiting.length - node.arity))
      rw [List.take_append_drop] at split
      rw [postOrders_append, split, List.append_assoc]
      simp [postOrders, ScriptSyntax.postOrder, owned, ← same]

theorem pendingAfter_forest {nodes : List NativeScriptNode} {waiting : List ScriptSyntax}
    {pending : Nat} (counted : pendingAfter waiting.length nodes = some pending) :
    ∃ scripts : List ScriptSyntax, scripts.length = pending ∧
      postOrders scripts = postOrders waiting ++ nodes := by
  induction nodes generalizing waiting with
  | nil =>
      cases counted
      exact ⟨waiting, rfl, (List.append_nil _).symm⟩
  | cons node nodes ih =>
      rw [pendingAfter] at counted
      split_ifs at counted with missing
      obtain ⟨next, length, written⟩ := @forest_step node waiting (Nat.le_of_not_lt missing)
      rw [← length] at counted
      obtain ⟨scripts, sized, rest⟩ := ih counted
      refine ⟨scripts, sized, ?_⟩
      rw [rest, written, List.append_assoc, List.singleton_append]

theorem exists_postOrder (script : NativeScript) :
    ∃ tree : ScriptSyntax, tree.postOrder = script.nodes := by
  obtain ⟨scripts, single, written⟩ := @pendingAfter_forest script.nodes [] 1 script.oneTree
  obtain ⟨tree, rfl⟩ := List.length_eq_one_iff.mp single
  refine ⟨tree, ?_⟩
  simpa [postOrders] using written

theorem pendingAfter_append {before after : List NativeScriptNode} {start pending : Nat}
    (counted : pendingAfter start (before ++ after) = some pending) :
    ∃ between, pendingAfter start before = some between ∧
      pendingAfter between after = some pending := by
  induction before generalizing start with
  | nil => exact ⟨start, rfl, counted⟩
  | cons node before ih =>
      rw [List.cons_append, pendingAfter] at counted
      split_ifs at counted with missing
      obtain ⟨between, first, second⟩ := ih counted
      refine ⟨between, ?_, second⟩
      rw [pendingAfter, if_neg missing]
      exact first

/-- Every node finds the verdicts of all of its sub-scripts on the stack. -/
theorem arity_le_verdicts (script : NativeScript) {before after : List NativeScriptNode}
    {node : NativeScriptNode} (split : script.nodes = before ++ node :: after) :
    node.arity ≤ (evaluateNodes signers interval before).length := by
  have counted := script.oneTree
  rw [split] at counted
  obtain ⟨waiting, first, second⟩ := pendingAfter_append counted
  obtain ⟨scripts, length, written⟩ := @pendingAfter_forest before [] waiting first
  have read : postOrders scripts = before := written
  rw [evaluateNodes, ← read, foldl_postOrders, List.nil_append, length_scriptVerdicts, length]
  rw [pendingAfter] at second
  split_ifs at second with missing
  exact Nat.le_of_not_lt missing

theorem evaluateNodes_postOrder (script : ScriptSyntax) :
    evaluateNodes signers interval script.postOrder = [scriptVerdict signers interval script] := by
  rw [evaluateNodes, foldl_postOrder, List.nil_append]

/-! ## More signers -/

/-- A script that passes still passes. -/
def Keeps (before after : ScriptVerdict) : Prop :=
  before = .nativeScriptPassed → after = .nativeScriptPassed

theorem findSome?_failure_eq_none {subs : List ScriptVerdict} :
    subs.findSome? ScriptVerdict.failure? = none ↔ ∀ sub ∈ subs, sub = .nativeScriptPassed := by
  rw [List.findSome?_eq_none_iff]
  apply forall₂_congr
  intro sub _
  cases sub <;> simp [ScriptVerdict.failure?]

theorem all_passed {subs : List ScriptVerdict} :
    compositeVerdict subs .all = .nativeScriptPassed ↔ ∀ sub ∈ subs, sub = .nativeScriptPassed := by
  rw [← findSome?_failure_eq_none, compositeVerdict]
  cases subs.findSome? ScriptVerdict.failure? <;> simp

theorem any_passed {subs : List ScriptVerdict} :
    compositeVerdict subs .any = .nativeScriptPassed ↔ .nativeScriptPassed ∈ subs := by
  rw [compositeVerdict]
  split_ifs with passed <;> simp [passed]

theorem mOfN_passed {subs : List ScriptVerdict} {threshold : Int} :
    compositeVerdict subs (.mOfN threshold) = .nativeScriptPassed ↔
      threshold ≤ subs.count .nativeScriptPassed := by
  rw [compositeVerdict]
  split_ifs with enough <;> simp [enough]

section Keeps

variable {before after : List ScriptVerdict}

theorem all_keeps (keeps : List.Forall₂ Keeps before after)
    (passed : ∀ sub ∈ before, sub = .nativeScriptPassed) :
    ∀ sub ∈ after, sub = .nativeScriptPassed := by
  induction keeps with
  | nil => simp
  | cons first rest ih =>
      rw [List.forall_mem_cons] at passed ⊢
      exact ⟨first passed.1, ih passed.2⟩

theorem any_keeps (keeps : List.Forall₂ Keeps before after)
    (passed : .nativeScriptPassed ∈ before) : .nativeScriptPassed ∈ after := by
  induction keeps with
  | nil => cases passed
  | cons first rest ih =>
      rcases List.mem_cons.mp passed with here | later
      · rw [first here.symm]
        exact List.mem_cons_self ..
      · exact List.mem_cons_of_mem _ (ih later)

theorem count_keeps (keeps : List.Forall₂ Keeps before after) :
    before.count .nativeScriptPassed ≤ after.count .nativeScriptPassed := by
  induction keeps with
  | nil => exact Nat.le_refl _
  | @cons sub other before after first rest ih =>
      rw [List.count_cons, List.count_cons]
      by_cases passed : sub = .nativeScriptPassed
      · rw [first passed, passed]
        exact Nat.add_le_add_right ih _
      · rw [if_neg (by simpa using passed)]
        omega

theorem compositeVerdict_keeps (composite : Composite) (keeps : List.Forall₂ Keeps before after) :
    Keeps (compositeVerdict before composite) (compositeVerdict after composite) := by
  intro passed
  cases composite with
  | all => exact all_passed.mpr (all_keeps keeps (all_passed.mp passed))
  | any => exact any_passed.mpr (any_keeps keeps (any_passed.mp passed))
  | mOfN threshold =>
      have counted := count_keeps keeps
      rw [mOfN_passed] at passed ⊢
      omega

end Keeps

theorem leafVerdict_keeps (signed : ∀ keyHash ∈ signers, keyHash ∈ more) (leaf : Leaf) :
    Keeps (leafVerdict signers interval leaf) (leafVerdict more interval leaf) := by
  intro passed
  cases leaf with
  | sig keyHash =>
      rw [leafVerdict] at passed ⊢
      split_ifs at passed with present
      exact if_pos (signed keyHash present)
  | invalidBefore lock => exact passed
  | invalidHereafter lock => exact passed

mutual

theorem scriptVerdict_keeps (signed : ∀ keyHash ∈ signers, keyHash ∈ more) (script : ScriptSyntax) :
    Keeps (scriptVerdict signers interval script) (scriptVerdict more interval script) := by
  match script with
  | .leaf declared leaf =>
      rw [scriptVerdict, scriptVerdict]
      exact leafVerdict_keeps signed leaf
  | .list declared composite indefinite scripts =>
      rw [scriptVerdict, scriptVerdict]
      exact compositeVerdict_keeps composite (scriptVerdicts_keep signed scripts)

theorem scriptVerdicts_keep (signed : ∀ keyHash ∈ signers, keyHash ∈ more)
    (scripts : List ScriptSyntax) :
    List.Forall₂ Keeps (scriptVerdicts signers interval scripts)
      (scriptVerdicts more interval scripts) := by
  match scripts with
  | [] =>
      rw [scriptVerdicts, scriptVerdicts]
      exact .nil
  | script :: scripts =>
      rw [scriptVerdicts, scriptVerdicts]
      exact .cons (scriptVerdict_keeps signed script) (scriptVerdicts_keep signed scripts)

end

/-- A script is a tree, and its one verdict is the one of the recursive definition. No node runs out
of verdicts, and one verdict is left at the end. -/
theorem evaluateNativeScript_recursive (script : NativeScript) (signers : BTreeSet Hash28)
    (interval : ValidityInterval) :
    (∃ tree : ScriptSyntax, tree.postOrder = script.nodes) ∧
    (∀ tree : ScriptSyntax, tree.postOrder = script.nodes →
      evaluateNativeScript signers interval script = scriptVerdict signers interval tree) ∧
    (∀ before node after, script.nodes = before ++ node :: after →
      node.arity ≤ (evaluateNodes signers interval before).length) ∧
    (evaluateNodes signers interval script.nodes).length = 1 ∧
    ∀ more : BTreeSet Hash28, (∀ keyHash ∈ signers, keyHash ∈ more) →
      evaluateNativeScript signers interval script = .nativeScriptPassed →
        evaluateNativeScript more interval script = .nativeScriptPassed := by
  have verdict : ∀ (keys : BTreeSet Hash28) (tree : ScriptSyntax), tree.postOrder = script.nodes →
      evaluateNativeScript keys interval script = scriptVerdict keys interval tree := by
    intro keys tree written
    rw [evaluateNativeScript, ← written, evaluateNodes_postOrder]
    rfl
  obtain ⟨tree, written⟩ := exists_postOrder script
  refine ⟨⟨tree, written⟩, verdict signers, fun before node after => arity_le_verdicts script, ?_, ?_⟩
  · rw [← written, evaluateNodes_postOrder]
    rfl
  · intro more signed passed
    rw [verdict _ tree written] at passed ⊢
    exact scriptVerdict_keeps signed tree passed

def sampleTree : ScriptSyntax :=
  .list 3 (.mOfN 2) false [.leaf 2 (.sig (Vector.replicate 28 1)), .list 2 .any true [],
    .list 2 .all false [.leaf 2 (.sig (Vector.replicate 28 2)), .leaf 2 (.invalidBefore 500)]]

/-- The second key turns two of three. -/
theorem evaluateNativeScript_recursive_sample :
    evaluateNativeScript ((∅ : BTreeSet Hash28).insert (Vector.replicate 28 1)) ⟨some 500, none⟩
      (ScriptSyntax.script sampleTree) = .nativeScriptFailed (.thresholdNotMet 2 1) ∧
    evaluateNativeScript (((∅ : BTreeSet Hash28).insert (Vector.replicate 28 1)).insert
      (Vector.replicate 28 2)) ⟨some 500, none⟩ (ScriptSyntax.script sampleTree) =
        .nativeScriptPassed := by
  refine ⟨?_, ?_⟩
  · rw [(evaluateNativeScript_recursive _ _ _).2.1 sampleTree rfl]
    decide +kernel
  · rw [(evaluateNativeScript_recursive _ _ _).2.1 sampleTree rfl]
    decide +kernel

end Ade.Proof.Ledger
