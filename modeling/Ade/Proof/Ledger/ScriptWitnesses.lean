import Ade.Ledger.ScriptWitnesses

/-!
# The closure law of witness scripts

The three failure sets are first described hash by hash. They are empty exactly under the law, and a
witness script that fails is always in one of them: where its hash is needed and no reference script
has it, it is the script that is evaluated, and otherwise it is extraneous.
-/

namespace Ade.Proof.Ledger
open Std Library Ade.Codec
open Ade.Ledger hiding Coin

/-! ## Tables -/

theorem getElem?_foldl_noteFailure (failureOf : Hash28 → Option NativeScriptFailure)
    (hashes : List Hash28) (failures : BTreeMap Hash28 NativeScriptFailure) (hash : Hash28) :
    (hashes.foldl (noteFailure failureOf) failures)[hash]? =
      if hash ∈ hashes then (failureOf hash).or failures[hash]? else failures[hash]? := by
  induction hashes generalizing failures with
  | nil => simp only [List.foldl_nil, List.not_mem_nil, if_false]
  | cons first hashes ih =>
      rw [List.foldl_cons, ih, noteFailure]
      by_cases same : first = hash
      · subst same
        cases failureOf first with
        | none => simp only [List.mem_cons, true_or, Option.none_or, ite_self]
        | some reason =>
            simp only [BTreeMap.getElem?_insert, if_true, Option.some_or, ite_self, List.mem_cons,
              true_or]
      · have other : hash ≠ first := fun equal => same equal.symm
        cases failureOf first with
        | none => simp only [List.mem_cons, other, false_or]
        | some reason => simp only [BTreeMap.getElem?_insert, if_neg same, List.mem_cons, other, false_or]

/-- The last script that is listed under the hash. -/
theorem witnessNativeScripts_eq_some {witnesses : WitnessInfo} {hash : Hash28} {script : NativeScript} :
    (witnessNativeScripts witnesses)[hash]? = some script ↔
      ∃ before after, witnesses.nativeScripts = before ++ ⟨hash, script⟩ :: after ∧
        ∀ witness ∈ after, witness.hash ≠ hash := by
  unfold witnessNativeScripts
  generalize witnesses.nativeScripts = listed
  induction listed using List.reverseRecOn with
  | nil => simp
  | append_singleton listed last ih =>
      rw [List.foldl_append, List.foldl_cons, List.foldl_nil, BTreeMap.getElem?_insert]
      split_ifs with same
      · constructor
        · intro found
          cases found
          exact ⟨listed, [], by rw [← same], fun _ member => nomatch member⟩
        · rintro ⟨before, after, split, others⟩
          rcases List.eq_nil_or_concat after with rfl | ⟨earlier, final, rfl⟩
          · have ends := List.singleton_inj.mp (List.append_inj_right' split rfl)
            rw [ends]
          · rw [List.concat_eq_append, ← List.cons_append, ← List.append_assoc] at split
            rw [List.concat_eq_append] at others
            have ends := List.singleton_inj.mp (List.append_inj_right' split rfl)
            exact absurd (ends ▸ same) (others final (List.mem_append_right _ (List.mem_singleton_self _)))
      · rw [ih]
        constructor
        · rintro ⟨before, after, rfl, others⟩
          refine ⟨before, after ++ [last], by simp, fun witness member => ?_⟩
          rcases List.mem_append.mp member with inside | final
          · exact others witness inside
          · rwa [List.mem_singleton.mp final]
        · rintro ⟨before, after, split, others⟩
          rcases List.eq_nil_or_concat after with rfl | ⟨earlier, final, rfl⟩
          · have ends := List.singleton_inj.mp (List.append_inj_right' split rfl)
            exact absurd (by rw [ends]) same
          · rw [List.concat_eq_append, ← List.cons_append, ← List.append_assoc] at split
            rw [List.concat_eq_append] at others
            exact ⟨before, earlier, List.append_inj_left' split rfl,
              fun witness member => others witness (List.mem_append_left _ member)⟩

theorem mem_witnessNativeScripts {witnesses : WitnessInfo} {hash : Hash28} :
    hash ∈ witnessNativeScripts witnesses ↔ ∃ witness ∈ witnesses.nativeScripts, witness.hash = hash := by
  unfold witnessNativeScripts
  generalize witnesses.nativeScripts = listed
  induction listed using List.reverseRecOn with
  | nil => simp
  | append_singleton listed last ih =>
      rw [List.foldl_append, List.foldl_cons, List.foldl_nil, BTreeMap.mem_insert, ih]
      simp only [List.mem_append, List.mem_singleton, or_and_right, exists_or, exists_eq_left]
      exact or_comm

/-! ## The failure sets -/

section
variable {witnesses : WitnessInfo} {interval : ValidityInterval} {needed : BTreeSet Hash28}
  {refs : BTreeMap Hash28 ReferenceScript} {hash : Hash28}

theorem notValidating_eq : (closureFailures witnesses interval needed refs).notValidating[hash]? =
    if hash ∈ needed then (provided refs (witnessNativeScripts witnesses) hash).bind fun script =>
      scriptFailure script (scriptSigners witnesses) interval
    else none := by
  have folded := getElem?_foldl_noteFailure (fun hash =>
    (provided refs (witnessNativeScripts witnesses) hash).bind fun script =>
      scriptFailure script (scriptSigners witnesses) interval) needed.toList ∅ hash
  simp only [ExtTreeSet.mem_toList, ExtTreeMap.getElem?_empty, Option.or_none] at folded
  rw [← folded]
  rfl

theorem mem_received : hash ∈ received witnesses ↔ witnesses.Scripts hash := by
  unfold received WitnessInfo.Scripts
  rw [ExtTreeSet.mem_ofList, List.contains_iff_mem, List.mem_append, ExtTreeMap.mem_keys,
    ExtTreeSet.mem_toList, mem_witnessNativeScripts]

theorem mem_neededNonRefs : hash ∈ neededNonRefs needed refs ↔ hash ∈ needed ∧ hash ∉ refs := by
  simp [neededNonRefs, ExtTreeSet.mem_filter]

theorem mem_extraneous : hash ∈ (closureFailures witnesses interval needed refs).extraneous ↔
    witnesses.Scripts hash ∧ ¬ (hash ∈ needed ∧ hash ∉ refs) := by
  rw [← mem_received, ← mem_neededNonRefs]
  simp [closureFailures, ExtTreeSet.mem_filter]

theorem mem_missing : hash ∈ (closureFailures witnesses interval needed refs).missing ↔
    (hash ∈ needed ∧ hash ∉ refs) ∧ ¬ witnesses.Scripts hash := by
  rw [← mem_received, ← mem_neededNonRefs]
  simp [closureFailures, ExtTreeSet.mem_filter]

theorem supplies_iff {script : NativeScript} : Supplies witnesses refs hash script ↔
    provided refs (witnessNativeScripts witnesses) hash = some script := by
  unfold provided
  cases found : refs[hash]? with
  | none =>
      have absent : hash ∉ refs := by
        rw [ExtTreeMap.mem_iff_isSome_getElem?, found]
        exact Bool.false_ne_true
      rw [witnessNativeScripts_eq_some]
      constructor
      · rintro (⟨found'⟩ | ⟨-, listed, last⟩)
        · rw [found] at found'
          cases found'
        · exact ⟨_, _, listed, last⟩
      · rintro ⟨before, after, listed, last⟩
        exact .witness absent listed last
  | some reference =>
      have present : hash ∈ refs := by
        rw [ExtTreeMap.mem_iff_isSome_getElem?, found]
        rfl
      cases reference with
      | native other =>
          constructor
          · rintro (⟨found'⟩ | ⟨absent, -, -⟩)
            · cases found.symm.trans found'
              rfl
            · exact absurd present absent
          · intro same
            cases same
            exact .reference found
      | plutus =>
          constructor
          · rintro (⟨found'⟩ | ⟨absent, -, -⟩)
            · cases found.symm.trans found'
            · exact absurd present absent
          · exact (nomatch ·)

theorem scriptFailure_none {script : NativeScript} {signers : BTreeSet Hash28} :
    scriptFailure script signers interval = none ↔
      evaluateNativeScript signers interval script = .nativeScriptPassed := by
  unfold scriptFailure
  cases evaluateNativeScript signers interval script with
  | nativeScriptPassed => exact iff_of_true rfl rfl
  | nativeScriptFailed reason => constructor <;> exact (nomatch ·)

theorem closureFailures_isEmpty : (closureFailures witnesses interval needed refs).isEmpty = true ↔
    (∀ hash, witnesses.Scripts hash ↔ hash ∈ needed ∧ hash ∉ refs) ∧
      ∀ hash ∈ needed, ∀ script, Supplies witnesses refs hash script →
        evaluateNativeScript (scriptSigners witnesses) interval script = .nativeScriptPassed := by
  have validating : (closureFailures witnesses interval needed refs).notValidating.isEmpty = true ↔
      ∀ hash ∈ needed, ∀ script, Supplies witnesses refs hash script →
        evaluateNativeScript (scriptSigners witnesses) interval script = .nativeScriptPassed := by
    rw [ExtTreeMap.isEmpty_iff, ExtTreeMap.eq_empty_iff_forall_not_mem]
    refine forall_congr' fun hash => ?_
    rw [ExtTreeMap.mem_iff_isSome_getElem?, Option.not_isSome_iff_eq_none, notValidating_eq]
    split_ifs with wanted
    · rw [Option.bind_eq_none_iff]
      refine ⟨fun passes _ script supplied => ?_, fun passes script supplied => ?_⟩
      · exact scriptFailure_none.mp (passes script (supplies_iff.mp supplied))
      · exact scriptFailure_none.mpr (passes wanted script (supplies_iff.mpr supplied))
    · exact iff_of_true rfl fun needs => absurd needs wanted
  have equal : ((closureFailures witnesses interval needed refs).extraneous.isEmpty = true ∧
      (closureFailures witnesses interval needed refs).missing.isEmpty = true) ↔
      ∀ hash, witnesses.Scripts hash ↔ hash ∈ needed ∧ hash ∉ refs := by
    rw [ExtTreeSet.isEmpty_iff, ExtTreeSet.isEmpty_iff, ExtTreeSet.eq_empty_iff_forall_not_mem,
      ExtTreeSet.eq_empty_iff_forall_not_mem, ← forall_and]
    refine forall_congr' fun hash => ?_
    rw [mem_extraneous, mem_missing, not_and_not_right, not_and_not_right]
    exact iff_iff_implies_and_implies.symm
  rw [ScriptClosureFailures.isEmpty, Bool.and_eq_true, Bool.and_eq_true, validating, and_assoc, equal,
    and_comm]

/-- A witness script that fails is evaluated for the closure, or it is extraneous. -/
theorem failing_witness_refused {script : NativeScript} {reason : NativeScriptFailure}
    (listed : (witnessNativeScripts witnesses)[hash]? = some script)
    (fails : scriptFailure script (scriptSigners witnesses) interval = some reason) :
    hash ∈ (closureFailures witnesses interval needed refs).notValidating ∨
      hash ∈ (closureFailures witnesses interval needed refs).extraneous := by
  by_cases wanted : hash ∈ needed ∧ hash ∉ refs
  · left
    have absent : refs[hash]? = none := ExtTreeMap.getElem?_eq_none wanted.2
    rw [ExtTreeMap.mem_iff_isSome_getElem?, notValidating_eq, if_pos wanted.1, provided, absent]
    dsimp only
    rw [listed, Option.bind_some, fails]
    rfl
  · right
    rw [mem_extraneous]
    refine ⟨.inl (mem_witnessNativeScripts.mp ?_), wanted⟩
    rw [ExtTreeMap.mem_iff_isSome_getElem?, listed]
    rfl

end

/-! ## The verdicts -/

section
variable {blake2b224 : Bytes → Hash28} {body : TxBody} {witnesses : WitnessInfo}
  {ctx : ResolvedScriptContext}

theorem reducedVerdict_reject {failed : ScriptError}
    (rejected : reducedVerdict body witnesses = .definiteReject failed) :
    ∃ script, (witnessNativeScripts witnesses)[failed.scriptHash]? = some script ∧
      scriptFailure script (scriptSigners witnesses) (validityInterval body) = some failed.reason := by
  unfold reducedVerdict at rejected
  dsimp only at rejected
  split at rejected
  · rename_i first found
    cases rejected
    obtain ⟨entry, member, told⟩ := List.exists_of_findSome?_eq_some found
    obtain ⟨reason, fails, rfl⟩ := Option.map_eq_some_iff.mp told
    exact ⟨entry.2, BTreeMap.mem_toList.mp member, fails⟩
  · cases rejected

theorem nativeScriptVerdict_exact {verdict : NativeScriptVerdict} :
    nativeScriptVerdict blake2b224 body witnesses (some ctx) = .ok verdict ↔
      ∃ needed refs, scriptsNeeded body ctx = .ok needed ∧ referenceScripts blake2b224 body ctx = .ok refs ∧
        verdict = .exact
          (if (closureFailures witnesses (validityInterval body) needed.hashes refs).isEmpty then .valid
          else .invalid (closureFailures witnesses (validityInterval body) needed.hashes refs)) := by
  rw [nativeScriptVerdict, exactVerdict]
  cases scriptsNeeded body ctx with
  | error failure => simp [bind, Except.bind]
  | ok needed =>
      cases referenceScripts blake2b224 body ctx with
      | error failure => simp [bind, Except.bind]
      | ok refs =>
          constructor
          · intro told
            cases told
            exact ⟨needed, refs, rfl, rfl, rfl⟩
          · rintro ⟨_, _, same, same', rfl⟩
            cases same
            cases same'
            rfl

end

/-- Whatever the reduced verdict rejects, the exact one does not accept, and the exact one accepts under
the closure law only. -/
theorem script_verdicts_agree (blake2b224 : Bytes → Hash28) (body : TxBody) (witnesses : WitnessInfo)
    (ctx : ResolvedScriptContext) :
    (∀ failed, reducedVerdict body witnesses = .definiteReject failed →
      (∃ failure, nativeScriptVerdict blake2b224 body witnesses (some ctx) = .error failure) ∨
        ∃ failures,
          nativeScriptVerdict blake2b224 body witnesses (some ctx) = .ok (.exact (.invalid failures)) ∧
            (failed.scriptHash ∈ failures.notValidating ∨ failed.scriptHash ∈ failures.extraneous)) ∧
      (nativeScriptVerdict blake2b224 body witnesses (some ctx) = .ok (.exact .valid) ↔
        ∃ needed refs, scriptsNeeded body ctx = .ok needed ∧
          referenceScripts blake2b224 body ctx = .ok refs ∧
          (∀ hash, witnesses.Scripts hash ↔ hash ∈ needed.hashes ∧ hash ∉ refs) ∧
          ∀ hash ∈ needed.hashes, ∀ script, Supplies witnesses refs hash script →
            evaluateNativeScript (scriptSigners witnesses) (validityInterval body) script =
              .nativeScriptPassed) := by
  constructor
  · intro failed rejected
    obtain ⟨script, listed, fails⟩ := reducedVerdict_reject rejected
    cases told : nativeScriptVerdict blake2b224 body witnesses (some ctx) with
    | error failure => exact .inl ⟨failure, rfl⟩
    | ok verdict =>
        obtain ⟨needed, refs, -, -, rfl⟩ := nativeScriptVerdict_exact.mp told
        have refused := @failing_witness_refused _ (validityInterval body) needed.hashes refs _ _ _
          listed fails
        rw [if_neg]
        · exact .inr ⟨_, rfl, refused⟩
        · intro empty
          obtain ⟨exact_, passes⟩ := closureFailures_isEmpty.mp empty
          rcases refused with evaluated | extra
          · rw [ScriptClosureFailures.isEmpty, Bool.and_eq_true, Bool.and_eq_true, ExtTreeMap.isEmpty_iff]
              at empty
            rw [empty.1.1] at evaluated
            exact ExtTreeMap.not_mem_empty evaluated
          · obtain ⟨provided_, unwanted⟩ := mem_extraneous.mp extra
            exact unwanted ((exact_ _).mp provided_)
  · rw [nativeScriptVerdict_exact]
    refine exists_congr fun needed => exists_congr fun refs => and_congr_right fun _ =>
      and_congr_right fun _ => ?_
    rw [← closureFailures_isEmpty]
    split_ifs with empty
    · exact iff_of_true rfl empty
    · exact iff_of_false (by simp) empty

/-- No inputs, no witnesses but one script, and nothing to spend. -/
def sampleScriptBody : TxBody where
  inputs := ∅
  outputs := []
  fee := 0
  ttl := none
  certs := none
  withdrawals := none
  metadataHash := none
  validityIntervalStart := none
  mint := none
  scriptDataHash := none
  collateralInputs := none
  requiredSigners := none
  networkId := none
  collateralReturn := none
  totalCollateral := none
  referenceInputs := none
  votingProcedures := none
  proposalProcedures := none
  treasuryValue := none
  donation := none

def sampleWitnesses : WitnessInfo where
  availableKeyHashes := ∅
  nativeScripts := [⟨.replicate 28 1, ⟨[.sig (.replicate 28 2)], rfl⟩⟩]
  plutusScriptHashes := ∅
  bootstrapKeyHashes := ∅

theorem script_verdicts_agree_sample :
    reducedVerdict sampleScriptBody sampleWitnesses =
        .definiteReject ⟨.replicate 28 1, .missingRequiredSignature (.replicate 28 2)⟩ ∧
      ((∃ failure, nativeScriptVerdict (fun _ => .replicate 28 0) sampleScriptBody sampleWitnesses
          (some ⟨∅⟩) = .error failure) ∨
        ∃ failures, nativeScriptVerdict (fun _ => .replicate 28 0) sampleScriptBody sampleWitnesses
          (some ⟨∅⟩) = .ok (.exact (.invalid failures)) ∧
            ((.replicate 28 1 : Hash28) ∈ failures.notValidating ∨
              (.replicate 28 1 : Hash28) ∈ failures.extraneous)) := by
  have rejected : reducedVerdict sampleScriptBody sampleWitnesses =
      .definiteReject ⟨.replicate 28 1, .missingRequiredSignature (.replicate 28 2)⟩ := by
    decide
  exact ⟨rejected, (script_verdicts_agree _ _ _ _).1 _ rejected⟩

end Ade.Proof.Ledger
