import Ade.Proof.Wal.Superseded

namespace Ade.Proof.Wal
open Std Library Ade.Wal

/-! ## The walk follows the part of the stack that survives -/

def survivors (stack : List LiveBlock) (entries : List WalEntry) : List LiveBlock :=
  stack.filter (fun block => decide (Survives entries block.slot))

theorem mem_survivors {stack : List LiveBlock} {entries : List WalEntry} {block : LiveBlock} :
    block ∈ survivors stack entries ↔ block ∈ stack ∧ Survives entries block.slot := by
  simp [survivors]

theorem survives_lower {entries : List WalEntry} {slot lower : SlotNo}
    (survives : Survives entries slot) (below : lower ≤ slot) : Survives entries lower :=
  fun target member => UInt64.le_trans below (survives target member)

/-- Slots descend, so everything below a survivor survives. -/
theorem survivors_of_top {entries : List WalEntry} {top : LiveBlock} {below : List LiveBlock}
    (descending : Descending (top :: below)) (survives : Survives entries top.slot) :
    survivors (top :: below) entries = top :: below := by
  refine List.filter_eq_self.mpr fun block member => decide_eq_true ?_
  exact survives_lower survives (below_target descending member)

theorem survivors_admit {entries : List WalEntry} {block : LiveBlock} (stack : List LiveBlock)
    (lost : ¬ Survives entries block.slot) :
    survivors (block :: stack) entries = survivors stack entries := by
  simp [survivors, lost]

theorem survivors_rollBack {above below : List LiveBlock} {target : LiveBlock}
    {toPoint priorTip selectedTip : RollbackPoint} {reason : RollbackReason}
    {entries : List WalEntry} (descending : Descending (above ++ target :: below))
    (sameSlot : toPoint.slot = target.slot) :
    survivors (above ++ target :: below) (.rollBack toPoint reason priorTip selectedTip :: entries) =
      survivors (target :: below) entries := by
  have gone : above.filter (fun block => decide (Survives
      (.rollBack toPoint reason priorTip selectedTip :: entries) block.slot)) = [] := by
    refine List.filter_eq_nil_iff.mpr fun block member kept => ?_
    have higher := above_target descending member
    have lower : block.slot ≤ target.slot := by
      simpa [sameSlot] using (Iff.mp survives_rollBack (of_decide_eq_true kept)).1
    exact UInt64.not_le.mpr higher lower
  rw [survivors, List.filter_append, gone, List.nil_append, survivors]
  refine List.filter_congr fun block member => ?_
  have lower := below_target (List.pairwise_append.mp descending).2.1 member
  rw [decide_eq_decide, survives_rollBack, sameSlot]
  exact and_iff_right lower

structure Represents (anchorFp : Hash32) (node : LiveNode) (entries : List WalEntry)
    (state : ReplayState) : Prop where
  prevPostFp : state.prevPostFp = tipFp anchorFp (survivors node.stack entries)
  admitCount : state.admitCount = (survivors node.stack entries).length
  pointFp : ∀ point fp, state.pointFp[point]? = some fp ↔
    ∃ block ∈ survivors node.stack entries, block.point = point ∧ block.postFp = fp
  provenance : state.provenance.isSome = node.imported

theorem represents_initial (anchorFp : Hash32) (entries : List WalEntry) :
    Represents anchorFp .empty entries ⟨anchorFp, none, 0, ∅⟩ where
  prevPostFp := rfl
  admitCount := rfl
  pointFp point fp := by simp [survivors, LiveNode.empty]
  provenance := rfl

/-- A survivor stays on the stack to the end of the run. -/
theorem survivor_remains {anchorFp : Hash32} {node final : LiveNode} {entries : List WalEntry}
    (run : LiveRun anchorFp node entries final) (descending : Descending node.stack)
    {block : LiveBlock} (present : block ∈ survivors node.stack entries) :
    block ∈ final.stack := by
  induction run with
  | nil node => exact (Iff.mp mem_survivors present).1
  | cons head tail ih =>
      refine ih (descending_step _ _ _ head descending) ?_
      cases head with
      | push pushed verdict later =>
          exact Iff.mpr mem_survivors ⟨List.mem_cons_of_mem _ (Iff.mp mem_survivors present).1,
            (Iff.mp mem_survivors present).2⟩
      | rollBack above below target blockNo reason priorTip selectedTip onStack =>
          rw [onStack] at present descending
          rwa [survivors_rollBack descending rfl] at present
      | importSeed => exact present
      | activate => exact present

/-- The point index after a push holds the pushed block and what it held before. -/
theorem pointFp_push {block : LiveBlock} {stack : List LiveBlock} {index : BTreeMap Point Hash32}
    (descending : Descending (block :: stack))
    (points : ∀ point fp, index[point]? = some fp ↔
      ∃ lower ∈ stack, lower.point = point ∧ lower.postFp = fp) (point : Point) (fp : Hash32) :
    (index.insert block.point block.postFp)[point]? = some fp ↔
      ∃ other ∈ block :: stack, other.point = point ∧ other.postFp = fp := by
  rw [BTreeMap.getElem?_insert]
  by_cases same : block.point = point
  · subst same
    have unique : ∀ lower ∈ stack, lower.point ≠ block.point := by
      intro lower member equal
      have sameSlot : lower.slot = block.slot := congrArg Point.slot equal
      have less := (List.pairwise_cons.mp descending).1 lower member
      rw [sameSlot] at less
      exact UInt64.lt_irrefl _ less
    constructor
    · intro found
      exact ⟨block, List.mem_cons_self .., rfl, by simpa using found⟩
    · rintro ⟨other, member, samePoint, rfl⟩
      rcases List.mem_cons.mp member with rfl | member
      · simp
      · exact absurd samePoint (unique other member)
  · rw [if_neg same, points]
    constructor
    · rintro ⟨lower, member, found⟩
      exact ⟨lower, List.mem_cons_of_mem _ member, found⟩
    · rintro ⟨other, member, samePoint, found⟩
      rcases List.mem_cons.mp member with rfl | member
      · exact absurd samePoint same
      · exact ⟨other, member, samePoint, found⟩

theorem replayStep_admit {anchorFp : Hash32} (blockBytes : BTreeMap Hash32 Bytes) {node : LiveNode}
    {block : LiveBlock} {verdict : BlockVerdictTag} {entries : List WalEntry} {state : ReplayState}
    (descending : Descending (block :: node.stack))
    (held : Survives entries block.slot → block.hash ∈ blockBytes)
    (represents : Represents anchorFp node
      (.admitBlock (tipFp anchorFp node.stack) block.hash block.slot verdict block.postFp :: entries)
      state)
    (index : Nat) :
    ∃ next, replayStep anchorFp blockBytes index
        (.admitBlock (tipFp anchorFp node.stack) block.hash block.slot verdict block.postFp)
        (mark (.admitBlock (tipFp anchorFp node.stack) block.hash block.slot verdict block.postFp)
          entries) state = .ok next ∧
      Represents anchorFp { node with stack := block :: node.stack } entries next := by
  obtain ⟨tip, count, points, provenance⟩ := represents
  have sameSurvivors : survivors node.stack (.admitBlock (tipFp anchorFp node.stack) block.hash
      block.slot verdict block.postFp :: entries) = survivors node.stack entries := rfl
  rw [sameSurvivors] at tip count points
  by_cases survives : Survives entries block.slot
  · -- A surviving admit finds the whole stack already walked.
    have whole := survivors_of_top descending survives
    have walked : survivors node.stack entries = node.stack := by
      refine List.filter_eq_self.mpr fun lower member => decide_eq_true ?_
      exact survives_lower survives
        (UInt64.le_of_lt ((List.pairwise_cons.mp descending).1 lower member))
    rw [walked] at tip count points
    refine ⟨⟨block.postFp, state.provenance, state.admitCount + 1,
      state.pointFp.insert block.point block.postFp⟩, ?_, ?_, ?_, ?_, provenance⟩
    · simp [replayStep, mark, survives, tip, held survives, LiveBlock.point]
    · rw [whole]
      rfl
    · simp [whole, count]
    · rw [whole]
      exact pointFp_push descending points
  · refine ⟨state, by simp [replayStep, mark, survives], ?_⟩
    have unchanged := survivors_admit node.stack survives
    exact ⟨by rw [tip, unchanged], by rw [count, unchanged], by rw [unchanged]; exact points,
      provenance⟩

theorem replayStep_rollBack {anchorFp : Hash32} (blockBytes : BTreeMap Hash32 Bytes)
    {node : LiveNode} {above below : List LiveBlock} {target : LiveBlock} {blockNo : BlockNo}
    {reason : RollbackReason} {priorTip selectedTip : RollbackPoint} {entries : List WalEntry}
    {state : ReplayState} (onStack : node.stack = above ++ target :: below)
    (descending : Descending node.stack)
    (represents : Represents anchorFp node
      (.rollBack ⟨target.slot, target.hash, blockNo⟩ reason priorTip selectedTip :: entries) state)
    (index : Nat) :
    (Survives entries target.slot → ∃ next, replayStep anchorFp blockBytes index
        (.rollBack ⟨target.slot, target.hash, blockNo⟩ reason priorTip selectedTip) false state =
          .ok next ∧
        Represents anchorFp { node with stack := target :: below } entries next) ∧
    (¬ Survives entries target.slot → replayStep anchorFp blockBytes index
        (.rollBack ⟨target.slot, target.hash, blockNo⟩ reason priorTip selectedTip) false state =
          .error (.rollbackTargetNotInChain index target.slot)) := by
  obtain ⟨tip, count, points, provenance⟩ := represents
  rw [onStack] at descending tip count points
  rw [survivors_rollBack descending rfl] at tip count points
  have descending' : Descending (target :: below) := (List.pairwise_append.mp descending).2.1
  have key : (⟨target.slot, target.hash, blockNo⟩ : RollbackPoint).point = target.point := rfl
  constructor
  · intro survives
    have whole := survivors_of_top descending' survives
    have found : state.pointFp[target.point]? = some target.postFp :=
      (points _ _).mpr ⟨target, by simp [whole], rfl, rfl⟩
    refine ⟨{ state with prevPostFp := target.postFp }, ?_, ?_, count, points, provenance⟩
    · simp only [replayStep, key, found]
    · rw [whole]
      rfl
  · intro lost
    have missing : state.pointFp[target.point]? = none := by
      refine Option.eq_none_iff_forall_ne_some.mpr fun fp found => lost ?_
      obtain ⟨block, member, samePoint, -⟩ := (points _ _).mp found
      have sameSlot : block.slot = target.slot := congrArg Point.slot samePoint
      exact sameSlot ▸ (Iff.mp mem_survivors member).2
    simp only [replayStep, key, missing]

theorem replayLoop_ok {anchorFp : Hash32} {blockBytes : BTreeMap Hash32 Bytes} {index : Nat}
    {entry : WalEntry} {entries : List WalEntry} {state next : ReplayState}
    (stepped : replayStep anchorFp blockBytes index entry (mark entry entries) state = .ok next) :
    replayLoop anchorFp blockBytes index ((entry :: entries).zip (marks (entry :: entries))) state =
      replayLoop anchorFp blockBytes (index + 1) (entries.zip (marks entries)) next := by
  rw [marks, List.zip_cons_cons, replayLoop, stepped]
  rfl

theorem replayLoop_error {anchorFp : Hash32} {blockBytes : BTreeMap Hash32 Bytes} {index : Nat}
    {entry : WalEntry} {entries : List WalEntry} {state : ReplayState} {failure : WalError}
    (stuck : replayStep anchorFp blockBytes index entry (mark entry entries) state =
      .error failure) :
    replayLoop anchorFp blockBytes index ((entry :: entries).zip (marks (entry :: entries))) state =
      .error failure := by
  rw [marks, List.zip_cons_cons, replayLoop, stuck]
  rfl

/-- What the walk does from a state that represents the survivors of the live stack. -/
def Follows (anchorFp : Hash32) (entries : List WalEntry) (final : LiveNode)
    (walk : Except WalError ReplayState) : Prop :=
  ((rollbackSlots entries).Pairwise (· ≤ ·) →
    ∃ result, walk = .ok result ∧ Represents anchorFp final [] result) ∧
  (¬ (rollbackSlots entries).Pairwise (· ≤ ·) → ∃ failure, walk = .error failure)

theorem replayLoop_follows {anchorFp : Hash32} {blockBytes : BTreeMap Hash32 Bytes}
    {node final : LiveNode} {entries : List WalEntry} (run : LiveRun anchorFp node entries final)
    (descending : Descending node.stack) (held : ∀ block ∈ final.stack, block.hash ∈ blockBytes)
    {state : ReplayState} (represents : Represents anchorFp node entries state) (index : Nat) :
    Follows anchorFp entries final
      (replayLoop anchorFp blockBytes index (entries.zip (marks entries)) state) := by
  induction run generalizing state index with
  | nil node =>
      exact ⟨fun _ => ⟨state, rfl, represents⟩, fun unordered => absurd List.Pairwise.nil unordered⟩
  | @cons node middle final entry entries head tail ih =>
      have descending' := descending_step _ _ _ head descending
      cases head with
      | push block verdict later =>
          have remains : Survives entries block.slot → block.hash ∈ blockBytes := by
            intro survives
            refine held block (survivor_remains tail descending' ?_)
            exact Iff.mpr mem_survivors ⟨List.mem_cons_self .., survives⟩
          obtain ⟨next, stepped, represents'⟩ :=
            replayStep_admit blockBytes descending' remains represents index
          rw [replayLoop_ok stepped]
          exact ih descending' held represents' (index + 1)
      | rollBack above below target blockNo reason priorTip selectedTip onStack =>
          obtain ⟨kept, lost⟩ := replayStep_rollBack blockBytes onStack descending
            represents index
          rw [Follows, rollbackSlots, List.pairwise_cons]
          by_cases survives : Survives entries target.slot
          · obtain ⟨next, stepped, represents'⟩ := kept survives
            obtain ⟨ordered, unordered⟩ := ih descending' held represents' (index + 1)
            rw [replayLoop_ok stepped]
            exact ⟨fun both => ordered both.2,
              fun not => unordered fun pairwise => not ⟨survives, pairwise⟩⟩
          · rw [replayLoop_error (lost survives)]
            exact ⟨fun both => absurd both.1 survives, fun _ => ⟨_, rfl⟩⟩
      | importSeed sidecarHash epochNo fresh =>
          obtain ⟨tip, count, points, provenance⟩ := represents
          have unset : state.provenance = none := by
            simpa [fresh] using provenance
          have stepped : replayStep anchorFp blockBytes index
              (.seedEpochConsensusInputsImported anchorFp sidecarHash epochNo) false state =
              .ok { state with provenance := some ⟨anchorFp, sidecarHash, epochNo⟩ } := by
            simp [replayStep, unset]
          rw [replayLoop_ok stepped]
          refine ih descending' held ?_ (index + 1)
          exact ⟨tip, count, points, rfl⟩
      | activate =>
          obtain ⟨tip, count, points, provenance⟩ := represents
          rw [replayLoop_ok rfl]
          exact ih descending' held ⟨tip, count, points, provenance⟩ (index + 1)

/-- Replay reproduces the live node exactly when the rollbacks of the history never return to a
lower slot than an earlier rollback did. -/
theorem replayFromAnchor_reproduces_iff (anchorFp : Hash32) (entries : List WalEntry)
    (node : LiveNode) (history : LiveRun anchorFp .empty entries node)
    (blockBytes : BTreeMap Hash32 Bytes)
    (held : ∀ block ∈ node.stack, block.hash ∈ blockBytes) :
    (∃ outcome, replayFromAnchor anchorFp entries blockBytes = .ok outcome ∧
        outcome.tailFp = tipFp anchorFp node.stack ∧
        outcome.admitCount = node.stack.length) ↔
      (rollbackSlots entries).Pairwise (· ≤ ·) := by
  obtain ⟨ordered, unordered⟩ := replayLoop_follows history List.Pairwise.nil held
    (represents_initial anchorFp entries) 0
  rw [replayFromAnchor, computeSuperseded_marks history]
  constructor
  · rintro ⟨outcome, replayed, -, -⟩
    by_contra not
    obtain ⟨failure, failed⟩ := unordered not
    simp [failed, bind, Except.bind] at replayed
  · intro pairwise
    obtain ⟨result, looped, tip, count, -, -⟩ := ordered pairwise
    have everything : survivors node.stack [] = node.stack := by
      simp [survivors, Survives, rollbackSlots]
    rw [everything] at tip count
    exact ⟨⟨result.prevPostFp, result.provenance, result.admitCount⟩,
      by simp [looped, bind, Except.bind, pure, Except.pure], tip, count⟩

/-- The walk of `verify_chain` accepts what the replay accepts: it makes fewer checks on the same
fingerprints. -/
theorem verifyStep_of_replayStep {anchorFp : Hash32} {blockBytes : BTreeMap Hash32 Bytes}
    {index : Nat} {entry : WalEntry} {superseded : Bool} {state next : ReplayState}
    (stepped : replayStep anchorFp blockBytes index entry superseded state = .ok next) :
    verifyStep index entry superseded ⟨state.prevPostFp, state.pointFp⟩ =
      .ok ⟨next.prevPostFp, next.pointFp⟩ := by
  cases entry with
  | admitBlock priorFp blockHash slot verdict postFp =>
      simp only [replayStep] at stepped
      simp only [verifyStep]
      split_ifs at stepped ⊢ <;> cases stepped <;> rfl
  | seedEpochConsensusInputsImported importedFp sidecarHash epochNo =>
      simp only [replayStep] at stepped
      split_ifs at stepped
      cases stepped
      rfl
  | rollBack toPoint reason priorTip selectedTip =>
      simp only [replayStep] at stepped
      simp only [verifyStep]
      split at stepped
      · cases stepped
        simp only [*]
      · cases stepped
  | epochConsensusViewActivated =>
      cases stepped
      rfl

theorem verifyLoop_of_replayLoop {anchorFp : Hash32} {blockBytes : BTreeMap Hash32 Bytes}
    {index : Nat} {marked : List (WalEntry × Bool)} {state result : ReplayState}
    (looped : replayLoop anchorFp blockBytes index marked state = .ok result) :
    verifyLoop index marked ⟨state.prevPostFp, state.pointFp⟩ =
      .ok ⟨result.prevPostFp, result.pointFp⟩ := by
  induction marked generalizing index state with
  | nil =>
      cases looped
      rfl
  | cons head marked ih =>
      rcases head with ⟨entry, superseded⟩
      rw [replayLoop] at looped
      cases stepped : replayStep anchorFp blockBytes index entry superseded state with
      | error failure =>
          rw [stepped] at looped
          cases looped
      | ok next =>
          rw [stepped] at looped
          rw [verifyLoop, verifyStep_of_replayStep stepped]
          exact ih looped

theorem verifyChain_of_replayFromAnchor {anchorFp : Hash32} {entries : List WalEntry}
    {blockBytes : BTreeMap Hash32 Bytes} {outcome : ReplayOutcome}
    (replayed : replayFromAnchor anchorFp entries blockBytes = .ok outcome) :
    verifyChain anchorFp entries = .ok () := by
  rw [replayFromAnchor] at replayed
  rw [verifyChain]
  cases computed : computeSuperseded entries with
  | error failure =>
      rw [computed] at replayed
      cases replayed
  | ok superseded =>
      rw [computed] at replayed
      cases looped : replayLoop anchorFp blockBytes 0 (entries.zip superseded)
          ⟨anchorFp, none, 0, ∅⟩ with
      | error failure => simp [looped, bind, Except.bind] at replayed
      | ok final => simp [verifyLoop_of_replayLoop looped, bind, Except.bind, pure, Except.pure]

/-! ## Sample histories -/

def fill (byte : UInt8) : Hash32 := Vector.replicate 32 byte

def sampleBlock (slot : SlotNo) (byte : UInt8) : LiveBlock := ⟨slot, fill byte, fill (byte + 0x80)⟩

def sampleAdmit (prior : Hash32) (block : LiveBlock) : WalEntry :=
  .admitBlock prior block.hash block.slot .valid block.postFp

def sampleRollBack (block : LiveBlock) : WalEntry :=
  .rollBack ⟨block.slot, block.hash, 0⟩ .peerRollBackward ⟨0, fill 0, 0⟩ ⟨0, fill 0, 0⟩

/-- Three admits, a rollback to the second block and one to the first. -/
def nestedRollbacks : List WalEntry :=
  [sampleAdmit (fill 0) (sampleBlock 1 1), sampleAdmit (fill 0x81) (sampleBlock 2 2),
    sampleAdmit (fill 0x82) (sampleBlock 3 3), sampleRollBack (sampleBlock 2 2),
    sampleRollBack (sampleBlock 1 1)]

def firstBlockBytes : BTreeMap Hash32 Bytes := (∅ : BTreeMap Hash32 Bytes).insert (fill 1) []

theorem firstBlockBytes_held : ∀ block ∈ [sampleBlock 1 1], block.hash ∈ firstBlockBytes := by
  simp [firstBlockBytes, sampleBlock]

theorem replayFromAnchor_rejects_nestedRollbacks :
    LiveRun (fill 0) .empty nestedRollbacks ⟨[sampleBlock 1 1], false⟩ ∧
      (∀ block ∈ [sampleBlock 1 1], block.hash ∈ firstBlockBytes) ∧
      replayFromAnchor (fill 0) nestedRollbacks firstBlockBytes =
        .error (.rollbackTargetNotInChain 3 2) := by
  refine ⟨?_, firstBlockBytes_held, by decide +kernel⟩
  refine .cons (.push (sampleBlock 1 1) .valid (by simp [LiveNode.empty])) ?_
  refine .cons (.push (sampleBlock 2 2) .valid (by simp [LiveNode.empty, sampleBlock])) ?_
  refine .cons (.push (sampleBlock 3 3) .valid (by simp [sampleBlock])) ?_
  refine .cons (.rollBack [sampleBlock 3 3] _ (sampleBlock 2 2) 0 _ _ _ rfl) ?_
  refine .cons (.rollBack [sampleBlock 2 2] _ (sampleBlock 1 1) 0 _ _ _ rfl) ?_
  exact .nil _

theorem replayFromAnchor_reproduces_oneRollback :
    ∃ outcome, replayFromAnchor (fill 0)
        [sampleAdmit (fill 0) (sampleBlock 1 1), sampleAdmit (fill 0x81) (sampleBlock 2 2),
          sampleRollBack (sampleBlock 1 1)] firstBlockBytes = .ok outcome ∧
      outcome.tailFp = fill 0x81 ∧ outcome.admitCount = 1 := by
  refine (replayFromAnchor_reproduces_iff _ _ ⟨[sampleBlock 1 1], false⟩ ?_ _
    firstBlockBytes_held).mpr (by decide)
  refine .cons (.push (sampleBlock 1 1) .valid (by simp [LiveNode.empty])) ?_
  refine .cons (.push (sampleBlock 2 2) .valid (by simp [LiveNode.empty, sampleBlock])) ?_
  refine .cons (.rollBack [sampleBlock 2 2] _ (sampleBlock 1 1) 0 _ _ _ rfl) ?_
  exact .nil _

end Ade.Proof.Wal
