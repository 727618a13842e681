import Ade.Wal.Replay

namespace Ade.Proof.Wal
open Std Library Ade.Wal

/-- No rollback of the log returns below the slot. -/
def Survives (entries : List WalEntry) (slot : SlotNo) : Prop :=
  ∀ target ∈ rollbackSlots entries, slot ≤ target

instance (entries : List WalEntry) : DecidablePred (Survives entries) :=
  fun slot => inferInstanceAs (Decidable (∀ target ∈ rollbackSlots entries, slot ≤ target))

def mark (entry : WalEntry) (later : List WalEntry) : Bool :=
  match entry with
  | .admitBlock _ _ slot _ _ => decide (¬ Survives later slot)
  | _ => false

def marks : List WalEntry → List Bool
  | [] => []
  | entry :: entries => mark entry entries :: marks entries

def Descending (stack : List LiveBlock) : Prop :=
  stack.Pairwise (fun upper lower => lower.slot < upper.slot)

theorem length_marks (entries : List WalEntry) : (marks entries).length = entries.length := by
  induction entries with
  | nil => rfl
  | cons entry entries ih => simp [marks, ih]

/-! ## Slots on the stack descend -/

theorem descending_push {stack : List LiveBlock} {block : LiveBlock}
    (descending : Descending stack)
    (later : ∀ top ∈ stack.head?, top.slot < block.slot) : Descending (block :: stack) := by
  refine List.pairwise_cons.mpr ⟨?_, descending⟩
  intro lower member
  cases stack with
  | nil => simp at member
  | cons top rest =>
      have above : top.slot < block.slot := later top rfl
      rcases List.mem_cons.mp member with rfl | member
      · exact above
      · exact lt_trans ((List.pairwise_cons.mp descending).1 lower member) above

theorem descending_step {anchorFp : Hash32} (node : LiveNode) (entry : WalEntry) (next : LiveNode)
    (action : LiveStep anchorFp node entry next) (descending : Descending node.stack) :
    Descending next.stack := by
  cases action with
  | push block verdict later => exact descending_push descending later
  | rollBack above below target blockNo reason priorTip selectedTip onStack =>
      rw [onStack] at descending
      exact (List.pairwise_append.mp descending).2.1
  | importSeed => exact descending
  | activate => exact descending

theorem above_target {above below : List LiveBlock} {target block : LiveBlock}
    (descending : Descending (above ++ target :: below)) (member : block ∈ above) :
    target.slot < block.slot :=
  (List.pairwise_append.mp descending).2.2 block member target (List.mem_cons_self ..)

theorem below_target {below : List LiveBlock} {target block : LiveBlock}
    (descending : Descending (target :: below)) (member : block ∈ target :: below) :
    block.slot ≤ target.slot := by
  rcases List.mem_cons.mp member with rfl | member
  · exact UInt64.le_refl _
  · exact UInt64.le_of_lt ((List.pairwise_cons.mp descending).1 block member)

/-! ## The look-ahead computes the marks -/

theorem popAbove_append {slot : SlotNo} {above below : List (Nat × SlotNo)} {index : Nat}
    (greater : ∀ entry ∈ above, slot < entry.2) (superseded : List Bool) :
    popAbove slot (above ++ (index, slot) :: below) superseded =
      ⟨(index, slot) :: below, above.foldl (fun marked entry => marked.set entry.1 true) superseded⟩ := by
  induction above generalizing superseded with
  | nil => simp [popAbove]
  | cons entry above ih =>
      have higher : slot < entry.2 := greater entry (List.mem_cons_self ..)
      have rest := ih (fun other member => greater other (List.mem_cons_of_mem _ member))
        (superseded.set entry.1 true)
      simpa [popAbove, higher] using rest

theorem length_setAll (above : List (Nat × SlotNo)) (superseded : List Bool) :
    (above.foldl (fun marked entry => marked.set entry.1 true) superseded).length =
      superseded.length := by
  induction above generalizing superseded with
  | nil => rfl
  | cons entry above ih => simpa using ih (superseded.set entry.1 true)

theorem setAll_marked (above : List (Nat × SlotNo)) (superseded : List Bool) (i : Nat) :
    (above.foldl (fun marked entry => marked.set entry.1 true) superseded)[i]? = some true ↔
      superseded[i]? = some true ∨ (i < superseded.length ∧ ∃ slot, (i, slot) ∈ above) := by
  induction above generalizing superseded with
  | nil => simp
  | cons entry above ih =>
      rcases entry with ⟨index, slot⟩
      rw [List.foldl_cons, ih, List.length_set, List.getElem?_set]
      by_cases same : index = i
      · subst same
        by_cases bound : index < superseded.length
        · simp [bound]
        · simp [bound]
      · have other : ¬ i = index := fun equal => same equal.symm
        simp [same, other]

/-- An entry ends up marked when it is active and does not survive, or is an admit still to come
that does not survive. -/
def Marked (index : Nat) (entries : List WalEntry) (active : List (Nat × SlotNo)) (i : Nat) : Prop :=
  (∃ slot, (i, slot) ∈ active ∧ ¬ Survives entries slot) ∨
    (∃ k, i = index + k ∧ (marks entries)[k]? = some true)

theorem marks_later (mark : Bool) (entries : List WalEntry) (index i : Nat) :
    (∃ k, i = index + k ∧ (mark :: marks entries)[k]? = some true) ↔
      (i = index ∧ mark = true) ∨ (∃ k, i = index + 1 + k ∧ (marks entries)[k]? = some true) := by
  constructor
  · rintro ⟨_ | k, rfl, marked⟩
    · exact .inl ⟨rfl, by simpa using marked⟩
    · exact .inr ⟨k, by omega, by simpa using marked⟩
  · rintro (⟨rfl, rfl⟩ | ⟨k, rfl, marked⟩)
    · exact ⟨0, rfl, rfl⟩
    · exact ⟨k + 1, by omega, by simpa using marked⟩

theorem marked_skip {index : Nat} {entry : WalEntry} {entries : List WalEntry}
    {active : List (Nat × SlotNo)} {i : Nat}
    (unmarked : mark entry entries = false)
    (sameSlots : rollbackSlots (entry :: entries) = rollbackSlots entries) :
    Marked index (entry :: entries) active i ↔ Marked (index + 1) entries active i := by
  have sameSurvivors : Survives (entry :: entries) = Survives entries := by
    funext slot
    rw [Survives, sameSlots, Survives]
  rw [Marked, Marked, sameSurvivors, marks, unmarked, marks_later]
  simp

theorem marked_admit {index : Nat} {priorFp blockHash : Hash32} {slot : SlotNo}
    {verdict : BlockVerdictTag} {postFp : Hash32} {entries : List WalEntry}
    {active : List (Nat × SlotNo)} {i : Nat} :
    Marked index (.admitBlock priorFp blockHash slot verdict postFp :: entries) active i ↔
      Marked (index + 1) entries ((index, slot) :: active) i := by
  have sameSurvivors : Survives (.admitBlock priorFp blockHash slot verdict postFp :: entries) =
      Survives entries := rfl
  rw [Marked, Marked, sameSurvivors, marks, mark, marks_later]
  constructor
  · rintro (⟨top, member, lost⟩ | ⟨rfl, lost⟩ | later)
    · exact .inl ⟨top, List.mem_cons_of_mem _ member, lost⟩
    · exact .inl ⟨slot, List.mem_cons_self .., by simpa using lost⟩
    · exact .inr later
  · rintro (⟨top, member, lost⟩ | later)
    · rcases List.mem_cons.mp member with same | member
      · cases same
        exact .inr (.inl ⟨rfl, by simpa using lost⟩)
      · exact .inl ⟨top, member, lost⟩
    · exact .inr (.inr later)

theorem survives_rollBack {toPoint priorTip selectedTip : RollbackPoint} {reason : RollbackReason}
    {entries : List WalEntry} {slot : SlotNo} :
    Survives (.rollBack toPoint reason priorTip selectedTip :: entries) slot ↔
      slot ≤ toPoint.slot ∧ Survives entries slot := by
  simp [Survives, rollbackSlots]

theorem marked_rollBack {index : Nat} {toPoint priorTip selectedTip : RollbackPoint}
    {reason : RollbackReason} {entries : List WalEntry} {above below : List (Nat × SlotNo)} {i : Nat}
    (higher : ∀ entry ∈ above, toPoint.slot < entry.2)
    (lower : ∀ entry ∈ below, entry.2 ≤ toPoint.slot) :
    Marked index (.rollBack toPoint reason priorTip selectedTip :: entries) (above ++ below) i ↔
      (∃ slot, (i, slot) ∈ above) ∨ Marked (index + 1) entries below i := by
  have unmarked : mark (.rollBack toPoint reason priorTip selectedTip) entries = false := rfl
  rw [Marked, Marked, marks, unmarked, marks_later]
  simp only [survives_rollBack, Bool.false_eq_true, and_false, false_or]
  constructor
  · rintro (⟨slot, member, lost⟩ | later)
    · rcases List.mem_append.mp member with member | member
      · exact .inl ⟨slot, member⟩
      · have kept : slot ≤ toPoint.slot := lower _ member
        exact .inr (.inl ⟨slot, member, fun survives => lost ⟨kept, survives⟩⟩)
    · exact .inr (.inr later)
  · rintro (⟨slot, member⟩ | ⟨slot, member, lost⟩ | later)
    · have gone : toPoint.slot < slot := higher _ member
      refine .inl ⟨slot, List.mem_append_left _ member, fun survives => ?_⟩
      exact UInt64.not_le.mpr gone survives.1
    · exact .inl ⟨slot, List.mem_append_right _ member, fun survives => lost survives.2⟩
    · exact .inr later

theorem supersedeLoop_marks {anchorFp : Hash32} {node final : LiveNode} {entries : List WalEntry}
    (run : LiveRun anchorFp node entries final) (descending : Descending node.stack)
    (active : List (Nat × SlotNo))
    (tracks : active.map Prod.snd = node.stack.map LiveBlock.slot)
    (index : Nat) (superseded : List Bool) :
    ∃ result, supersedeLoop index entries ⟨active, superseded⟩ = .ok result ∧
      result.superseded.length = superseded.length ∧
      ∀ i, result.superseded[i]? = some true ↔
        superseded[i]? = some true ∨ (i < superseded.length ∧ Marked index entries active i) := by
  induction run generalizing active index superseded with
  | nil node =>
      refine ⟨⟨active, superseded⟩, rfl, rfl, fun i => ?_⟩
      simp [Marked, marks, Survives, rollbackSlots]
  | cons head tail ih =>
      have descending' := descending_step _ _ _ head descending
      cases head with
      | push block verdict later =>
          obtain ⟨result, ran, length, marked⟩ := ih descending'
            ((index, block.slot) :: active) (by simp [tracks]) (index + 1) superseded
          refine ⟨result, ran, length, fun i => ?_⟩
          rw [marked i, marked_admit]
      | rollBack _ _ target blockNo reason priorTip selectedTip onStack =>
          rw [onStack, List.map_append, List.map_cons] at tracks
          obtain ⟨above, rest, rfl, aboveSlots, restSlots⟩ := List.map_eq_append_iff.mp tracks
          obtain ⟨⟨label, slot⟩, below, rfl, sameSlot, belowSlots⟩ := List.map_eq_cons_iff.mp restSlots
          obtain rfl : slot = target.slot := sameSlot
          rw [onStack] at descending
          have higher : ∀ entry ∈ above, target.slot < entry.2 := by
            intro entry member
            have onMap : entry.2 ∈ above.map Prod.snd := List.mem_map_of_mem member
            rw [aboveSlots] at onMap
            obtain ⟨block, blockMember, same⟩ := List.mem_map.mp onMap
            rw [← same]
            exact above_target descending blockMember
          have lower : ∀ entry ∈ (label, target.slot) :: below, entry.2 ≤ target.slot := by
            intro entry member
            have onMap : entry.2 ∈ ((label, target.slot) :: below).map Prod.snd :=
              List.mem_map_of_mem member
            rw [restSlots, ← List.map_cons] at onMap
            obtain ⟨block, blockMember, same⟩ := List.mem_map.mp onMap
            rw [← same]
            exact below_target descending' blockMember
          obtain ⟨result, ran, length, marked⟩ := ih descending'
            ((label, target.slot) :: below) (by simpa using belowSlots) (index + 1)
            (above.foldl (fun marked entry => marked.set entry.1 true) superseded)
          rw [length_setAll] at length marked
          refine ⟨result, ?_, length, fun i => ?_⟩
          · simpa [supersedeLoop, supersedeStep, popAbove_append higher, bind, Except.bind] using ran
          · rw [marked i, setAll_marked, marked_rollBack higher lower]
            tauto
      | importSeed =>
          obtain ⟨result, ran, length, marked⟩ := ih descending' active tracks (index + 1) superseded
          refine ⟨result, ran, length, fun i => ?_⟩
          rw [marked i, marked_skip rfl rfl]
      | activate =>
          obtain ⟨result, ran, length, marked⟩ := ih descending' active tracks (index + 1) superseded
          refine ⟨result, ran, length, fun i => ?_⟩
          rw [marked i, marked_skip rfl rfl]

theorem eq_of_true_positions {left right : List Bool} (sameLength : left.length = right.length)
    (samePositions : ∀ i : Nat, left[i]? = some true ↔ right[i]? = some true) : left = right := by
  refine List.ext_getElem sameLength fun i inLeft inRight => ?_
  have position := samePositions i
  rw [List.getElem?_eq_getElem inLeft, List.getElem?_eq_getElem inRight] at position
  rwa [Option.some.injEq, Option.some.injEq, ← Bool.eq_iff_iff] at position

theorem computeSuperseded_marks {anchorFp : Hash32} {final : LiveNode} {entries : List WalEntry}
    (history : LiveRun anchorFp .empty entries final) :
    computeSuperseded entries = .ok (marks entries) := by
  obtain ⟨result, ran, length, marked⟩ := supersedeLoop_marks history List.Pairwise.nil
    [] rfl 0 (List.replicate entries.length false)
  have same : result.superseded = marks entries := by
    refine eq_of_true_positions (by simpa [length_marks] using length) fun i => ?_
    rw [marked i]
    have bounded : (marks entries)[i]? = some true → i < entries.length := by
      intro present
      rw [← length_marks]
      exact (List.getElem?_eq_some_iff.mp present).1
    simp only [Marked, List.getElem?_replicate, List.length_replicate]
    simpa using bounded
  simp [computeSuperseded, ran, same, bind, Except.bind, pure, Except.pure]

end Ade.Proof.Wal
