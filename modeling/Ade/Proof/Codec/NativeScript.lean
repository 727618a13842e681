import Ade.Codec.NativeScript
import Ade.Library.Except

/-! The iterative decoder of native scripts returns what the recursive descent returns. -/

namespace Ade.Proof.Codec
open Library Ade.Codec

variable {data : Bytes} {start offset : Nat} {nodes : List NativeScriptNode} {lists : List Open}

/-! ## Post-order -/

theorem arity_leaf (leaf : Leaf) : leaf.node.arity = 0 := by
  cases leaf <;> rfl

theorem arity_composite (composite : Composite) (arity : Nat) : (composite.node arity).arity = arity := by
  cases composite <;> rfl

mutual

theorem pendingAfter_postOrder (script : ScriptSyntax) (pending : Nat) (nodes : List NativeScriptNode) :
    pendingAfter pending (script.postOrder ++ nodes) = pendingAfter (pending + 1) nodes := by
  match script with
  | .leaf declared leaf =>
      rw [ScriptSyntax.postOrder, List.singleton_append, pendingAfter, arity_leaf,
        if_neg (Nat.not_lt_zero pending), Nat.sub_zero]
  | .list declared composite indefinite scripts =>
      rw [ScriptSyntax.postOrder, List.append_assoc, pendingAfter_postOrders, List.singleton_append,
        pendingAfter, arity_composite, if_neg (Nat.not_lt.mpr (Nat.le_add_left ..)),
        Nat.add_sub_cancel]

theorem pendingAfter_postOrders (scripts : List ScriptSyntax) (pending : Nat)
    (nodes : List NativeScriptNode) :
    pendingAfter pending (postOrders scripts ++ nodes) =
      pendingAfter (pending + scripts.length) nodes := by
  match scripts with
  | [] => rfl
  | script :: scripts =>
      rw [postOrders, List.append_assoc, pendingAfter_postOrder, pendingAfter_postOrders,
        List.length_cons, Nat.add_assoc, Nat.add_comm 1]

end

/-- The script that a syntax tree stands for. -/
def ScriptSyntax.script (script : ScriptSyntax) : NativeScript where
  nodes := script.postOrder
  oneTree := by
    have counted := pendingAfter_postOrder script 0 []
    rwa [List.append_nil] at counted

theorem fromPostOrder_postOrder (script : ScriptSyntax) :
    NativeScript.fromPostOrder script.postOrder = .ok (ScriptSyntax.script script) :=
  dif_pos (ScriptSyntax.script script).oneTree

/-! ## The rest of the iterative decoder -/

/-- What a reader returns, and what is done behind it. -/
def followedBy {α β : Type} (outcome : Outcome α) (next : α → Nat → Outcome β) : Outcome β :=
  match outcome with
  | (.error failure, after) => (.error failure, after)
  | (.ok value, after) => next value after

@[simp] theorem followedBy_ok {α β : Type} (value : α) (after : Nat) (next : α → Nat → Outcome β) :
    followedBy (.ok value, after) next = next value after := rfl

@[simp] theorem followedBy_error {α β : Type} (failure : CodecError) (after : Nat)
    (next : α → Nat → Outcome β) : followedBy (.error failure, after) next = (.error failure, after) :=
  rfl

theorem runAt_followedBy {α β : Type} (cursor : Read α) (next : α → Read β) (offset : Nat) :
    (cursor >>= next).runAt offset =
      followedBy (cursor.runAt offset) fun value after => (next value).runAt after := by
  rw [Cursor.runAt_bind]
  rcases cursor.runAt offset with ⟨failure | value, after⟩ <;> rfl

theorem followedBy_assoc {α β γ : Type} (outcome : Outcome α) (next : α → Nat → Outcome β)
    (last : β → Nat → Outcome γ) : followedBy (followedBy outcome next) last =
      followedBy outcome fun value after => followedBy (next value after) last := by
  rcases outcome with ⟨failure | value, after⟩ <;> rfl

theorem of_followedBy_ok {α β : Type} {outcome : Outcome α} {next : α → Nat → Outcome β} {result : β}
    {after : Nat} (ran : followedBy outcome next = (.ok result, after)) :
    ∃ value middle, outcome = (.ok value, middle) ∧ next value middle = (.ok result, after) := by
  rcases outcome with ⟨failure | value, middle⟩
  · cases ran
  · exact ⟨value, middle, rfl, ran⟩

/-- The decoder from between two scripts on. -/
def scriptRest (data : Bytes) (start : Nat) (completed : Bool) (nodes : List NativeScriptNode)
    (lists : List Open) (offset : Nat) : Outcome NativeScript :=
  followedBy (closeLists data start completed nodes lists offset) fun closed final =>
    match closed with
    | .inl script => (.ok script, final)
    | .inr (nodes, lists) => decodeScriptLoop data start nodes lists final

theorem decodeScriptLoop_eq : decodeScriptLoop data start nodes lists offset =
    followedBy ((readScriptHead data).runAt offset) fun head after =>
      let (completed, seen, pushed) := afterHead nodes lists head
      scriptRest data start completed seen pushed after := by
  rw [decodeScriptLoop]
  split
  · rename_i failure after ran
    rw [ran]
    rfl
  · rename_i head after ran
    rw [ran]
    unfold scriptRest followedBy
    dsimp only
    split
    · rename_i failure final closed
      rw [closed]
    · rename_i script final closed
      rw [closed]
    · rename_i seen pushed final closed
      rw [closed]

/-- A completed script is counted by the list that it is in. -/
theorem scriptRest_counted (composite : Composite) (owed : Option Nat) (arity : Nat) :
    scriptRest data start true nodes (⟨composite, owed, arity⟩ :: lists) offset =
      scriptRest data start false nodes (⟨composite, owed, arity + 1⟩ :: lists) offset := by
  unfold scriptRest
  rw [closeLists, closeLists]
  rfl

theorem scriptRest_closed (composite : Composite) (arity : Nat) :
    scriptRest data start false nodes (⟨composite, some 0, arity⟩ :: lists) offset =
      scriptRest data start true (nodes ++ [composite.node arity]) lists offset := by
  unfold scriptRest
  rw [closeLists]
  rfl

theorem scriptRest_owed (composite : Composite) (count arity : Nat) :
    scriptRest data start false nodes (⟨composite, some (count + 1), arity⟩ :: lists) offset =
      decodeScriptLoop data start nodes (⟨composite, some count, arity⟩ :: lists) offset := by
  unfold scriptRest
  rw [closeLists]
  rfl

/-- In an indefinite list a break byte closes it and any other byte begins a script. -/
theorem scriptRest_peek (composite : Composite) (arity : Nat) :
    scriptRest data start false nodes (⟨composite, none, arity⟩ :: lists) offset =
      match peekByte data offset with
      | .error failure => (.error failure, offset)
      | .ok byte =>
          if byte = breakByte then
            scriptRest data start true (nodes ++ [composite.node arity]) lists (offset + 1)
          else decodeScriptLoop data start nodes (⟨composite, none, arity⟩ :: lists) offset := by
  unfold scriptRest
  rw [closeLists]
  cases peeked : peekByte data offset with
  | error failure => rfl
  | ok byte =>
      by_cases broken : byte = breakByte
      · simp only [if_pos broken, Bool.false_eq_true, if_false]
      · simp only [if_neg broken, Bool.false_eq_true, if_false, followedBy]

/-! ## The simulation -/

/-- The loop over the script at the offset is the call of `read` and then the rest. -/
structure Descends (data : Bytes) (read : Read ScriptSyntax) (offset : Nat) : Prop where
  loops : ∀ start nodes lists, decodeScriptLoop data start nodes lists offset =
    followedBy (read.runAt offset) fun script after =>
      scriptRest data start true (nodes ++ script.postOrder) lists after
  progress : ∀ script after, read.runAt offset = (.ok script, after) → offset < after

theorem untilBreak_succ {α : Type} (read : Read α) (left : Nat) :
    (untilBreak data read (left + 1)).runAt offset =
      match peekByte data offset with
      | .error failure => (.error failure, offset)
      | .ok byte =>
          if byte = breakByte then (.ok [], offset)
          else followedBy (read.runAt offset) fun value after =>
            followedBy ((untilBreak data read left).runAt after) fun values final =>
              (.ok (value :: values), final) := by
  rw [untilBreak, runAt_followedBy]
  unfold isBreak
  cases peeked : peekByte data offset with
  | error failure => simp [Cursor.runAt_bind, followedBy, peeked, Except.map]
  | ok byte =>
      by_cases broken : byte = breakByte
      · simp [Cursor.runAt_bind, followedBy, peeked, broken, Except.map]
      · simp only [Cursor.runAt_bind, Cursor.runAt_get, Cursor.runAt_liftExcept, Cursor.runAt_pure,
          peeked, followedBy, broken, decide_false, Bool.false_eq_true, if_false]
        rcases read.runAt offset with ⟨failure | value, after⟩
        · rfl
        · dsimp only
          rcases (untilBreak data read left).runAt after with ⟨failure | values, final⟩ <;> rfl

section Lists

variable {read : Read ScriptSyntax} {from_ : Nat}
  (descends : ∀ offset, from_ ≤ offset → Descends data read offset)

include descends

theorem scriptRest_definite (composite : Composite) (count arity : Nat) (reached : from_ ≤ offset) :
    scriptRest data start false nodes (⟨composite, some count, arity⟩ :: lists) offset =
      followedBy ((Cursor.times read count).runAt offset) fun scripts after =>
        scriptRest data start true
          (nodes ++ postOrders scripts ++ [composite.node (arity + scripts.length)]) lists after := by
  induction count generalizing offset nodes arity with
  | zero =>
      rw [Cursor.times, Cursor.runAt_pure, scriptRest_closed]
      simp only [followedBy, postOrders, List.append_nil, List.length_nil, Nat.add_zero]
  | succ count ih =>
      rw [scriptRest_owed, (descends offset reached).loops, Cursor.times, runAt_followedBy, followedBy_assoc]
      rcases ran : read.runAt offset with ⟨failure | script, after⟩
      · rfl
      · have passed := (descends offset reached).progress script after ran
        dsimp only [followedBy]
        rw [scriptRest_counted, ih _ (by omega), Cursor.runAt_bind]
        rcases (Cursor.times read count).runAt after with ⟨failure | scripts, final⟩
        · rfl
        · simp only [followedBy, Cursor.runAt_pure, postOrders, List.append_assoc, List.length_cons,
            Nat.add_assoc, Nat.add_comm 1]

theorem scriptRest_indefinite (composite : Composite) (arity : Nat) {left : Nat}
    (reached : from_ ≤ offset) (enough : data.length ≤ offset + left) :
    scriptRest data start false nodes (⟨composite, none, arity⟩ :: lists) offset =
      followedBy ((untilBreak data read left).runAt offset) fun scripts after =>
        scriptRest data start true
          (nodes ++ postOrders scripts ++ [composite.node (arity + scripts.length)]) lists (after + 1) := by
  induction left generalizing offset nodes arity with
  | zero =>
      have ended : data[offset]? = none := List.getElem?_eq_none enough
      rw [scriptRest_peek]
      simp [peekByte, ended, untilBreak, Cursor.runAt_bind, followedBy]
  | succ left ih =>
      rw [untilBreak_succ, scriptRest_peek]
      cases peeked : peekByte data offset with
      | error failure => rfl
      | ok byte =>
          dsimp only
          split_ifs with broken
          · simp only [followedBy, postOrders, List.append_nil, List.length_nil, Nat.add_zero]
          · rw [(descends offset reached).loops, followedBy_assoc]
            rcases ran : read.runAt offset with ⟨failure | script, after⟩
            · rfl
            · have passed := (descends offset reached).progress script after ran
              dsimp only [followedBy]
              rw [scriptRest_counted, ih _ (by omega) (by omega)]
              rcases (untilBreak data read left).runAt after with ⟨failure | scripts, final⟩
              · rfl
              · simp only [followedBy, postOrders, List.append_assoc, List.length_cons,
                  Nat.add_assoc, Nat.add_comm 1]

end Lists

theorem readScriptList_runAt (read : Read ScriptSyntax) :
    (readScriptList data read).runAt offset =
      followedBy ((readArrayHeader data).runAt offset) fun encoding middle =>
        match encoding with
        | .definite count _ =>
            followedBy ((Cursor.times read count.toNat).runAt middle) fun scripts after =>
              (.ok (false, scripts), after)
        | .indefinite =>
            followedBy ((untilBreak data read data.length).runAt middle) fun scripts after =>
              (.ok (true, scripts), after + 1) := by
  unfold readScriptList
  rw [runAt_followedBy]
  congr 1
  funext encoding middle
  cases encoding with
  | definite count width =>
      dsimp only
      rw [runAt_followedBy]
      rfl
  | indefinite =>
      dsimp only
      rw [runAt_followedBy]
      rfl

theorem openHead_list (composite : Composite) :
    (openHead data (.list composite)).runAt offset =
      followedBy ((readArrayHeader data).runAt offset) fun encoding middle =>
        match encoding with
        | .definite count _ => (.ok (.inr ⟨composite, some count.toNat, 0⟩), middle)
        | .indefinite => (.ok (.inr ⟨composite, none, 0⟩), middle) := by
  unfold openHead openList
  dsimp only
  rw [runAt_followedBy, runAt_followedBy]
  rcases (readArrayHeader data).runAt offset with ⟨failure | encoding, middle⟩
  · rfl
  · cases encoding <;> rfl

/-- A list is closed where its recursive reading ends. -/
theorem scriptRest_list {read : Read ScriptSyntax} (composite : Composite)
    (descends : ∀ later, offset ≤ later → Descends data read later) :
    (followedBy ((openHead data (.list composite)).runAt offset) fun head after =>
        let (completed, seen, pushed) := afterHead nodes lists head
        scriptRest data start completed seen pushed after) =
      followedBy ((readScriptList data read).runAt offset) fun scripts after =>
        scriptRest data start true
          (nodes ++ (postOrders scripts.2 ++ [composite.node scripts.2.length])) lists after := by
  rw [openHead_list, readScriptList_runAt, followedBy_assoc, followedBy_assoc]
  rcases header : (readArrayHeader data).runAt offset with ⟨failure | encoding, middle⟩
  · rfl
  · have passed := (readArrayHeader_ok header).2
    have later : ∀ position, middle ≤ position → Descends data read position := fun position reached =>
      descends position (by omega)
    cases encoding with
    | definite count width =>
        simp only [followedBy_ok, afterHead]
        rw [scriptRest_definite later composite count.toNat 0 (Nat.le_refl _), followedBy_assoc]
        simp only [followedBy_ok, List.append_assoc, Nat.zero_add]
    | indefinite =>
        simp only [followedBy_ok, afterHead]
        rw [scriptRest_indefinite later composite 0 (Nat.le_refl _) (Nat.le_add_left data.length middle),
          followedBy_assoc]
        simp only [followedBy_ok, List.append_assoc, Nat.zero_add]

/-! ## The recursive descent moves forward -/

section Ordinary

variable {least : Nat} {read : Read ScriptSyntax}

theorem times_ordinary (each : Forward least read) (count : Nat) :
    Forward least (Cursor.times read count) := by
  induction count with
  | zero => exact .pure _
  | succ count ih => exact each.bind fun _ => ih.bind fun _ => .pure _

theorem isBreak_ordinary : Forward least (isBreak data) := by
  refine get_forward.bind fun position => Cursor.Ensures.bind ?_ fun _ => .pure _
  intro offset reached
  rw [Cursor.runAt_liftExcept]
  refine ⟨reached, fun failure failed => ?_⟩
  dsimp only at failed
  unfold peekByte at failed
  split at failed
  · cases failed
  · cases failed
    exact ordinary_eof _ _

theorem untilBreak_ordinary (each : Forward least read) (left : Nat) :
    Forward least (untilBreak data read left) := by
  induction left with
  | zero => exact get_forward.bind fun _ => .throw (ordinary_eof _ _)
  | succ left ih =>
      refine isBreak_ordinary.bind fun broken => ?_
      exact .ite (.pure _) (each.bind fun _ => ih.bind fun _ => .pure _)

theorem modify_ordinary : Forward least (modify (· + 1) : Read PUnit) := by
  intro offset reached
  exact ⟨Nat.le_succ_of_le reached, fun failure failed => by cases failed⟩

theorem readScriptList_ordinary (each : Forward least read) : Forward least (readScriptList data read) := by
  refine readArrayHeader_ordinary.bind fun encoding => ?_
  cases encoding with
  | definite count width => exact (times_ordinary each _).bind fun _ => .pure _
  | indefinite =>
      exact (untilBreak_ordinary each _).bind fun _ => modify_ordinary.bind fun _ => .pure _

theorem readScriptWithin_ordinary (left : Nat) : Forward least (readScriptWithin data left) := by
  induction left with
  | zero => exact get_forward.bind fun _ => .throw (ordinary_eof _ _)
  | succ left ih =>
      refine readScriptStart_ordinary.bind fun script => ?_
      obtain ⟨declared, head⟩ := script
      cases head with
      | leaf leaf => exact .pure _
      | list composite => exact (readScriptList_ordinary ih).bind fun _ => .pure _

end Ordinary

theorem readScriptWithin_zero : (readScriptWithin data 0).runAt offset =
    (.error (.unexpectedEof offset 1), offset) := rfl

theorem readScriptWithin_succ (left : Nat) : (readScriptWithin data (left + 1)).runAt offset =
    followedBy ((readScriptStart data).runAt offset) fun script middle =>
      match script.2 with
      | .leaf leaf => (.ok (.leaf script.1 leaf), middle)
      | .list composite =>
          followedBy ((readScriptList data (readScriptWithin data left)).runAt middle)
            fun scripts after => (.ok (.list script.1 composite scripts.1 scripts.2), after) := by
  rw [readScriptWithin, runAt_followedBy]
  congr 1
  funext script middle
  obtain ⟨declared, head⟩ := script
  cases head with
  | leaf leaf => rfl
  | list composite =>
      dsimp only
      rw [runAt_followedBy]
      rfl

theorem readScriptHead_end (ended : data.length ≤ offset) : (readScriptHead data).runAt offset =
    (.error (.unexpectedEof offset 1), offset) := by
  have nothing : data[offset]? = none := List.getElem?_eq_none ended
  simp [readScriptHead, readScriptStart, readScriptArray, readArrayHeader, readContainerHeader,
    decodeInitial, readByte, peekByte, Cursor.runAt_bind, nothing]

theorem readScriptWithin_descends (left : Nat) (enough : data.length ≤ offset + left) :
    Descends data (readScriptWithin data left) offset := by
  induction left generalizing offset with
  | zero =>
      constructor
      · intro start nodes lists
        have ended : data.length ≤ offset := enough
        rw [decodeScriptLoop_eq, readScriptHead_end ended, readScriptWithin_zero]
        rfl
      · intro script after ran
        rw [readScriptWithin_zero] at ran
        cases ran
  | succ left ih =>
      constructor
      · intro start nodes lists
        rw [decodeScriptLoop_eq, readScriptWithin_succ, followedBy_assoc]
        unfold readScriptHead
        rw [runAt_followedBy, followedBy_assoc]
        rcases started : (readScriptStart data).runAt offset with ⟨failure | script, middle⟩
        · rfl
        · have passed := (readScriptStart_ok started).2
          obtain ⟨declared, head⟩ := script
          rw [followedBy_ok, followedBy_ok]
          cases head with
          | leaf leaf => rfl
          | list composite =>
              dsimp only
              rw [scriptRest_list composite fun later reached => ih (by omega), followedBy_assoc]
              rfl
      · intro script after ran
        rw [readScriptWithin_succ] at ran
        rcases started : (readScriptStart data).runAt offset with ⟨failure | head, middle⟩
        · rw [started] at ran
          cases ran
        · have passed := (readScriptStart_ok started).2
          obtain ⟨declared, head⟩ := head
          rw [started, followedBy_ok] at ran
          cases head with
          | leaf leaf =>
              cases ran
              exact passed
          | list composite =>
              dsimp only at ran
              rcases listed : (readScriptList data (readScriptWithin data left)).runAt middle with
                ⟨failure | scripts, final⟩
              · rw [listed] at ran
                cases ran
              · rw [listed] at ran
                cases ran
                have forward := Forward.le (readScriptList_ordinary (readScriptWithin_ordinary left)) listed
                omega

/-! ## The statement -/

theorem decodeNativeScript_eq (data : Bytes) (offset : Nat) : decodeNativeScript data offset =
    followedBy ((readScript data).runAt offset) fun script after =>
      (.ok (ScriptSyntax.script script), after) := by
  have descends := @readScriptWithin_descends data offset (data.length - offset) (by omega)
  have recursive : (readScript data).runAt offset =
      (readScriptWithin data (data.length - offset)).runAt offset := rfl
  unfold decodeNativeScript
  rw [descends.loops, recursive]
  congr 1
  funext script after
  unfold scriptRest
  rw [closeLists, List.nil_append, fromPostOrder_postOrder]
  rfl

/-- The iterative decoder is the recursive descent, with its failures and its offsets; its two
defensive branches are never taken. -/
theorem native_script_decoder_descends (data : Bytes) (offset : Nat) :
    decodeNativeScript data offset =
        followedBy ((readScript data).runAt offset) (fun script after =>
          (.ok (ScriptSyntax.script script), after)) ∧
      Raises Ordinary (decodeNativeScript data offset).1 := by
  refine ⟨decodeNativeScript_eq data offset, fun failure failed => ?_⟩
  rw [decodeNativeScript_eq] at failed
  have ordinary := @readScriptWithin_ordinary data offset (data.length - offset) offset (Nat.le_refl offset)
  rcases ran : (readScript data).runAt offset with ⟨reason | script, final⟩
  · rw [ran] at failed
    cases failed
    exact ordinary.2 _ (congrArg Prod.fst ran)
  · rw [ran] at failed
    cases failed

end Ade.Proof.Codec
