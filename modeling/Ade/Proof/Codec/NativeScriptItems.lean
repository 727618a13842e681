import Ade.Proof.Codec.NativeScript
import Ade.Proof.Codec.Items

/-! When a decoded native script is one item. -/

namespace Ade.Proof.Codec
open Library Ade.Codec

/-! ## What the walker still owes -/

/-- The walker takes a head that announces `declared` items. In an indefinite list it may owe nothing
before it; anywhere else it would have stopped. -/
def takeHead (inList : Bool) : (owed declared : Nat) → Option Nat
  | 0, declared => if inList then some declared else none
  | owed + 1, declared => some (owed + declared)

def thresholdHeads (inList : Bool) (owed : Nat) : Composite → Option Nat
  | .mOfN _ => takeHead inList owed 0
  | .all | .any => some owed

mutual

/-- The items owed behind a script, where `owed` are due before it. -/
def owedAfter (inList : Bool) (owed : Nat) : ScriptSyntax → Option Nat
  | .leaf declared _ => do
      let owed ← takeHead inList owed declared.toNat
      let owed ← takeHead inList owed 0
      takeHead inList owed 0
  | .list declared composite indefinite scripts => do
      let owed ← takeHead inList owed declared.toNat
      let owed ← takeHead inList owed 0
      let owed ← thresholdHeads inList owed composite
      if indefinite then
        let owed ← takeHead inList owed 0
        let left ← scriptsOwedAfter true 0 scripts
        if left = 0 then some owed else none
      else
        let owed ← takeHead inList owed scripts.length
        scriptsOwedAfter inList owed scripts

def scriptsOwedAfter (inList : Bool) (owed : Nat) : List ScriptSyntax → Option Nat
  | [] => some owed
  | script :: scripts => do
      let owed ← owedAfter inList owed script
      scriptsOwedAfter inList owed scripts

end

/-- Of the items that the arrays of the script at the offset declare, none is left behind the script
and none runs out before its end. -/
def balanced (data : Bytes) (offset : Nat) : Bool :=
  match (readScript data).runAt offset with
  | (.ok script, _) => owedAfter false 1 script = some 0
  | (.error _, _) => false

/-! ## The walker on heads -/

section
variable {data : Bytes} {offset middle after : Nat} {inList : Bool} {owed : Nat}

/-- What is owed below: nothing, or an indefinite list. -/
def Stands : (inList : Bool) → List (Option Nat) → Prop
  | false, base => base = []
  | true, base => ∃ outer, base = none :: outer

/-- The walker does not get to `after` with nothing owed. -/
def Strays (inList : Bool) (outcome : Outcome Unit) (after : Nat) : Prop :=
  (∃ failure final, outcome = (.error failure, final)) ∨
    inList = false ∧ ∃ final, outcome = (.ok (), final) ∧ final < after

/-- From `offset` to `after` the walker comes from `owed` items to what `result` says. -/
def Walks (data : Bytes) (inList : Bool) (owed offset : Nat) (result : Option Nat) (after : Nat) : Prop :=
  ∀ base, Stands inList base →
    match result with
    | some left => skipRest data (some owed :: base) offset = skipRest data (some left :: base) after
    | none => Strays inList (skipRest data (some owed :: base) offset) after

theorem Strays.mono {outcome : Outcome Unit} (strays : Strays inList outcome middle)
    (later : middle ≤ after) : Strays inList outcome after := by
  rcases strays with failed | ⟨alone, final, stopped, early⟩
  · exact .inl failed
  · exact .inr ⟨alone, final, stopped, Nat.lt_of_lt_of_le early later⟩

theorem Walks.refl : Walks data inList owed offset (some owed) offset := fun _ _ => rfl

theorem Walks.bind {result : Option Nat} {next : Nat → Option Nat}
    (first : Walks data inList owed offset result middle) (later : middle ≤ after)
    (rest : ∀ left, Walks data inList left middle (next left) after) :
    Walks data inList owed offset (result >>= next) after := by
  intro base fits
  have one := first base fits
  cases result with
  | none => exact Strays.mono one later
  | some left =>
      have two := rest left base fits
      dsimp only at one
      rw [one]
      exact two

theorem readHead_ok_peek {head : ItemHead} (ran : (readHead data).runAt offset = (.ok head, middle)) :
    ∃ byte, peekByte data offset = .ok byte ∧ byte ≠ breakByte := by
  cases peeked : peekByte data offset with
  | error failure =>
      have ended : data.length ≤ offset := by
        unfold peekByte at peeked
        split at peeked
        · cases peeked
        · exact List.getElem?_eq_none_iff.mp (by assumption)
      rw [readHead_end ended] at ran
      cases ran
  | ok byte =>
      refine ⟨byte, rfl, ?_⟩
      rintro rfl
      rw [readHead_break peeked] at ran
      cases ran

/-- A head, and then what it owes above the rest. -/
theorem takeHead_walks {head : ItemHead} (ran : (readHead data).runAt offset = (.ok head, middle))
    (reached : middle ≤ after) (base : List (Option Nat)) (stands : Stands inList base) :
    match takeHead inList owed 0 with
    | some left => skipRest data (some owed :: base) offset =
        skipRest data (owedBy head ++ some left :: base) middle
    | none => Strays inList (skipRest data (some owed :: base) offset) after := by
  obtain ⟨available, taken⟩ := readHead_ok ran
  cases owed with
  | succ owed =>
      show skipRest data (some (owed + 1) :: base) offset = _
      rw [skipRest_succ, skipLoop_eq, ran]
      rfl
  | zero =>
      cases inList with
      | false =>
          subst stands
          exact .inr ⟨rfl, offset, rfl, by omega⟩
      | true =>
          obtain ⟨outer, rfl⟩ := stands
          obtain ⟨byte, peeked, goes⟩ := readHead_ok_peek ran
          show skipRest data (some 0 :: none :: outer) offset = skipRest data _ middle
          rw [skipRest_zero, skipRest_open peeked goes, skipLoop_eq, ran]
          dsimp only
          rw [skipRest_append, skipRest_append (owedBy head)]
          rfl

theorem takeHead_eq (declared : Nat) : takeHead inList owed declared =
    (takeHead inList owed 0).map (declared + ·) := by
  cases owed with
  | zero => cases inList <;> rfl
  | succ owed => simp [takeHead, Nat.add_comm]

theorem walks_leaf (ran : (readHead data).runAt offset = (.ok .leaf, middle)) :
    Walks data inList owed offset (takeHead inList owed 0) middle :=
  takeHead_walks ran (Nat.le_refl middle)

theorem walks_array {count : UInt64} (ran : (readHead data).runAt offset = (.ok (.array count), middle)) :
    Walks data inList owed offset (takeHead inList owed count.toNat) middle := by
  intro base stands
  have head := @takeHead_walks data offset middle middle inList owed _ ran (Nat.le_refl middle) base stands
  rw [takeHead_eq]
  cases taken : takeHead inList owed 0 with
  | none =>
      rw [taken] at head
      exact head
  | some left =>
      rw [taken] at head
      dsimp only [Option.map_some] at head ⊢
      rw [head]
      exact skipRest_merge count.toNat left base

/-! ## The heads of a script -/

theorem readHead_of_readAnyInt {value : UInt64 × Bool × IntWidth}
    (ran : (readAnyInt data).runAt offset = (.ok value, after)) :
    (readHead data).runAt offset = (.ok .leaf, after) := by
  have integer : ∀ {major ai : Nat} {negative : Bool}, major = majorUnsigned ∨ major = majorNegative →
      (decodeArgument data ai offset >>= fun argument =>
        (pure (argument.1, negative, argument.2) : Read (UInt64 × Bool × IntWidth))).runAt (offset + 1) =
          (.ok value, after) →
      (readHeadTail data offset major ai).runAt (offset + 1) = (.ok .leaf, after) := by
    intro major ai negative known argumentRan
    obtain ⟨argument, middle, argumentOk, returned⟩ := Cursor.of_runAt_bind_ok argumentRan
    cases returned
    unfold readHeadTail
    rw [if_pos known]
    by_cases inline : ai < 24
    · rw [decodeArgument_inline inline] at argumentOk
      cases argumentOk
      rw [if_pos inline]
      rfl
    · rw [if_neg inline, Cursor.runAt_bind_ok argumentOk]
      rfl
  rw [readHead_starts]
  cases found : data[offset]? with
  | none => simp [readAnyInt, decodeInitial, readByte, peekByte, Cursor.runAt_bind, found] at ran
  | some byte =>
      have initial : (decodeInitial data).runAt offset =
          (.ok (byte.toNat / 32, byte.toNat % 32), offset + 1) := by
        simp [decodeInitial, readByte, peekByte, Cursor.runAt_bind, found, Except.map]
      unfold readAnyInt at ran
      rw [Cursor.runAt_bind_ok (Cursor.runAt_get offset), Cursor.runAt_bind_ok initial] at ran
      dsimp only at ran ⊢
      by_cases unsigned : byte.toNat / 32 = majorUnsigned
      · rw [if_pos unsigned] at ran
        exact integer (.inl unsigned) ran
      · rw [if_neg unsigned] at ran
        by_cases negative : byte.toNat / 32 = majorNegative
        · rw [if_pos negative] at ran
          exact integer (.inr negative) ran
        · rw [if_neg negative] at ran
          cases ran

theorem readHead_of_readThreshold {value : Int}
    (ran : (readThreshold data).runAt offset = (.ok value, after)) :
    (readHead data).runAt offset = (.ok .leaf, after) := by
  unfold readThreshold at ran
  rw [Cursor.runAt_bind_ok (Cursor.runAt_get offset)] at ran
  obtain ⟨argument, middle, read, checked⟩ := Cursor.of_runAt_bind_ok ran
  dsimp only at checked
  split_ifs at checked
  · cases checked
    exact readHead_of_readAnyInt read
  · cases checked
    exact readHead_of_readAnyInt read
  · cases checked

theorem readHead_of_readKeyHash {keyHash : Hash28}
    (ran : (readKeyHash data).runAt offset = (.ok keyHash, after)) :
    (readHead data).runAt offset = (.ok .leaf, after) := by
  unfold readKeyHash readHash at ran
  obtain ⟨bytes, middle, read, checked⟩ := Cursor.of_runAt_bind_ok ran
  dsimp only at checked
  split_ifs at checked
  · cases checked
    exact readHead_of_readBytes read
  · cases checked

theorem readHead_of_readUint {value : UInt64 × IntWidth}
    (ran : (readUint data).runAt offset = (.ok value, after)) :
    (readHead data).runAt offset = (.ok .leaf, after) :=
  have argument : (readArgument majorUnsigned "unsigned integer" data).runAt offset =
    (.ok value, after) := ran
  (readHead_of_readArgument argument).1 rfl

theorem readHead_of_readScriptArray {declared : UInt64}
    (ran : (readScriptArray data).runAt offset = (.ok declared, after)) :
    (readHead data).runAt offset = (.ok (.array declared), after) := by
  unfold readScriptArray at ran
  obtain ⟨encoding, middle, header, counted⟩ := Cursor.of_runAt_bind_ok ran
  cases encoding with
  | definite count width =>
      cases counted
      exact readHead_of_readContainerHeader (.inl rfl) header
  | indefinite => cases counted

theorem readHead_taken {head : ItemHead} (ran : (readHead data).runAt offset = (.ok head, after)) :
    offset ≤ after :=
  Nat.le_of_lt (readHead_ok ran).2

/-- What the walker owes behind the tag and what is read with it. -/
def tagOwed (inList : Bool) (owed : Nat) : ScriptHead → Option Nat
  | .leaf _ => do
      let owed ← takeHead inList owed 0
      takeHead inList owed 0
  | .list composite => do
      let owed ← takeHead inList owed 0
      thresholdHeads inList owed composite

theorem readScriptTag_walks {declared : UInt64} {head : ScriptHead}
    (ran : (readScriptTag data declared).runAt offset = (.ok head, after)) :
    Walks data inList owed offset (tagOwed inList owed head) after := by
  unfold readScriptTag at ran
  obtain ⟨tag, middle, tagRan, ran⟩ := Cursor.of_runAt_bind_ok ran
  have tagHead := readHead_of_readUint tagRan
  have leaf : ∀ {leaf : Leaf}, (readHead data).runAt middle = (.ok .leaf, after) →
      Walks data inList owed offset (tagOwed inList owed (.leaf leaf)) after := fun argument =>
    (walks_leaf tagHead).bind (readHead_taken argument) fun _ => walks_leaf argument
  have slot : ∀ {leaf : UInt64 → Leaf}, (readUint data >>= fun slot =>
      (pure (.leaf (leaf slot.1)) : Read ScriptHead)).runAt middle = (.ok head, after) →
      Walks data inList owed offset (tagOwed inList owed head) after := by
    intro build slotRan
    obtain ⟨value, last, valueRan, returned⟩ := Cursor.of_runAt_bind_ok slotRan
    cases returned
    exact leaf (readHead_of_readUint valueRan)
  dsimp only at ran
  split_ifs at ran
  · obtain ⟨keyHash, last, keyRan, returned⟩ := Cursor.of_runAt_bind_ok ran
    cases returned
    exact leaf (readHead_of_readKeyHash keyRan)
  · cases ran
    exact (walks_leaf tagHead).bind (Nat.le_refl _) fun _ => Walks.refl
  · cases ran
    exact (walks_leaf tagHead).bind (Nat.le_refl _) fun _ => Walks.refl
  · obtain ⟨checked, last, three, ran⟩ := Cursor.of_runAt_bind_ok ran
    obtain ⟨threshold, last', thresholdRan, returned⟩ := Cursor.of_runAt_bind_ok ran
    cases returned
    unfold expectMOfN at three
    split_ifs at three
    · cases three
    · cases three
      have argument := readHead_of_readThreshold thresholdRan
      exact (walks_leaf tagHead).bind (readHead_taken argument) fun _ => walks_leaf argument
  · exact slot ran
  · exact slot ran
  · cases ran

theorem readScriptStart_walks {start : UInt64 × ScriptHead}
    (ran : (readScriptStart data).runAt offset = (.ok start, after)) :
    Walks data inList owed offset
      (do let left ← takeHead inList owed start.1.toNat; tagOwed inList left start.2) after := by
  unfold readScriptStart at ran
  obtain ⟨declared, middle, arrayRan, ran⟩ := Cursor.of_runAt_bind_ok ran
  obtain ⟨head, last, tagRan, returned⟩ := Cursor.of_runAt_bind_ok ran
  cases returned
  exact (walks_array (readHead_of_readScriptArray arrayRan)).bind
    ((readScriptTag_ordinary declared).le tagRan) fun _ => readScriptTag_walks tagRan

/-! ## The walker on scripts -/

/-- Wherever the reader returns a script, the walker does as the script says. -/
def WalksScripts (data : Bytes) (read : Read ScriptSyntax) : Prop :=
  (∀ least, Forward least read) ∧
    ∀ inList owed offset script after, read.runAt offset = (.ok script, after) →
      Walks data inList owed offset (owedAfter inList owed script) after

section
variable {read : Read ScriptSyntax} {scripts : List ScriptSyntax}

theorem times_walks (walks : WalksScripts data read) {count : Nat}
    (ran : (Cursor.times read count).runAt offset = (.ok scripts, after)) :
    scripts.length = count ∧
      Walks data inList owed offset (scriptsOwedAfter inList owed scripts) after := by
  induction count generalizing offset owed scripts with
  | zero =>
      cases ran
      exact ⟨rfl, Walks.refl⟩
  | succ count ih =>
      rw [Cursor.times] at ran
      obtain ⟨script, middle, first, ran⟩ := Cursor.of_runAt_bind_ok ran
      obtain ⟨others, last, rest, returned⟩ := Cursor.of_runAt_bind_ok ran
      cases returned
      have later := (times_ordinary (walks.1 _) count).le rest
      refine ⟨congrArg (· + 1) (@ih middle owed others rest).1, ?_⟩
      rw [scriptsOwedAfter]
      exact (walks.2 inList owed offset script middle first).bind later fun _ => (ih rest).2

theorem untilBreak_walks (walks : WalksScripts data read) {left : Nat}
    (ran : (untilBreak data read left).runAt offset = (.ok scripts, after)) :
    peekByte data after = .ok breakByte ∧
      Walks data inList owed offset (scriptsOwedAfter inList owed scripts) after := by
  induction left generalizing offset owed scripts with
  | zero => cases ran
  | succ left ih =>
      rw [untilBreak_succ] at ran
      cases peeked : peekByte data offset with
      | error failure =>
          rw [peeked] at ran
          cases ran
      | ok byte =>
          rw [peeked] at ran
          dsimp only at ran
          split_ifs at ran with broken
          · cases ran
            rw [broken] at peeked
            exact ⟨peeked, Walks.refl⟩
          · obtain ⟨script, middle, first, ran⟩ := of_followedBy_ok ran
            obtain ⟨others, last, rest, returned⟩ := of_followedBy_ok ran
            cases returned
            have later := (untilBreak_ordinary (walks.1 _) left).le rest
            refine ⟨(@ih middle owed others rest).1, ?_⟩
            rw [scriptsOwedAfter]
            exact (walks.2 inList owed offset script middle first).bind later fun _ => (ih rest).2

/-- What is owed behind a list. -/
def listOwed (inList : Bool) (owed : Nat) (indefinite : Bool) (scripts : List ScriptSyntax) : Option Nat :=
  if indefinite then do
    let owed ← takeHead inList owed 0
    let left ← scriptsOwedAfter true 0 scripts
    if left = 0 then some owed else none
  else do
    let owed ← takeHead inList owed scripts.length
    scriptsOwedAfter inList owed scripts

/-- A break byte is taken by a list of which nothing is owed. -/
theorem skipRest_closes {left : Nat} {outer : List (Option Nat)}
    (broken : peekByte data offset = .ok breakByte) :
    if left = 0 then
      skipRest data (some left :: none :: outer) offset = skipRest data outer (offset + 1)
    else ∃ failure final, skipRest data (some left :: none :: outer) offset = (.error failure, final) := by
  cases left with
  | zero => exact skipRest_break broken
  | succ left =>
      rw [if_neg (Nat.succ_ne_zero left), skipRest_succ, skipLoop_eq, readHead_break broken]
      exact ⟨_, _, rfl⟩

theorem readScriptList_walks (walks : WalksScripts data read) {indefinite : Bool}
    (ran : (readScriptList data read).runAt offset = (.ok (indefinite, scripts), after)) :
    Walks data inList owed offset (listOwed inList owed indefinite scripts) after := by
  rw [readScriptList_runAt] at ran
  obtain ⟨encoding, middle, header, ran⟩ := of_followedBy_ok ran
  cases encoding with
  | definite count width =>
      obtain ⟨others, last, rest, returned⟩ := of_followedBy_ok ran
      cases returned
      have head : (readHead data).runAt offset = (.ok (.array count), middle) :=
        readHead_of_readContainerHeader (.inl rfl) header
      have later := (times_ordinary (walks.1 _) count.toNat).le rest
      have counted : scripts.length = count.toNat :=
        (@times_walks data middle _ inList owed read scripts walks _ rest).1
      show Walks data inList owed offset (takeHead inList owed scripts.length >>= _) _
      rw [counted]
      exact (walks_array head).bind later fun _ => (times_walks walks rest).2
  | indefinite =>
      obtain ⟨others, last, rest, returned⟩ := of_followedBy_ok ran
      cases returned
      have head : (readHead data).runAt offset = (.ok .indefinite, middle) :=
        readHead_of_readContainerHeader (.inl rfl) header
      have later := (untilBreak_ordinary (walks.1 _) data.length).le rest
      intro base stands
      have opened := @takeHead_walks data offset middle (last + 1) inList owed _ head (by omega) base stands
      show match takeHead inList owed 0 >>= fun owed => scriptsOwedAfter true 0 scripts >>= fun left =>
        if left = 0 then some owed else none with
        | some left => _ = _
        | none => _
      cases taken : takeHead inList owed 0 with
      | none =>
          rw [taken] at opened
          exact opened
      | some owed =>
          rw [taken] at opened
          dsimp only at opened
          obtain ⟨broken, inside⟩ :=
            @untilBreak_walks data middle last true 0 read scripts walks _ rest
          have through := inside (none :: some owed :: base) ⟨_, rfl⟩
          rw [skipRest_zero] at through
          rw [opened]
          cases between : scriptsOwedAfter true 0 scripts with
          | none =>
              rw [between] at through
              exact .inl (through.resolve_right fun stopped => Bool.noConfusion stopped.1)
          | some left =>
              rw [between] at through
              dsimp only [Option.bind_eq_bind, Option.bind_some] at through ⊢
              have closes := @skipRest_closes data last left (some owed :: base) broken
              rw [← through] at closes
              split_ifs at closes with nothing
              · rw [if_pos nothing]
                exact closes
              · rw [if_neg nothing]
                exact .inl closes

end

theorem readScriptWithin_walks (left : Nat) : WalksScripts data (readScriptWithin data left) := by
  refine ⟨fun _ => readScriptWithin_ordinary left, ?_⟩
  induction left with
  | zero =>
      intro inList owed offset script after ran
      cases ran
  | succ left ih =>
      intro inList owed offset script after ran
      rw [readScriptWithin_succ] at ran
      obtain ⟨⟨declared, head⟩, middle, started, ran⟩ := of_followedBy_ok ran
      have before := @readScriptStart_walks data offset middle inList owed _ started
      cases head with
      | leaf leaf =>
          cases ran
          exact before
      | list composite =>
          obtain ⟨⟨indefinite, scripts⟩, last, listed, returned⟩ := of_followedBy_ok ran
          cases returned
          have each : WalksScripts data (readScriptWithin data left) :=
            ⟨fun _ => readScriptWithin_ordinary left, ih⟩
          have later := (readScriptList_ordinary (readScriptWithin_ordinary left)).le listed
          have whole := before.bind later fun left =>
            @readScriptList_walks data middle after inList left _ scripts each indefinite listed
          rw [owedAfter]
          simp only [tagOwed, listOwed, bind_assoc] at whole
          exact whole

theorem skipItem_eq_iff : skipItem data offset = (.ok (offset, after), after) ↔
    skipRest data [some 1] offset = (.ok (), after) := by
  rw [skipRest_one]
  unfold skipItem itemRange
  rcases skipLoop data [] offset with ⟨failure | done, final⟩
  · simp [Except.map]
  · simp [Except.map]

/-- A script is skipped as a whole exactly when nothing is owed behind it. -/
theorem skipItem_script_iff {script : ScriptSyntax}
    (ran : (readScript data).runAt offset = (.ok script, after)) :
    skipItem data offset = (.ok (offset, after), after) ↔ owedAfter false 1 script = some 0 := by
  have walks := (readScriptWithin_walks (data.length - offset)).2 false 1 offset script after ran [] rfl
  rw [skipItem_eq_iff]
  cases owes : owedAfter false 1 script with
  | none =>
      rw [owes] at walks
      refine iff_of_false (fun skipped => ?_) nofun
      rcases walks with ⟨failure, final, failed⟩ | ⟨-, final, stopped, early⟩
      · rw [skipped] at failed
        cases failed
      · rw [skipped] at stopped
        cases stopped
        exact Nat.lt_irrefl _ early
  | some left =>
      rw [owes] at walks
      rw [walks]
      cases left with
      | zero => exact iff_of_true rfl rfl
      | succ left =>
          refine iff_of_false (fun skipped => ?_) nofun
          exact Nat.lt_irrefl _ (skipLoop_forward skipped).2

theorem skipItem_iff_balanced {script : NativeScript}
    (decoded : decodeNativeScript data offset = (.ok script, after)) :
    skipItem data offset = (.ok (offset, after), after) ↔ balanced data offset := by
  rw [decodeNativeScript_eq] at decoded
  obtain ⟨written, middle, ran, returned⟩ := of_followedBy_ok decoded
  cases returned
  rw [skipItem_script_iff ran]
  simp [balanced, ran]

/-! ## Scripts that declare their own lengths -/

def Composite.fields : Composite → UInt64
  | .mOfN _ => 3
  | .all | .any => 2

mutual

/-- Every array of the script is declared with the fields that it has. -/
def declaresFields : ScriptSyntax → Bool
  | .leaf declared _ => declared = 2
  | .list declared composite _ scripts => declared = Composite.fields composite && allDeclareFields scripts

def allDeclareFields : List ScriptSyntax → Bool
  | [] => true
  | script :: scripts => declaresFields script && allDeclareFields scripts

end

theorem takeHead_fields (composite : Composite) : (do
    let left ← takeHead inList owed (Composite.fields composite).toNat
    tagOwed inList left (.list composite)) = (takeHead inList owed 0).map (· + 1) := by
  cases owed with
  | zero => cases inList <;> cases composite <;> rfl
  | succ owed => cases composite <;> rfl

mutual

/-- Such a script is one item of those that are owed. -/
theorem owedAfter_of_declaresFields (script : ScriptSyntax) (declares : declaresFields script)
    (inList : Bool) (owed : Nat) : owedAfter inList owed script = takeHead inList owed 0 := by
  match script with
  | .leaf declared leaf =>
      have two : declared = 2 := of_decide_eq_true declares
      rw [owedAfter, two]
      cases owed with
      | zero => cases inList <;> rfl
      | succ owed => rfl
  | .list declared composite indefinite scripts =>
      rw [declaresFields, Bool.and_eq_true, decide_eq_true_eq] at declares
      have fields := @takeHead_fields inList owed composite
      rw [owedAfter, declares.1]
      simp only [tagOwed] at fields ⊢
      rw [← bind_assoc, ← bind_assoc, bind_assoc (takeHead _ _ _), fields]
      cases takeHead inList owed 0 with
      | none => rfl
      | some left =>
          have listed := scriptsOwedAfter_of_declareFields scripts declares.2
          show (if indefinite then scriptsOwedAfter true 0 scripts >>= fun rest =>
            if rest = 0 then some left else none
            else scriptsOwedAfter inList (left + scripts.length) scripts) = some left
          cases indefinite with
          | true => rw [if_pos rfl, listed.2]; rfl
          | false => exact listed.1 inList left

theorem scriptsOwedAfter_of_declareFields (scripts : List ScriptSyntax)
    (declare : allDeclareFields scripts) :
    (∀ inList owed, scriptsOwedAfter inList (owed + scripts.length) scripts = some owed) ∧
      scriptsOwedAfter true 0 scripts = some 0 := by
  match scripts with
  | [] => exact ⟨fun _ _ => rfl, rfl⟩
  | script :: scripts =>
      rw [allDeclareFields, Bool.and_eq_true] at declare
      have first := owedAfter_of_declaresFields script declare.1
      have rest := scriptsOwedAfter_of_declareFields scripts declare.2
      constructor
      · intro inList owed
        rw [scriptsOwedAfter, first]
        exact rest.1 inList owed
      · rw [scriptsOwedAfter, first]
        exact rest.2

end

/-- What is written as the grammar has it is one item. -/
theorem balanced_of_declaresFields {script : ScriptSyntax}
    (ran : (readScript data).runAt offset = (.ok script, after)) (declares : declaresFields script) :
    balanced data offset := by
  unfold balanced
  rw [ran]
  exact decide_eq_true (owedAfter_of_declaresFields script declares false 1)

/-! ## Arrays of scripts -/

/-- Each range starts where the one before it ends. -/
def Consecutive : Nat → List (Nat × Nat) → Nat → Prop
  | start, [], stop => start = stop
  | start, range :: ranges, stop => range.1 = start ∧ Consecutive range.2 ranges stop

/-- The scripts are decoded at their ranges, one after the other. -/
def DecodedBetween (data : Bytes) (start : Nat) (scripts : List (NativeScript × Nat × Nat)) (stop : Nat) :
    Prop :=
  Consecutive start (scripts.map Prod.snd) stop ∧
    ∀ script ∈ scripts, decodeNativeScript data script.2.1 = (.ok script.1, script.2.2)

section
variable {scripts : List (NativeScript × Nat × Nat)}

theorem DecodedBetween.cons {script : NativeScript × Nat × Nat}
    (ran : (readOne data).runAt offset = (.ok script, middle))
    (rest : DecodedBetween data middle scripts after) :
    DecodedBetween data offset (script :: scripts) after := by
  unfold readOne at ran
  rw [Cursor.runAt_bind_ok (Cursor.runAt_get offset)] at ran
  obtain ⟨decoded, last, decodedRan, ran⟩ := Cursor.of_runAt_bind_ok ran
  rw [Cursor.runAt_bind_ok (Cursor.runAt_get last)] at ran
  cases ran
  rw [Cursor.runAt_ofRun] at decodedRan
  refine ⟨⟨rfl, rest.1⟩, fun other member => ?_⟩
  cases member with
  | head => exact decodedRan
  | tail _ member => exact rest.2 other member

theorem decodedBetween_times {count : Nat}
    (ran : (Cursor.times (readOne data) count).runAt offset = (.ok scripts, after)) :
    scripts.length = count ∧ DecodedBetween data offset scripts after := by
  induction count generalizing offset scripts with
  | zero =>
      cases ran
      exact ⟨rfl, rfl, by simp⟩
  | succ count ih =>
      rw [Cursor.times] at ran
      obtain ⟨script, middle, first, ran⟩ := Cursor.of_runAt_bind_ok ran
      obtain ⟨others, last, rest, returned⟩ := Cursor.of_runAt_bind_ok ran
      cases returned
      exact ⟨congrArg (· + 1) (ih rest).1, .cons first (ih rest).2⟩

theorem decodedBetween_untilBreak {left : Nat}
    (ran : (untilBreak data (readOne data) left).runAt offset = (.ok scripts, after)) :
    DecodedBetween data offset scripts after ∧ peekByte data after = .ok breakByte := by
  induction left generalizing offset scripts with
  | zero => cases ran
  | succ left ih =>
      rw [untilBreak_succ] at ran
      cases peeked : peekByte data offset with
      | error failure =>
          rw [peeked] at ran
          cases ran
      | ok byte =>
          rw [peeked] at ran
          dsimp only at ran
          split_ifs at ran with broken
          · cases ran
            rw [broken] at peeked
            exact ⟨⟨rfl, by simp⟩, peeked⟩
          · obtain ⟨script, middle, first, ran⟩ := of_followedBy_ok ran
            obtain ⟨others, last, rest, returned⟩ := of_followedBy_ok ran
            cases returned
            exact ⟨.cons first (ih rest).1, (ih rest).2⟩

/-- The ranges fill what stands between the header and the end, or the break byte, of the array. -/
def FillArray (data : Bytes) (offset : Nat) (ranges : List (Nat × Nat)) (after : Nat) : Prop :=
  ∃ encoding first, (readArrayHeader data).runAt offset = (.ok encoding, first) ∧
    match encoding with
    | .definite count _ => ranges.length = count.toNat ∧ Consecutive first ranges after
    | .indefinite => ∃ last, Consecutive first ranges last ∧ peekByte data last = .ok breakByte ∧
        after = last + 1

theorem decoded_fillArray
    (ran : (decodeNativeScriptsPreserved data).runAt offset = (.ok scripts, after)) :
    FillArray data offset (scripts.map Prod.snd) after ∧
      ∀ script ∈ scripts, decodeNativeScript data script.2.1 = (.ok script.1, script.2.2) := by
  unfold decodeNativeScriptsPreserved decodeScriptArray readArray at ran
  obtain ⟨encoding, first, header, ran⟩ := Cursor.of_runAt_bind_ok ran
  cases encoding with
  | definite count width =>
      obtain ⟨counted, consecutive, decoded⟩ := decodedBetween_times ran
      rw [← List.length_map Prod.snd] at counted
      exact ⟨⟨_, first, header, counted, consecutive⟩, decoded⟩
  | indefinite =>
      obtain ⟨others, last, rest, ran⟩ := Cursor.of_runAt_bind_ok ran
      rw [Cursor.runAt_bind_ok (Cursor.runAt_modify _ _)] at ran
      cases ran
      obtain ⟨⟨consecutive, decoded⟩, broken⟩ := decodedBetween_untilBreak rest
      exact ⟨⟨_, first, header, last, consecutive, broken, rfl⟩, decoded⟩

end

/-! ## The statement -/

/-- The skipper and the decoder end together exactly on balanced scripts. The ranges of an array fill
it in any case, and are items exactly if all its scripts are balanced. -/
theorem native_script_is_item_iff_balanced (data : Bytes) (offset : Nat) :
    (∀ script after, decodeNativeScript data offset = (.ok script, after) →
      (skipItem data offset = (.ok (offset, after), after) ↔ balanced data offset)) ∧
    ∀ scripts after, (decodeNativeScriptsPreserved data).runAt offset = (.ok scripts, after) →
      FillArray data offset (scripts.map Prod.snd) after ∧
        ((∀ script ∈ scripts, skipItem data script.2.1 = (.ok script.2, script.2.2)) ↔
          ∀ script ∈ scripts, balanced data script.2.1) := by
  refine ⟨fun script after decoded => skipItem_iff_balanced decoded, fun scripts after ran => ?_⟩
  obtain ⟨fill, decoded⟩ := decoded_fillArray ran
  refine ⟨fill, fun items script member => ?_, fun each script member => ?_⟩
  · exact (skipItem_iff_balanced (decoded script member)).mp (items script member)
  · exact (skipItem_iff_balanced (decoded script member)).mpr (each script member)

/-- A key hash script, with its array declared as long as given. -/
def sigBytes (declared : UInt8) : Bytes :=
  [0x80 + declared, 0x00, 0x58, 0x1c] ++ List.replicate 28 0

def sigScript : NativeScript := ScriptSyntax.script (.leaf 2 (.sig (Vector.replicate 28 0)))

theorem native_script_is_item_when_declared :
    decodeNativeScript (sigBytes 2) 0 = (.ok sigScript, 32) ∧
      (skipItem (sigBytes 2) 0 = (.ok (0, 32), 32) ↔ balanced (sigBytes 2) 0) :=
  have decoded : decodeNativeScript (sigBytes 2) 0 = (.ok sigScript, 32) := by
    rw [decodeNativeScript_eq]
    rfl
  ⟨decoded, (native_script_is_item_iff_balanced (sigBytes 2) 0).1 sigScript 32 decoded⟩

/-- Declared with one field too many, a script ends before the item does, which goes on with the byte
behind it. -/
theorem script_ends_inside_item :
    decodeNativeScript (sigBytes 3 ++ [0]) 0 = (.ok sigScript, 32) ∧
      skipItem (sigBytes 3 ++ [0]) 0 = (.ok (0, 33), 33) := by
  constructor
  · rw [decodeNativeScript_eq]
    rfl
  · decide +kernel

end

end Ade.Proof.Codec
