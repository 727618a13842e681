import Ade.Proof.Codec.Items

/-! Where the items that a reader takes begin and end, in data that stays as it is. -/

namespace Ade.Proof.Codec
open Library Library.Cursor Ade.Codec

variable {data : Bytes} {start middle after : Nat}

/-- There are `count` items between the two offsets. -/
def Spans (data : Bytes) (count start after : Nat) : Prop :=
  skipRest data [some count] start = (.ok (), after)

theorem spans_zero : Spans data 0 start after ↔ start = after := by
  unfold Spans
  rw [skipRest_zero, skipRest_nil, Prod.mk.injEq, eq_self, true_and]

theorem skipRest_split (data : Bytes) (first second start : Nat) :
    skipRest data [some (first + second)] start =
      andThen (skipRest data [some first] start) (skipRest data [some second]) := by
  rw [← skipRest_merge]
  exact skipRest_append [some first] [some second] start

theorem spans_add {first second : Nat} (items : Spans data first start middle) :
    Spans data (first + second) start after ↔ Spans data second middle after := by
  unfold Spans at items ⊢
  rw [skipRest_split, items]
  rfl

theorem Spans.append {first second : Nat} (items : Spans data first start middle)
    (rest : Spans data second middle after) : Spans data (first + second) start after :=
  (spans_add items).mpr rest

theorem Spans.cons {count : Nat} (item : Spans data 1 start middle)
    (rest : Spans data count middle after) : Spans data (count + 1) start after := by
  rw [Nat.add_comm]
  exact item.append rest

theorem Spans.tail {count : Nat} (item : Spans data 1 start middle)
    (items : Spans data (count + 1) start after) : Spans data count middle after := by
  rw [Nat.add_comm] at items
  exact (spans_add item).mp items

theorem spans_of_skip {range : Nat × Nat} (skipped : (skip data).runAt start = (.ok range, after)) :
    Spans data 1 start after := by
  unfold skip skipItem itemRange at skipped
  rw [runAt_ofRun, ← skipRest_one] at skipped
  unfold Spans
  rcases ran : skipRest data [some 1] start with ⟨failure | done, final⟩
  · rw [ran] at skipped
    cases skipped
  · rw [ran] at skipped
    cases skipped
    rfl

theorem Spans.skip (item : Spans data 1 start after) :
    (Ade.Codec.skip data).runAt start = (.ok (start, after), after) := by
  unfold Ade.Codec.skip skipItem itemRange
  rw [runAt_ofRun, ← skipRest_one, item]
  rfl

/-- The first of several items. -/
theorem Spans.head {count : Nat} (items : Spans data (count + 1) start after) :
    ∃ middle, Spans data 1 start middle ∧ Spans data count middle after := by
  unfold Spans at items
  rw [Nat.add_comm, skipRest_split] at items
  rcases first : skipRest data [some 1] start with ⟨failure | done, middle⟩
  · rw [first] at items
    cases items
  · rw [first] at items
    exact ⟨middle, first, items⟩

/-- An item is its head and what the head owes. -/
theorem spans_head {head : ItemHead} (seen : (readHead data).runAt start = (.ok head, middle)) :
    Spans data 1 start after ↔ skipRest data (owedBy head) middle = (.ok (), after) := by
  unfold Spans
  rw [skipRest_one, skipLoop_eq, seen]
  dsimp only
  rw [List.append_nil]

theorem spans_leaf (seen : (readHead data).runAt start = (.ok .leaf, after)) :
    Spans data 1 start after := by
  rw [spans_head seen]
  rfl

theorem spans_bytes {value : Bytes × IntWidth}
    (ran : (readBytes data).runAt start = (.ok value, after)) : Spans data 1 start after :=
  spans_leaf (readHead_of_readBytes ran)

theorem spans_uint {value : UInt64 × IntWidth}
    (ran : (readUint data).runAt start = (.ok value, after)) : Spans data 1 start after :=
  spans_leaf ((readHead_of_readArgument ran).1 rfl)

theorem spans_tag {value : UInt64 × IntWidth}
    (ran : (readTag data).runAt start = (.ok value, middle)) :
    Spans data 1 start after ↔ Spans data 1 middle after :=
  spans_head ((readHead_of_readArgument ran).2 rfl)

theorem spans_array {count : UInt64} {width : IntWidth}
    (ran : (readArrayHeader data).runAt start = (.ok (.definite count width), middle)) :
    Spans data 1 start after ↔ Spans data count.toNat middle after :=
  spans_head (readHead_of_readContainerHeader (.inl rfl) ran)

/-- An item before the break byte that is still owed. -/
theorem skipRest_open_cons {byte : UInt8} (peeked : peekByte data start = .ok byte)
    (goes : byte ≠ breakByte) (item : Spans data 1 start middle) :
    skipRest data [none] start = skipRest data [none] middle := by
  have split := @skipRest_append data [some 1] [none] start
  rw [show skipRest data [some 1] start = (.ok (), middle) from item] at split
  rw [skipRest_open peeked goes]
  refine Eq.trans ?_ split
  rw [List.singleton_append, skipRest_succ, skipLoop_eq, skipLoop_eq]
  rcases (readHead data).runAt start with ⟨failure | head, after⟩
  · rfl
  · dsimp only
    rw [skipRest_append, skipRest_append]
    rfl

theorem isBreak_ok {broken : Bool} (ran : (isBreak data).runAt start = (.ok broken, middle)) :
    middle = start ∧ ∃ byte, peekByte data start = .ok byte ∧ (broken = true ↔ byte = breakByte) := by
  unfold isBreak at ran
  rw [runAt_bind_ok (runAt_get _)] at ran
  cases peeked : peekByte data start with
  | error failure =>
      rw [peeked] at ran
      cases ran
  | ok byte =>
      rw [peeked] at ran
      cases ran
      exact ⟨rfl, byte, rfl, decide_eq_true_iff⟩

theorem peekMajor_ok {major : Nat} (ran : (peekMajor data).runAt start = (.ok major, middle)) :
    middle = start ∧ start < data.length := by
  unfold peekMajor at ran
  rw [runAt_bind_ok (runAt_get _)] at ran
  cases found : data[start]? with
  | none =>
      rw [peekByte, found] at ran
      cases ran
  | some byte =>
      rw [peekByte, found] at ran
      cases ran
      exact ⟨rfl, (List.getElem?_eq_some_iff.mp found).1⟩

section
variable {α : Type} {element : Read α}
  (item : ∀ {start after : Nat} {value : α}, element.runAt start = (.ok value, after) →
    Spans data 1 start after)
include item

theorem spans_times {count : Nat} {values : List α}
    (ran : (times element count).runAt start = (.ok values, after)) : Spans data count start after := by
  induction count generalizing start values with
  | zero =>
      cases ran
      exact spans_zero.mpr rfl
  | succ count ih =>
      obtain ⟨first, middle, head, ran⟩ := of_runAt_bind_ok ran
      obtain ⟨rest, final, tail, ran⟩ := of_runAt_bind_ok ran
      cases ran
      exact (item head).cons (ih tail)

theorem skipRest_untilBreak {left : Nat} {values : List α}
    (ran : (untilBreak data element left).runAt start = (.ok values, after)) :
    skipRest data [none] start = (.ok (), after + 1) := by
  induction left generalizing start values with
  | zero => cases ran
  | succ left ih =>
      obtain ⟨broken, middle, looked, ran⟩ := of_runAt_bind_ok ran
      obtain ⟨rfl, byte, peeked, known⟩ := isBreak_ok looked
      cases broken with
      | true =>
          cases ran
          rw [known.mp rfl] at peeked
          exact skipRest_break peeked
      | false =>
          obtain ⟨first, next, head, ran⟩ := of_runAt_bind_ok ran
          obtain ⟨rest, final, tail, ran⟩ := of_runAt_bind_ok ran
          cases ran
          rw [skipRest_open_cons peeked (fun broke => nomatch known.mpr broke) (item head)]
          exact ih tail

theorem spans_readArray {values : List α}
    (ran : (readArray data element).runAt start = (.ok values, after)) : Spans data 1 start after := by
  obtain ⟨encoding, inside, opened, ran⟩ := of_runAt_bind_ok ran
  cases encoding with
  | definite count width => exact (spans_array opened).mpr (spans_times item ran)
  | indefinite =>
      obtain ⟨elements, broke, taken, ran⟩ := of_runAt_bind_ok ran
      rw [runAt_bind_ok (runAt_modify _ _)] at ran
      cases ran
      exact (spans_head (readHead_of_readContainerHeader (.inl rfl) opened)).mpr
        (skipRest_untilBreak item taken)

end

/-! ## First bytes -/

/-- The byte at the offset announces the major type. -/
def HasMajor (data : Bytes) (major offset : Nat) : Prop :=
  ∃ byte, data[offset]? = some byte ∧ byte.toNat / 32 = major

theorem HasMajor.unique {major other offset : Nat} (first : HasMajor data major offset)
    (second : HasMajor data other offset) : major = other := by
  obtain ⟨byte, found, rfl⟩ := first
  obtain ⟨byte', found', rfl⟩ := second
  cases found.symm.trans found'
  rfl

theorem HasMajor.not_break {major offset : Nat} (first : HasMajor data major offset)
    (structured : major ≠ majorSimple) : (peekByte data offset) ≠ .ok breakByte := by
  obtain ⟨byte, found, rfl⟩ := first
  intro broken
  simp only [peekByte, found, Except.ok.injEq] at broken
  exact structured (by rw [broken]; rfl)

theorem hasMajor_of_starts {α : Type} {read : Bytes → Read α} {tail : Nat → Nat → Nat → Bytes → Read α}
    {major offset : Nat} {value : α} (starts : StartsWithByte read tail)
    (ran : (read data).runAt offset = (.ok value, after))
    (refused : ∀ actual ai, actual ≠ major → ∃ failure, tail offset actual ai data = throw failure) :
    HasMajor data major offset := by
  rw [starts] at ran
  cases found : data[offset]? with
  | none =>
      rw [found] at ran
      cases ran
  | some byte =>
      refine ⟨byte, found, ?_⟩
      rw [found] at ran
      by_contra other
      obtain ⟨failure, thrown⟩ := refused _ (byte.toNat % 32) other
      dsimp only at ran
      rw [thrown] at ran
      cases ran

theorem hasMajor_readBytes {offset : Nat} {value : Bytes × IntWidth}
    (ran : (readBytes data).runAt offset = (.ok value, after)) : HasMajor data majorBytes offset :=
  hasMajor_of_starts readBytes_starts ran fun _ _ other => ⟨_, if_neg other⟩

theorem hasMajor_readArgument {major offset : Nat} {expected : String} {value : UInt64 × IntWidth}
    (ran : (readArgument major expected data).runAt offset = (.ok value, after)) :
    HasMajor data major offset :=
  hasMajor_of_starts (readArgument_starts major expected) ran fun _ _ other => ⟨_, if_neg other⟩

theorem hasMajor_readArrayHeader {offset : Nat} {encoding : ContainerEncoding}
    (ran : (readArrayHeader data).runAt offset = (.ok encoding, after)) :
    HasMajor data majorArray offset :=
  hasMajor_of_starts (readContainerHeader_starts majorArray "array") ran
    fun _ _ other => ⟨_, if_neg other⟩

end Ade.Proof.Codec
