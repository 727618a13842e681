import Ade.Proof.Codec.Items

/-! A walk over bytes that are still to be continued runs out of them, or ends as it ends later. -/

namespace Ade.Proof.Codec
open Library Cursor Ade.Codec

def RanOut (failure : CodecError) : Prop := ∃ offset needed, failure = .unexpectedEof offset needed

theorem readByte_extensible : Extensible RanOut readByte := by
  intro data more offset
  rcases Nat.lt_or_ge offset data.length with inside | ended
  · refine .inr ?_
    simp [readByte, runAt_bind, peekByte, List.getElem?_append_left inside]
  · refine .inl ⟨_, offset, ?_, offset, 1, rfl⟩
    simp [readByte, runAt_bind, peekByte, List.getElem?_eq_none ended]

/-- What the bounds check has let through is there whatever follows. -/
theorem extensible_of_runAt {α : Type} {read : Bytes → Read α} (len : Nat) (value : Bytes → α)
    (ran : ∀ data offset, (read data).runAt offset =
      if offset + len > data.length then (.error (.unexpectedEof offset len), offset)
      else (.ok (value ((data.drop offset).take len)), offset + len)) : Extensible RanOut read := by
  intro data more offset
  simp only [ran]
  by_cases short : offset + len > data.length
  · rw [if_pos short]
    exact .inl ⟨_, _, rfl, _, _, rfl⟩
  · have enough : ¬ offset + len > (data ++ more).length := by
      rw [List.length_append]
      omega
    rw [if_neg short, if_neg enough, List.drop_append_of_le_length (by omega),
      List.take_append_of_le_length (by rw [List.length_drop]; omega)]
    exact .inr rfl

theorem readPayload_extensible (len : Nat) : Extensible RanOut fun data => readPayload data len :=
  extensible_of_runAt len id fun data offset => readPayload_runAt data len offset

theorem readFixed_extensible (width : Nat) : Extensible RanOut fun data => readFixed data width :=
  extensible_of_runAt width (fun bytes => UInt64.ofNat (fromBeBytes bytes)) fun data offset =>
    readFixed_runAt data width offset

theorem decodeArgument_extensible (ai start : Nat) :
    Extensible RanOut fun data => decodeArgument data ai start := by
  unfold decodeArgument
  refine .ite (.const _) (.ite (readByte_extensible.bind fun _ => .const _) ?_)
  refine .ite ((readFixed_extensible 2).bind fun _ => .const _) ?_
  refine .ite ((readFixed_extensible 4).bind fun _ => .const _) ?_
  exact .ite ((readFixed_extensible 8).bind fun _ => .const _) (.const _)

theorem readHeadTail_extensible (start major ai : Nat) :
    Extensible RanOut fun data => readHeadTail data start major ai := by
  have argument := decodeArgument_extensible ai start
  have payload : ∀ len, Extensible RanOut fun data =>
      (readPayload data len >>= fun _ => pure ItemHead.leaf : Read ItemHead) :=
    fun len => (readPayload_extensible len).bind fun _ => .const _
  unfold readHeadTail
  refine .ite (.ite (.const _) (argument.bind fun _ => .const _)) ?_
  refine .ite (.ite (.const _) (argument.bind fun _ => payload _)) ?_
  refine .ite (.ite (.const _) (argument.bind fun _ => .const _)) ?_
  refine .ite (.ite (.const _) (argument.bind fun _ => .const _)) ?_
  refine .ite (argument.bind fun _ => .const _) (.ite (.const _) ?_)
  refine .ite (readByte_extensible.bind fun _ => .const _) (.ite (payload 2) ?_)
  exact .ite (payload 4) (.ite (payload 8) (.ite (.const _) (.const _)))

theorem readHead_extensible : Extensible RanOut readHead := by
  unfold readHead decodeInitial
  refine .get_bind fun start => ?_
  refine (readByte_extensible.bind fun _ => .const _).bind fun initial => ?_
  exact readHeadTail_extensible start initial.1 initial.2

/-- The same for what the walkers return. -/
def Continues {α : Type} (walk : Bytes → Nat → Outcome α) : Prop :=
  ∀ data more offset,
    (∃ failure after, walk data offset = (.error failure, after) ∧ RanOut failure) ∨
      walk (data ++ more) offset = walk data offset

theorem peekByte_append_or_end (data more : Bytes) (offset : Nat) :
    peekByte data offset = .error (.unexpectedEof offset 1) ∨
      ∃ byte, peekByte data offset = .ok byte ∧ peekByte (data ++ more) offset = .ok byte := by
  rcases Nat.lt_or_ge offset data.length with inside | ended
  · exact .inr ⟨data[offset], by simp [peekByte, inside],
      by simp [peekByte, List.getElem?_append_left inside, inside]⟩
  · exact .inl (by simp [peekByte, List.getElem?_eq_none ended])

theorem settle_continues (owed : List (Option Nat)) : Continues fun data => settle data owed := by
  intro data more offset
  induction owed generalizing offset with
  | nil => exact .inr rfl
  | cons container owed ih =>
      cases container with
      | some count =>
          cases count with
          | zero => exact ih offset
          | succ count => exact .inr rfl
      | none =>
          simp only [settle]
          rcases peekByte_append_or_end data more offset with ended | ⟨byte, here, later⟩
          · rw [ended]
            exact .inl ⟨_, _, rfl, _, _, rfl⟩
          · rw [here, later]
            by_cases broken : byte = breakByte
            · simp only [if_pos broken]
              exact ih (offset + 1)
            · simp [broken]

theorem skipRest_continues (owed : List (Option Nat)) : Continues fun data => skipRest data owed := by
  intro data more offset
  induction left : data.length - offset using Nat.strong_induction_on generalizing offset owed with
  | _ left ih =>
      subst left
      dsimp only
      unfold skipRest
      rcases settle_continues owed data more offset with ⟨failure, after, ran, out⟩ | same
      · dsimp only at ran
        rw [ran]
        exact .inl ⟨failure, after, rfl, out⟩
      · dsimp only at same
        rw [same]
        rcases settled : settle data owed offset with ⟨failure | _ | next, final⟩
        · exact .inr rfl
        · exact .inr rfl
        · have forward := @settle_forward data owed offset
          rw [settled] at forward
          have passed : offset ≤ final := forward
          dsimp only
          rw [skipLoop_eq, skipLoop_eq]
          rcases readHead_extensible data more final with ⟨failure, after, ran, out⟩ | sameHead
          · rw [ran]
            exact .inl ⟨failure, after, rfl, out⟩
          · rw [sameHead]
            rcases ran : (readHead data).runAt final with ⟨failure | head, after⟩
            · exact .inr rfl
            · obtain ⟨available, taken⟩ := readHead_ok ran
              exact ih _ (by omega) _ _ rfl

theorem skipItem_continues : Continues skipItem := by
  intro data more offset
  simp only [skipItem, ← skipRest_one]
  rcases skipRest_continues [some 1] data more offset with ⟨failure, after, ran, out⟩ | same
  · dsimp only at ran
    rw [ran]
    exact .inl ⟨failure, after, rfl, out⟩
  · dsimp only at same
    rw [same]
    exact .inr rfl

/-! ## Whole items -/

theorem skipItem_of_isItem {written : Bytes} (item : IsItem written) (rest : Bytes) :
    skipItem (written ++ rest) 0 = (.ok (0, written.length), written.length) := by
  have skipped := skip_item item [] rest
  rw [List.nil_append, List.length_nil, Nat.zero_add] at skipped
  exact skipped

theorem isItem_of_skipItem {payload : Bytes} {range : Nat × Nat}
    (skipped : skipItem payload 0 = (.ok range, payload.length)) : IsItem payload := by
  obtain ⟨written, remaining, rfl, moved, -, item⟩ := @skip_ok [] _ _ _ skipped
  rw [List.length_nil, Nat.zero_add, List.length_append] at moved
  have nothing : remaining = [] := List.eq_nil_of_length_eq_zero (by omega)
  rwa [nothing, List.append_nil]

/-- A part of an item that lacks its end is no malformed item: it runs out. -/
theorem skipItem_prefix {written missing : Bytes} (item : IsItem (written ++ missing))
    (cut : missing ≠ []) : ∃ failure after, skipItem written 0 = (.error failure, after) ∧ RanOut failure := by
  rcases skipItem_continues written missing 0 with ran | same
  · exact ran
  · have whole := skipItem_of_isItem item []
    rw [List.append_nil, same] at whole
    obtain ⟨read, remaining, split, moved, -, -⟩ := @skip_ok [] _ _ _ whole
    have short := List.length_pos_of_ne_nil cut
    have lengths := congrArg List.length split
    rw [List.length_append] at moved lengths
    rw [List.length_nil, Nat.zero_add] at moved
    omega

/-! ## Framing -/

theorem skipItem_segment {data : Bytes} {start after : Nat} {range : Nat × Nat}
    (skipped : skipItem data start = (.ok range, after)) :
    ∃ before written remaining, data = before ++ written ++ remaining ∧ before.length = start ∧
      after = start + written.length ∧ range = (start, after) ∧ IsItem written := by
  have inside := (skipItem_forward skipped).1
  have length : (data.take start).length = start := List.length_take_of_le (Nat.le_of_lt inside)
  have ran : (skip (data.take start ++ data.drop start)).runAt (data.take start).length =
      (.ok range, after) := by
    rw [List.take_append_drop, length]
    exact skipped
  obtain ⟨written, remaining, split, moved, same, item⟩ := skip_ok ran
  rw [length] at moved same
  refine ⟨data.take start, written, remaining, ?_, length, moved, same, item⟩
  rw [List.append_assoc, ← split, List.take_append_drop]

/-- A segment that stands in the data from an offset on. -/
theorem split_of_agrees {other segment : Bytes} {position : Nat}
    (agrees : ∀ i < segment.length, other[position + i]? = segment[i]?) :
    other = other.take position ++ segment ++ other.drop (position + segment.length) := by
  have here : (other.drop position).take segment.length = segment := by
    apply List.ext_getElem?
    intro i
    rw [List.getElem?_take]
    split_ifs with inside
    · rw [List.getElem?_drop, agrees i inside]
    · exact (List.getElem?_eq_none (Nat.le_of_not_lt inside)).symm
  have rest : other.drop position = segment ++ other.drop (position + segment.length) := by
    have whole := List.take_append_drop segment.length (other.drop position)
    rw [here, List.drop_drop] at whole
    exact whole.symm
  rw [List.append_assoc, ← rest, List.take_append_drop]

/-- An item is delimited by its own bytes: it is skipped the same wherever they stand, and no part of
it that lacks its end is skipped. -/
theorem skipItem_self_delimiting (data : Bytes) (start after : Nat) (range : Nat × Nat)
    (skipped : skipItem data start = (.ok range, after)) :
    range = (start, after) ∧ start < after ∧ after ≤ data.length ∧
    (∀ other : Bytes, (∀ i, start ≤ i → i < after → other[i]? = data[i]?) →
      skipItem other start = (.ok (start, after), after)) ∧
    (∀ (other : Bytes) (position : Nat),
      (∀ i, i < after - start → other[position + i]? = data[start + i]?) →
        skipItem other position =
          (.ok (position, position + (after - start)), position + (after - start))) ∧
    ∀ length, start ≤ length → length < after → ∃ offset needed final,
      skipItem (data.take length) start = (.error (.unexpectedEof offset needed), final) := by
  obtain ⟨before, written, remaining, rfl, rfl, rfl, rfl, item⟩ := skipItem_segment skipped
  have positive := List.length_pos_of_ne_nil item.ne_nil
  have held : ∀ i < written.length,
      (before ++ written ++ remaining)[before.length + i]? = written[i]? := by
    intro i inside
    rw [List.append_assoc, List.getElem?_append_right (Nat.le_add_right ..), Nat.add_sub_cancel_left,
      List.getElem?_append_left inside]
  have moved : ∀ (other : Bytes) (position : Nat),
      (∀ i < written.length, other[position + i]? =
        (before ++ written ++ remaining)[before.length + i]?) →
      skipItem other position =
        (.ok (position, position + written.length), position + written.length) := by
    intro other position agrees
    have reached : position < other.length := by
      have first := agrees 0 positive
      rw [held 0 positive, List.getElem?_eq_getElem positive] at first
      exact (List.getElem?_eq_some_iff.mp first).1
    have split := split_of_agrees fun i inside => (agrees i inside).trans (held i inside)
    have ran := skip_item item (other.take position) (other.drop (position + written.length))
    rw [← split, List.length_take_of_le (Nat.le_of_lt reached)] at ran
    exact ran
  refine ⟨rfl, by omega, by simp only [List.length_append]; omega, ?_, ?_, ?_⟩
  · intro other agrees
    apply moved other before.length
    intro i inside
    exact agrees _ (Nat.le_add_right ..) (Nat.add_lt_add_left inside _)
  · intro other position agrees
    rw [Nat.add_sub_cancel_left] at agrees ⊢
    exact moved other position agrees
  · intro length reached cut
    rcases skipItem_continues ((before ++ written ++ remaining).take length)
        ((before ++ written ++ remaining).drop length) before.length with
      ⟨failure, final, ran, offset, needed, rfl⟩ | same
    · exact ⟨offset, needed, final, ran⟩
    · rw [List.take_append_drop, skipped] at same
      obtain ⟨early, taken, rest, split, sized, moved, -, -⟩ := skipItem_segment same.symm
      have lengths := congrArg List.length split
      simp only [List.length_append, List.length_take] at lengths
      omega

/-- An indefinite array of two items, framed by other bytes. -/
theorem skipItem_self_delimiting_array :
    skipItem [0x00, 0x9f, 0x01, 0x41, 0xff, 0xff, 0x17] 1 = (.ok (1, 6), 6) ∧
      skipItem [0x82, 0x9f, 0x01, 0x41, 0xff, 0xff] 1 = (.ok (1, 6), 6) ∧
      ∃ offset needed final, skipItem [0x00, 0x9f, 0x01, 0x41, 0xff] 1 =
        (.error (.unexpectedEof offset needed), final) := by
  have skipped : skipItem [0x00, 0x9f, 0x01, 0x41, 0xff, 0xff, 0x17] 1 = (.ok (1, 6), 6) := by
    decide +kernel
  obtain ⟨-, -, -, agrees, -, cut⟩ := skipItem_self_delimiting _ _ _ _ skipped
  refine ⟨skipped, agrees _ ?_, cut 5 (by decide) (by decide)⟩
  intro i reached inside
  interval_cases i <;> rfl

end Ade.Proof.Codec
