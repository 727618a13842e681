import Ade.Codec.Conway
import Ade.Proof.Codec.Skip
import Ade.Proof.Codec.Cbor

namespace Ade.Proof.Codec
open Library Cursor Ade.Codec

/-! ## Primitive reads -/

theorem readByte_exact : Exact (fun _ => readByte) fun written byte => written = [byte] := by
  intro start before rest byte after ran
  cases rest with
  | nil => simp [readByte, runAt_bind, peekByte] at ran
  | cons first rest =>
      have read := readByte_reads first before rest
      rw [List.append_assoc, List.singleton_append, ran] at read
      cases read
      exact ⟨[byte], rest, rfl, rfl, fun _ => readByte_reads byte, rfl⟩

theorem readPayload_exact (len : Nat) :
    Exact (fun _ data => readPayload data len) fun written bytes =>
      written = bytes ∧ bytes.length = len := by
  intro start before rest bytes after ran
  rw [readPayload_runAt] at ran
  split_ifs at ran with short
  · cases ran
  rw [List.drop_left, Prod.mk.injEq, Except.ok.injEq] at ran
  obtain ⟨rfl, rfl⟩ := ran
  rw [List.length_append] at short
  have sized : (rest.take len).length = len := by
    rw [List.length_take]
    omega
  refine ⟨rest.take len, rest.drop len, (List.take_append_drop len rest).symm, by rw [sized], ?_, ?_⟩
  · intro anywhere
    have read := readPayload_reads (rest.take len)
    rw [sized] at read
    simpa using read
  · simpa using sized

theorem readFixed_exact (width : Nat) :
    Exact (fun _ data => readFixed data width) fun written _ => written.length = width := by
  intro start before rest value after ran
  rw [readFixed_runAt] at ran
  split_ifs at ran with short
  · cases ran
  rw [List.drop_left, Prod.mk.injEq, Except.ok.injEq] at ran
  obtain ⟨rfl, rfl⟩ := ran
  rw [List.length_append] at short
  have sized : (rest.take width).length = width := by
    rw [List.length_take]
    omega
  refine ⟨rest.take width, rest.drop width, (List.take_append_drop width rest).symm, by rw [sized],
    ?_, sized⟩
  intro anywhere
  have read := readFixed_reads (rest.take width)
  rw [sized] at read
  simpa using read

theorem decodeInitial_exact : Exact (fun _ => decodeInitial) fun written initial =>
    ∃ byte, written = [byte] ∧ initial = (byte.toNat / 32, byte.toNat % 32) := by
  refine (Exact.bind readByte_exact fun byte => Exact.pure _).mono ?_
  rintro written initial ⟨head, tail, byte, rfl, rfl, rfl, rfl⟩
  exact ⟨byte, rfl, rfl⟩

theorem decodeArgument_exact (ai : Nat) :
    Exact (fun start data => decodeArgument data ai start) fun _ _ => True := by
  unfold decodeArgument
  refine Exact.ite (fun _ => (Exact.pure _).mono fun _ _ _ => trivial) fun _ => ?_
  refine Exact.ite (fun _ => (Exact.bind readByte_exact fun _ => Exact.pure _).mono
    fun _ _ _ => trivial) fun _ => ?_
  refine Exact.ite (fun _ => ((readFixed_exact 2).bind fun _ => Exact.pure _).mono
    fun _ _ _ => trivial) fun _ => ?_
  refine Exact.ite (fun _ => ((readFixed_exact 4).bind fun _ => Exact.pure _).mono
    fun _ _ _ => trivial) fun _ => ?_
  refine Exact.ite (fun _ => ((readFixed_exact 8).bind fun _ => Exact.pure _).mono
    fun _ _ _ => trivial) fun _ => ?_
  exact Exact.thrown _

/-! ## Heads -/

/-- `read` takes an initial byte, then goes on as `tail` says. -/
def StartsWithByte {α : Type} (read : Bytes → Read α)
    (tail : (start major ai : Nat) → Bytes → Read α) : Prop :=
  ∀ data offset, (read data).runAt offset =
    match data[offset]? with
    | none => (.error (.unexpectedEof offset 1), offset)
    | some byte => (tail offset (byte.toNat / 32) (byte.toNat % 32) data).runAt (offset + 1)

section
variable {α : Type} {read : Bytes → Read α} {tail : (start major ai : Nat) → Bytes → Read α}

theorem StartsWithByte.exact_ (starts : StartsWithByte read tail)
    (rest : ∀ major ai, Exact (fun start data => tail start major ai data) fun _ _ => True) :
    Exact (fun _ => read) fun written _ => written ≠ [] := by
  intro _ before data value after ran
  rw [starts] at ran
  cases data with
  | nil => simp at ran
  | cons byte data =>
      rw [List.getElem?_append_right (Nat.le_refl _), Nat.sub_self, List.getElem?_cons_zero] at ran
      dsimp only at ran
      have reached : before.length + 1 = (before ++ [byte]).length := by
        rw [List.length_append, List.length_singleton]
      rw [List.append_cons, reached] at ran
      obtain ⟨written, remaining, rfl, moved, reads, -⟩ := rest _ _ _ _ _ _ _ ran
      refine ⟨byte :: written, remaining, rfl, ?_, ?_, List.cons_ne_nil _ _⟩
      · rw [moved, ← reached, List.length_cons]
        omega
      · intro _ before' after'
        rw [starts, List.append_assoc, List.getElem?_append_right (Nat.le_refl _), Nat.sub_self,
          List.cons_append, List.getElem?_cons_zero]
        have read := reads before'.length (before' ++ [byte]) after'
        rw [List.length_append, List.append_assoc, List.append_assoc, List.singleton_append] at read
        dsimp only
        rw [List.length_cons]
        rw [show before'.length + [byte].length = before'.length + 1 from rfl] at read
        rw [read]
        congr 1
        omega

end

theorem readArgument_starts (major : Nat) (expected : String) :
    StartsWithByte (readArgument major expected) fun start actual ai data =>
      if actual = major then decodeArgument data ai start
      else throw (.unexpectedCborType start expected actual) := by
  intro data offset
  cases found : data[offset]? with
  | none => simp [readArgument, decodeInitial, readByte, peekByte, runAt_bind, found]
  | some byte =>
      by_cases same : byte.toNat / 32 = major
      · simp [readArgument, decodeInitial, readByte, peekByte, runAt_bind, found, same]
      · simp [readArgument, decodeInitial, readByte, peekByte, runAt_bind, found, same]

theorem readContainerHeader_starts (major : Nat) (expected : String) :
    StartsWithByte (readContainerHeader major expected) fun start actual ai data =>
      if actual = major then
        if ai = 31 then pure .indefinite
        else (fun argument => .definite argument.1 argument.2) <$> decodeArgument data ai start
      else throw (.unexpectedCborType start expected actual) := by
  intro data offset
  cases found : data[offset]? with
  | none => simp [readContainerHeader, decodeInitial, readByte, peekByte, runAt_bind, found]
  | some byte =>
      by_cases same : byte.toNat / 32 = major
      · by_cases open_ : byte.toNat % 32 = 31
        · simp [readContainerHeader, decodeInitial, readByte, peekByte, runAt_bind, found, same,
            open_, Except.map]
        · simp [readContainerHeader, decodeInitial, readByte, peekByte, runAt_bind, found, same,
            open_]
      · simp [readContainerHeader, decodeInitial, readByte, peekByte, runAt_bind, found, same]

theorem readBytes_starts :
    StartsWithByte readBytes fun start actual ai data =>
      if actual = majorBytes then
        if ai = 31 then
          throw (.invalidCborStructure start "indefinite-length byte string not supported")
        else decodeArgument data ai start >>= fun argument =>
          (·, argument.2) <$> readPayload data argument.1.toNat
      else throw (.unexpectedCborType start "byte string" actual) := by
  intro data offset
  cases found : data[offset]? with
  | none => simp [readBytes, decodeInitial, readByte, peekByte, runAt_bind, found]
  | some byte =>
      by_cases same : byte.toNat / 32 = majorBytes
      · by_cases open_ : byte.toNat % 32 = 31
        · simp [readBytes, decodeInitial, readByte, peekByte, runAt_bind, found, same, open_]
        · simp [readBytes, decodeInitial, readByte, peekByte, runAt_bind, found, same, open_]
      · simp [readBytes, decodeInitial, readByte, peekByte, runAt_bind, found, same]

theorem readHead_starts : StartsWithByte readHead fun start major ai data =>
    readHeadTail data start major ai :=
  readHead_runAt

/-! ### The head that the walkers see -/

section
variable {data : Bytes} {offset after : Nat}

theorem decodeArgument_inline {ai : Nat} (inline : ai < 24) (data : Bytes) (start offset : Nat) :
    (decodeArgument data ai start).runAt offset = (.ok (UInt64.ofNat ai, .inline), offset) := by
  unfold decodeArgument
  rw [if_pos (Nat.lt_succ_iff.mp inline)]
  rfl

theorem readHead_of_readArgument {major : Nat} {expected : String} {value : UInt64 × IntWidth}
    (ran : (readArgument major expected data).runAt offset = (.ok value, after)) :
    (major = majorUnsigned → (readHead data).runAt offset = (.ok .leaf, after)) ∧
      (major = majorTag → (readHead data).runAt offset = (.ok .tag, after)) := by
  rw [readArgument_starts] at ran
  rw [readHead_starts]
  cases found : data[offset]? with
  | none =>
      rw [found] at ran
      cases ran
  | some byte =>
      rw [found] at ran
      dsimp only at ran ⊢
      by_cases same : byte.toNat / 32 = major
      · rw [if_pos same] at ran
        rw [same]
        constructor
        · rintro rfl
          unfold readHeadTail
          rw [if_pos (.inl rfl)]
          by_cases inline : byte.toNat % 32 < 24
          · rw [decodeArgument_inline inline] at ran
            cases ran
            rw [if_pos inline]
            rfl
          · rw [if_neg inline, runAt_bind_ok ran]
            rfl
        · rintro rfl
          have tail : readHeadTail data offset majorTag (byte.toNat % 32) =
              decodeArgument data (byte.toNat % 32) offset >>= fun _ => pure .tag := rfl
          rw [tail, runAt_bind_ok ran]
          rfl
      · rw [if_neg same] at ran
        cases ran

def headOf (major : Nat) : ContainerEncoding → ItemHead
  | .definite count _ => if major = majorArray then .array count else .map count
  | .indefinite => if major = majorArray then .indefinite else .indefiniteMap

theorem readHead_of_readContainerHeader {major : Nat} {expected : String}
    {encoding : ContainerEncoding} (container : major = majorArray ∨ major = majorMap)
    (ran : (readContainerHeader major expected data).runAt offset = (.ok encoding, after)) :
    (readHead data).runAt offset = (.ok (headOf major encoding), after) := by
  rw [readContainerHeader_starts] at ran
  rw [readHead_starts]
  cases found : data[offset]? with
  | none =>
      rw [found] at ran
      cases ran
  | some byte =>
      rw [found] at ran
      dsimp only at ran ⊢
      by_cases same : byte.toNat / 32 = major
      · rw [if_pos same] at ran
        rw [same]
        by_cases open_ : byte.toNat % 32 = 31
        · rw [if_pos open_] at ran
          cases ran
          rw [open_]
          rcases container with rfl | rfl
          · rfl
          · rfl
        · rw [if_neg open_, runAt_map] at ran
          rcases argument : (decodeArgument data (byte.toNat % 32) offset).runAt (offset + 1) with
            ⟨failure | value, middle⟩
          · rw [argument] at ran
            cases ran
          · rw [argument] at ran
            cases ran
            rcases container with rfl | rfl
            · have tail : readHeadTail data offset majorArray (byte.toNat % 32) =
                  if byte.toNat % 32 = 31 then pure .indefinite
                  else decodeArgument data (byte.toNat % 32) offset >>= fun argument =>
                    pure (.array argument.1) := rfl
              rw [tail, if_neg open_, runAt_bind_ok argument]
              rfl
            · have tail : readHeadTail data offset majorMap (byte.toNat % 32) =
                  if byte.toNat % 32 = 31 then pure .indefiniteMap
                  else decodeArgument data (byte.toNat % 32) offset >>= fun argument =>
                    pure (.map argument.1) := rfl
              rw [tail, if_neg open_, runAt_bind_ok argument]
              rfl
      · rw [if_neg same] at ran
        cases ran

theorem readHead_of_readBytes {value : Bytes × IntWidth}
    (ran : (readBytes data).runAt offset = (.ok value, after)) :
    (readHead data).runAt offset = (.ok .leaf, after) := by
  rw [readBytes_starts] at ran
  rw [readHead_starts]
  cases found : data[offset]? with
  | none =>
      rw [found] at ran
      cases ran
  | some byte =>
      rw [found] at ran
      dsimp only at ran ⊢
      by_cases same : byte.toNat / 32 = majorBytes
      · rw [if_pos same] at ran
        by_cases open_ : byte.toNat % 32 = 31
        · rw [if_pos open_] at ran
          cases ran
        · rw [if_neg open_, runAt_bind] at ran
          rcases argument : (decodeArgument data (byte.toNat % 32) offset).runAt (offset + 1) with
            ⟨failure | found, middle⟩
          · rw [argument] at ran
            cases ran
          · rw [argument] at ran
            dsimp only at ran
            rw [runAt_map] at ran
            rcases payload : (readPayload data found.1.toNat).runAt middle with
              ⟨failure | bytes, last⟩
            · rw [payload] at ran
              cases ran
            · rw [payload] at ran
              cases ran
              have tail : readHeadTail data offset majorBytes (byte.toNat % 32) =
                  if byte.toNat % 32 = 31 then pure .indefinite
                  else decodeArgument data (byte.toNat % 32) offset >>= fun argument =>
                    readPayload data argument.1.toNat >>= fun _ => pure .leaf := rfl
              rw [same, tail, if_neg open_, runAt_bind_ok argument, runAt_bind_ok payload]
              rfl
      · rw [if_neg same] at ran
        cases ran

theorem readHead_of_readText {value : String × IntWidth}
    (ran : (readText data).runAt offset = (.ok value, after)) :
    (readHead data).runAt offset = (.ok .leaf, after) ∧
      value.1.toUTF8.data.toList.length < 2 ^ 64 := by
  unfold readText at ran
  rw [runAt_bind_ok (runAt_get offset)] at ran
  obtain ⟨⟨major, ai⟩, middle, initial, ran⟩ := of_runAt_bind_ok ran
  dsimp only at ran
  by_cases other : major ≠ majorText
  · rw [if_pos other] at ran
    cases ran
  · rw [if_neg other] at ran
    rw [not_not] at other
    subst other
    by_cases indefinite : ai = 31
    · rw [if_pos indefinite] at ran
      cases ran
    rw [if_neg indefinite] at ran
    obtain ⟨⟨len, width⟩, last, argument, ran⟩ := of_runAt_bind_ok ran
    obtain ⟨raw, final, payload, ran⟩ := of_runAt_bind_ok ran
    cases decoded : String.fromUTF8? raw.toByteArray with
    | none =>
        rw [decoded] at ran
        cases ran
    | some text =>
        rw [decoded] at ran
        cases ran
        have head : (readHead data).runAt offset = (readHeadTail data offset majorText ai).runAt middle := by
          unfold readHead
          rw [runAt_bind_ok (runAt_get offset), runAt_bind_ok initial]
        have tail : readHeadTail data offset majorText ai =
            if ai = 31 then pure .indefinite
            else decodeArgument data ai offset >>= fun argument =>
              readPayload data argument.1.toNat >>= fun _ => pure .leaf := rfl
        refine ⟨?_, ?_⟩
        · rw [head, tail, if_neg indefinite, runAt_bind_ok argument, runAt_bind_ok payload]
          rfl
        · have sized : raw.length = len.toNat := by
            rw [readPayload_runAt] at payload
            dsimp only at payload
            split_ifs at payload with short
            · cases payload
            · cases payload
              rw [List.length_take, List.length_drop]
              omega
          have same : text.toUTF8 = raw.toByteArray := by
            unfold String.fromUTF8? at decoded
            split at decoded
            · cases decoded
              rfl
            · cases decoded
          have listed : text.toUTF8.data.toList = raw := by
            rw [same]
            simp
          have small := len.toNat_lt
          show text.toUTF8.data.toList.length < 2 ^ 64
          rw [listed, sized]
          exact small

end

/-! ### What the readers take -/

theorem reads_head {α : Type} {read : Bytes → Read α} {written : Bytes} {value : α} {head : ItemHead}
    (reads : Reads read written value)
    (seen : ∀ data offset after, (read data).runAt offset = (.ok value, after) →
      (readHead data).runAt offset = (.ok head, after)) : Reads readHead written head := by
  intro before after
  exact seen _ _ _ (reads before after)

theorem readArgument_exact (major : Nat) (expected : String) :
    Exact (fun _ => readArgument major expected) fun written _ =>
      (major = majorUnsigned → Reads readHead written .leaf) ∧
        (major = majorTag → Reads readHead written .tag) := by
  have first := (readArgument_starts major expected).exact_
    fun actual ai => .ite (fun _ => decodeArgument_exact ai) fun _ => .thrown _
  refine first.reads.mono fun written value known => ⟨fun unsigned => ?_, fun tag => ?_⟩
  · exact reads_head known.1 fun _ _ _ ran => (readHead_of_readArgument ran).1 unsigned
  · exact reads_head known.1 fun _ _ _ ran => (readHead_of_readArgument ran).2 tag

theorem readUint_exact : Exact (fun _ => readUint) fun written _ => Reads readHead written .leaf :=
  (readArgument_exact majorUnsigned "unsigned integer").mono fun _ _ known => known.1 rfl

theorem readTag_exact : Exact (fun _ => readTag) fun written _ => Reads readHead written .tag :=
  (readArgument_exact majorTag "tag").mono fun _ _ known => known.2 rfl

theorem readContainerHeader_exact {major : Nat} (expected : String)
    (container : major = majorArray ∨ major = majorMap) :
    Exact (fun _ => readContainerHeader major expected) fun written encoding =>
      Reads readHead written (headOf major encoding) := by
  have first := (readContainerHeader_starts major expected).exact_
    fun actual ai => .ite
      (fun _ => .ite (fun _ => (Exact.pure _).mono fun _ _ _ => trivial) fun _ =>
        (decodeArgument_exact ai).map.mono fun _ _ _ => trivial)
      fun _ => .thrown _
  refine first.reads.mono fun written encoding known => ?_
  exact reads_head known.1 fun _ _ _ ran => readHead_of_readContainerHeader container ran

theorem readBytes_exact : Exact (fun _ => readBytes) fun written _ =>
    Reads readHead written .leaf := by
  have first := readBytes_starts.exact_ fun actual ai => .ite
    (fun _ => .ite (fun _ => .thrown _) fun _ =>
      ((decodeArgument_exact ai).bind fun argument =>
        (readPayload_exact argument.1.toNat).map).mono fun _ _ _ => trivial)
    fun _ => .thrown _
  refine first.reads.mono fun written value known => ?_
  exact reads_head known.1 fun _ _ _ ran => readHead_of_readBytes ran

/-- A check before the rest. -/
theorem exact_check {α : Type} {refused : Prop} [Decidable refused] {failure : Nat → CodecError}
    {read : Nat → Bytes → Read α} {fact : Bytes → α → Prop} (rest : ¬ refused → Exact read fact) :
    Exact (fun start data => if refused then (throw (failure start) : Read PUnit) >>= fun _ => read start data
      else read start data) fact := by
  refine Exact.ite (fun _ => ?_) rest
  exact Exact.fails fun start _ _ => ⟨failure start, rfl⟩

def decodedText (start : Nat) (raw : Bytes) (width : IntWidth) : Read (String × IntWidth) :=
  match String.fromUTF8? raw.toByteArray with
  | some text => pure (text, width)
  | none => throw (.invalidCborStructure start "invalid UTF-8 in text string")

theorem readText_exact : Exact (fun _ => readText) fun written value =>
    Reads readHead written .leaf ∧ value.1.toUTF8.data.toList.length < 2 ^ 64 := by
  have decoded : ∀ (raw : Bytes) (width : IntWidth),
      Exact (fun start (_ : Bytes) => decodedText start raw width) fun _ _ => True := by
    intro raw width
    unfold decodedText
    cases String.fromUTF8? raw.toByteArray with
    | some text => exact (Exact.pure _).mono fun _ _ _ => trivial
    | none => exact Exact.thrown _
  have whole : Exact (fun _ => readText) fun _ _ => True := by
    refine Exact.get_bind ((Exact.bind decodeInitial_exact fun initial => exact_check fun _ =>
      exact_check fun _ => Exact.bind (decodeArgument_exact initial.2) fun argument =>
        Exact.bind (readPayload_exact argument.1.toNat) fun raw => decoded raw argument.2).mono ?_)
    exact fun _ _ _ => trivial
  refine whole.reads.mono fun written value known => ⟨?_, ?_⟩
  · exact reads_head known.1 fun _ _ _ ran => (readHead_of_readText ran).1
  · exact (readHead_of_readText (known.1 [] [])).2
theorem readHeadTail_exact (major ai : Nat) :
    Exact (fun start data => readHeadTail data start major ai) fun _ _ => True := by
  have leaf : Exact (fun _ (_ : Bytes) => (pure .leaf : Read ItemHead)) fun _ _ => True :=
    (Exact.pure _).mono fun _ _ _ => trivial
  have argument : ∀ head : UInt64 → ItemHead, Exact (fun start data =>
      decodeArgument data ai start >>= fun argument => (pure (head argument.1) : Read ItemHead))
      fun _ _ => True :=
    fun head => ((decodeArgument_exact ai).bind fun _ => Exact.pure _).mono fun _ _ _ => trivial
  have payload : ∀ len, Exact (fun _ data => readPayload data len >>= fun _ =>
      (pure .leaf : Read ItemHead)) fun _ _ => True :=
    fun len => ((readPayload_exact len).bind fun _ => Exact.pure _).mono fun _ _ _ => trivial
  have byte : Exact (fun _ data => readByte data >>= fun _ => (pure .leaf : Read ItemHead))
      fun _ _ => True :=
    (Exact.bind readByte_exact fun _ => Exact.pure _).mono fun _ _ _ => trivial
  have text : Exact (fun start data => decodeArgument data ai start >>= fun argument =>
      readPayload data argument.1.toNat >>= fun _ => (pure .leaf : Read ItemHead)) fun _ _ => True :=
    ((decodeArgument_exact ai).bind fun argument => payload argument.1.toNat).mono
      fun _ _ _ => trivial
  have indefinite : ∀ head : ItemHead, Exact (fun _ (_ : Bytes) => (pure head : Read ItemHead))
      fun _ _ => True := fun head => (Exact.pure _).mono fun _ _ _ => trivial
  unfold readHeadTail
  refine .ite (fun _ => .ite (fun _ => leaf) fun _ => argument fun _ => .leaf) fun _ => ?_
  refine .ite (fun _ => .ite (fun _ => indefinite _) fun _ => text) fun _ => ?_
  refine .ite (fun _ => .ite (fun _ => indefinite _) fun _ => argument .array) fun _ => ?_
  refine .ite (fun _ => .ite (fun _ => indefinite _) fun _ => argument .map) fun _ => ?_
  refine .ite (fun _ => argument fun _ => .tag) fun _ => ?_
  refine .ite (fun _ => leaf) fun _ => .ite (fun _ => byte) fun _ => ?_
  refine .ite (fun _ => payload 2) fun _ => .ite (fun _ => payload 4) fun _ => ?_
  exact .ite (fun _ => payload 8) fun _ => .ite (fun _ => .thrown _) fun _ => .thrown _

theorem readHead_exact : Exact (fun _ => readHead) fun written _ => written ≠ [] :=
  readHead_starts.exact_ readHeadTail_exact

/-! ## Items -/

section
variable {data : Bytes}

theorem skipRest_nil (offset : Nat) : skipRest data [] offset = (.ok (), offset) := rfl

theorem skipRest_zero (owed : List (Option Nat)) (offset : Nat) :
    skipRest data (some 0 :: owed) offset = skipRest data owed offset := rfl

theorem skipRest_succ (count : Nat) (owed : List (Option Nat)) (offset : Nat) :
    skipRest data (some (count + 1) :: owed) offset = skipLoop data (some count :: owed) offset := rfl

theorem skipRest_open {owed : List (Option Nat)} {offset : Nat} {byte : UInt8}
    (peeked : peekByte data offset = .ok byte) (goes : byte ≠ breakByte) :
    skipRest data (none :: owed) offset = skipLoop data (none :: owed) offset := by
  simp [skipRest, settle, peeked, goes]

theorem skipRest_end {owed : List (Option Nat)} {offset : Nat} {failure : CodecError}
    (ended : peekByte data offset = .error failure) :
    skipRest data (none :: owed) offset = (.error failure, offset) := by
  simp [skipRest, settle, ended]

/-- Items owed one after the other are skipped one after the other. -/
theorem skipRest_append (first owed : List (Option Nat)) (offset : Nat) :
    skipRest data (first ++ owed) offset =
      andThen (skipRest data first offset) (skipRest data owed) := by
  induction left : data.length - offset using Nat.strong_induction_on generalizing offset first with
  | _ left later =>
      -- One item, and then what it owes before `first`.
      have item : ∀ first, skipLoop data (first ++ owed) offset =
          andThen (skipLoop data first offset) (skipRest data owed) := by
        intro first
        rw [skipLoop_eq, skipLoop_eq]
        rcases ran : (readHead data).runAt offset with ⟨failure | head, after⟩
        · rfl
        · obtain ⟨available, taken⟩ := readHead_ok ran
          dsimp only
          rw [← List.append_assoc]
          exact later (data.length - after) (by omega) _ _ rfl
      induction first with
      | nil => rfl
      | cons frame first ih =>
          match frame with
          | some 0 => exact ih
          | some (count + 1) => exact item (some count :: first)
          | none =>
              rw [List.cons_append]
              cases peeked : peekByte data offset with
              | error failure =>
                  rw [skipRest_end peeked, skipRest_end peeked]
                  rfl
              | ok byte =>
                  by_cases broken : byte = breakByte
                  · subst broken
                    rw [skipRest_break peeked, skipRest_break peeked]
                    have available : offset < data.length := by
                      by_contra ended
                      simp [peekByte, List.getElem?_eq_none (Nat.le_of_not_lt ended)] at peeked
                    exact later (data.length - (offset + 1)) (by omega) _ _ rfl
                  · rw [skipRest_open peeked broken, skipRest_open peeked broken]
                    exact item (none :: first)

/-- Items owed together. -/
theorem skipRest_merge (first second : Nat) (base : List (Option Nat)) :
    skipRest data (some first :: some second :: base) offset =
      skipRest data (some (first + second) :: base) offset := by
  induction first generalizing offset with
  | zero => rw [skipRest_zero, Nat.zero_add]
  | succ first ih =>
      rw [Nat.succ_add, skipRest_succ, skipRest_succ, skipLoop_eq, skipLoop_eq]
      rcases (readHead data).runAt offset with ⟨failure | head, next⟩
      · rfl
      · dsimp only
        rw [skipRest_append, skipRest_append (owedBy head)]
        congr 1
        funext later
        exact ih

end

/-- The owed items are skipped over the segment, wherever it stands. -/
def SkipsOver (owed : List (Option Nat)) (written : Bytes) : Prop :=
  ∀ before after, skipRest (before ++ written ++ after) owed before.length =
    (.ok (), before.length + written.length)

/-- The segment is one item. -/
def IsItem (written : Bytes) : Prop := SkipsOver [some 1] written

theorem peekByte_cons (before after : Bytes) (byte : UInt8) :
    peekByte (before ++ byte :: after) before.length = .ok byte := by
  simp [peekByte]

theorem SkipsOver.append {first owed : List (Option Nat)} {head tail : Bytes}
    (skips : SkipsOver first head) (then_ : SkipsOver owed tail) :
    SkipsOver (first ++ owed) (head ++ tail) := by
  intro before after
  have one := skips before (tail ++ after)
  have two := then_ (before ++ head) after
  rw [skipRest_append]
  simp only [List.append_assoc, List.length_append] at one two ⊢
  rw [one]
  show skipRest _ owed (before.length + head.length) = _
  rw [two, Nat.add_assoc]

theorem skipsOver_nil : SkipsOver [] [] := fun _ _ => rfl

theorem SkipsOver.add {first second : Nat} {head tail : Bytes} (skips : SkipsOver [some first] head)
    (then_ : SkipsOver [some second] tail) : SkipsOver [some (first + second)] (head ++ tail) := by
  intro before after
  rw [← skipRest_merge]
  exact skips.append then_ before after

/-- A head, and then what it owes. -/
theorem isItem_of_head {head : ItemHead} {first rest : Bytes} (reads : Reads readHead first head)
    (skips : SkipsOver (owedBy head) rest) : IsItem (first ++ rest) := by
  intro before after
  have seen := reads before (rest ++ after)
  have remaining := skips (before ++ first) after
  have alone : skipRest (before ++ (first ++ rest) ++ after) [some 1] before.length =
      skipLoop (before ++ (first ++ rest) ++ after) [some 0] before.length := rfl
  rw [alone, skipLoop_eq]
  simp only [List.append_assoc, List.length_append] at seen remaining ⊢
  rw [seen]
  dsimp only
  rw [skipRest_append, remaining, Nat.add_assoc]
  rfl

theorem isItem_leaf {written : Bytes} (reads : Reads readHead written .leaf) : IsItem written := by
  simpa using isItem_of_head reads skipsOver_nil

theorem isItem_tagged {tag written : Bytes} (reads : Reads readHead tag .tag)
    (item : IsItem written) : IsItem (tag ++ written) :=
  isItem_of_head reads item

theorem skipsOver_items {items : List Bytes} (each : ∀ item ∈ items, IsItem item) :
    SkipsOver [some items.length] items.flatten := by
  induction items with
  | nil => exact skipsOver_nil
  | cons item items ih =>
      have rest := ih fun other member => each other (List.mem_cons_of_mem _ member)
      have both := (each item (List.mem_cons_self ..)).append rest
      intro before after
      have ran := both before after
      rw [List.length_cons, List.flatten_cons]
      -- One item owed before the others is one item more.
      have same : ∀ data offset, skipRest data [some (items.length + 1)] offset =
          skipRest data ([some 1] ++ [some items.length]) offset := by
        intro data offset
        rw [skipRest_succ, List.singleton_append, skipRest_succ, skipLoop_eq, skipLoop_eq]
        rcases (readHead data).runAt offset with ⟨failure | head, middle⟩
        · rfl
        · dsimp only
          rw [skipRest_append, skipRest_append]
          congr 1
      rw [same]
      exact ran

theorem isItem_array {header : Bytes} {count : UInt64} {items : List Bytes}
    (reads : Reads readHead header (.array count)) (counted : items.length = count.toNat)
    (each : ∀ item ∈ items, IsItem item) : IsItem (header ++ items.flatten) := by
  apply isItem_of_head reads
  rw [show owedBy (.array count) = [some count.toNat] from rfl, ← counted]
  exact skipsOver_items each

theorem IsItem.ne_nil {written : Bytes} (item : IsItem written) : written ≠ [] := by
  rintro rfl
  have ran := item [] []
  rw [show skipRest ([] ++ [] ++ []) [some 1] ([] : Bytes).length =
    (.error (.unexpectedEof 0 1), 0) from by
      rw [skipRest_succ, skipLoop_eq]
      rfl] at ran
  cases ran

/-- An item does not start by a break byte. -/
theorem IsItem.head_ne_break {byte : UInt8} {written : Bytes} (item : IsItem (byte :: written)) :
    byte ≠ breakByte := by
  rintro rfl
  have ran := item [] []
  have broken : peekByte ([] ++ breakByte :: written ++ []) ([] : Bytes).length = .ok breakByte := rfl
  rw [skipRest_succ, skipLoop_eq, readHead_break broken] at ran
  cases ran

theorem isItem_indefinite {header : Bytes} {items : List Bytes}
    (reads : Reads readHead header .indefinite) (each : ∀ item ∈ items, IsItem item) :
    IsItem (header ++ (items.flatten ++ [breakByte])) := by
  apply isItem_of_head reads
  rw [show owedBy .indefinite = [none] from rfl]
  clear reads
  induction items with
  | nil =>
      intro before after
      rw [List.flatten_nil, List.nil_append, List.append_assoc, List.singleton_append,
        skipRest_break (peekByte_cons before after breakByte)]
      rfl
  | cons item items ih =>
      have rest := ih fun other member => each other (List.mem_cons_of_mem _ member)
      have first := each item (List.mem_cons_self ..)
      obtain ⟨byte, written, rfl⟩ := List.exists_cons_of_ne_nil first.ne_nil
      have both := first.append rest
      intro before after
      have ran := both before after
      rw [List.flatten_cons, List.append_assoc (byte :: written)]
      have peeked : peekByte (before ++ (byte :: written ++ (items.flatten ++ [breakByte])) ++ after)
          before.length = .ok byte := by
        simp [peekByte]
      rw [skipRest_open peeked first.head_ne_break]
      rw [List.singleton_append, skipRest_succ] at ran
      rw [← ran, skipLoop_eq, skipLoop_eq]
      rcases (readHead _).runAt _ with ⟨failure | head, middle⟩
      · rfl
      · dsimp only
        rw [skipRest_append, skipRest_append]
        rfl

/-! ### Skipping is local -/

theorem skipRest_one (data : Bytes) (offset : Nat) :
    skipRest data [some 1] offset = skipLoop data [] offset := by
  rw [skipRest_succ, skipLoop_eq, skipLoop_eq]
  rcases (readHead data).runAt offset with ⟨failure | head, after⟩
  · rfl
  · dsimp only
    rw [skipRest_append, skipRest_append]
    rfl

/-- What has been skipped is skipped the same everywhere. -/
theorem skipsOver_of_skipRest {before rest : Bytes} {owed : List (Option Nat)} {after : Nat}
    (ran : skipRest (before ++ rest) owed before.length = (.ok (), after)) :
    ∃ written remaining, rest = written ++ remaining ∧ after = before.length + written.length ∧
      SkipsOver owed written := by
  induction sized : rest.length using Nat.strong_induction_on generalizing before rest owed after with
  | _ size later =>
      have item : ∀ owed after, skipLoop (before ++ rest) owed before.length = (.ok (), after) →
          ∃ written remaining, rest = written ++ remaining ∧
            after = before.length + written.length ∧ written ≠ [] ∧
            ∀ before' after', skipLoop (before' ++ written ++ after') owed before'.length =
              (.ok (), before'.length + written.length) := by
        intro owed after ran
        rw [skipLoop_eq] at ran
        rcases headRan : (readHead (before ++ rest)).runAt before.length with ⟨failure | head, middle⟩
        · rw [headRan] at ran
          cases ran
        · rw [headRan] at ran
          obtain ⟨first, rest', rfl, rfl, reads, nonempty⟩ := readHead_exact 0 _ _ _ _ headRan
          dsimp only at ran
          rw [← List.append_assoc, ← List.length_append] at ran
          have shorter : rest'.length < size := by
            have taken := List.length_pos_of_ne_nil nonempty
            rw [List.length_append] at sized
            omega
          obtain ⟨second, remaining, rfl, rfl, skips⟩ := later _ shorter ran rfl
          refine ⟨first ++ second, remaining, (List.append_assoc ..).symm, ?_, ?_, ?_⟩
          · rw [List.length_append, List.length_append, Nat.add_assoc]
          · simp [nonempty]
          · intro before' after'
            have seen := reads 0 before' (second ++ after')
            have skipped := skips (before' ++ first) after'
            rw [skipLoop_eq]
            simp only [List.append_assoc, List.length_append] at seen skipped ⊢
            rw [seen]
            dsimp only
            rw [skipped, Nat.add_assoc]
      induction owed with
      | nil =>
          cases ran
          exact ⟨[], rest, rfl, rfl, skipsOver_nil⟩
      | cons frame owed ih =>
          match frame with
          | some 0 =>
              obtain ⟨written, remaining, split, moved, skips⟩ := ih ran
              exact ⟨written, remaining, split, moved, skips⟩
          | some (count + 1) =>
              obtain ⟨written, remaining, split, moved, -, skips⟩ := item _ _ ran
              exact ⟨written, remaining, split, moved, skips⟩
          | none =>
              cases rest with
              | nil =>
                  have ended : peekByte (before ++ []) before.length =
                      .error (.unexpectedEof before.length 1) := by
                    simp [peekByte]
                  rw [skipRest_end ended] at ran
                  cases ran
              | cons byte rest =>
                  have peeked := peekByte_cons before rest byte
                  by_cases broken : byte = breakByte
                  · subst broken
                    have reached : before.length + 1 = (before ++ [breakByte]).length := by
                      rw [List.length_append, List.length_singleton]
                    rw [skipRest_break peeked, List.append_cons, reached] at ran
                    obtain ⟨written, remaining, rfl, rfl, skips⟩ :=
                      later rest.length (by rw [← sized, List.length_cons]; omega) ran rfl
                    refine ⟨breakByte :: written, remaining, rfl, ?_, ?_⟩
                    · rw [← reached, List.length_cons]
                      omega
                    · intro before' after'
                      have skipped := skips (before' ++ [breakByte]) after'
                      have again := peekByte_cons before' (written ++ after') breakByte
                      rw [List.append_assoc, List.cons_append, skipRest_break again]
                      rw [List.append_assoc, List.append_assoc, List.length_append,
                        List.length_singleton, List.singleton_append] at skipped
                      rw [skipped, List.length_cons]
                      congr 1
                      omega
                  · rw [skipRest_open peeked broken] at ran
                    obtain ⟨written, remaining, split, moved, nonempty, skips⟩ := item _ _ ran
                    obtain ⟨first, written, rfl⟩ := List.exists_cons_of_ne_nil nonempty
                    obtain ⟨rfl, rfl⟩ := List.cons.inj split
                    refine ⟨byte :: written, remaining, rfl, moved, fun before' after' => ?_⟩
                    have again := peekByte_cons before' (written ++ after') byte
                    rw [← List.cons_append, ← List.append_assoc] at again
                    rw [skipRest_open again broken]
                    exact skips before' after'

/-- A skipped item, with its range. -/
theorem skip_ok {before rest : Bytes} {range : Nat × Nat} {after : Nat}
    (ran : (skip (before ++ rest)).runAt before.length = (.ok range, after)) :
    ∃ written remaining, rest = written ++ remaining ∧ after = before.length + written.length ∧
      range = (before.length, after) ∧ IsItem written := by
  unfold skip skipItem itemRange at ran
  rw [runAt_ofRun, ← skipRest_one] at ran
  rcases skipped : skipRest (before ++ rest) [some 1] before.length with ⟨failure | done, final⟩
  · rw [skipped] at ran
    cases ran
  · rw [skipped] at ran
    cases ran
    obtain ⟨written, remaining, split, moved, item⟩ := skipsOver_of_skipRest skipped
    exact ⟨written, remaining, split, moved, rfl, item⟩

theorem skip_item {written : Bytes} (item : IsItem written) (before after : Bytes) :
    (skip (before ++ written ++ after)).runAt before.length =
      (.ok (before.length, before.length + written.length), before.length + written.length) := by
  unfold skip skipItem itemRange
  rw [runAt_ofRun, ← skipRest_one, item before after]
  rfl

/-- The walker takes all of it as one item. -/
def SingleItem (bytes : Bytes) : Prop := skipItem bytes 0 = (.ok (0, bytes.length), bytes.length)

theorem singleItem_iff {bytes : Bytes} : SingleItem bytes ↔ IsItem bytes := by
  constructor
  · intro one
    have skipped : (skip ([] ++ bytes)).runAt ([] : Bytes).length = (.ok (0, bytes.length), bytes.length) := one
    obtain ⟨written, remaining, split, moved, -, item⟩ := skip_ok skipped
    have nothing : remaining = [] := by
      have lengths := congrArg List.length split
      rw [List.length_append] at lengths
      rw [List.length_nil, Nat.zero_add] at moved
      exact List.eq_nil_of_length_eq_zero (by omega)
    rwa [split, nothing, List.append_nil]
  · intro item
    have skipped := skip_item item [] []
    rw [List.nil_append, List.append_nil, List.length_nil, Nat.zero_add] at skipped
    exact skipped

theorem slice_segment (before written after : Bytes) :
    slice (before ++ written ++ after) (before.length, before.length + written.length) = written := by
  simp [slice]

/-- What follows a skipped item may only depend on its bytes. -/
theorem skip_exact {α : Type} {next : Bytes → Nat × Nat → Read α} {value : Bytes → α}
    (runs : ∀ data range offset, (next data range).runAt offset = (.ok (value (slice data range)), offset)) :
    Exact (fun _ data => skip data >>= next data) fun written result =>
      result = value written ∧ IsItem written := by
  have reads : ∀ written, IsItem written →
      Reads (fun data => skip data >>= next data) written (value written) := by
    intro written item before after
    rw [runAt_bind_ok (skip_item item before after), runs, slice_segment]
  intro start before rest result after ran
  rw [runAt_bind] at ran
  rcases skipped : (skip (before ++ rest)).runAt before.length with ⟨failure | range, middle⟩
  · rw [skipped] at ran
    cases ran
  · rw [skipped] at ran
    obtain ⟨written, remaining, rfl, rfl, rfl, item⟩ := skip_ok skipped
    dsimp only at ran
    rw [runs, ← List.append_assoc, slice_segment] at ran
    cases ran
    exact ⟨written, remaining, rfl, rfl, fun _ => reads written item, rfl, item⟩

theorem readItem_reads {written : Bytes} (item : IsItem written) : Reads readItem written written := by
  intro before after
  unfold readItem
  rw [runAt_bind_ok (skip_item item before after), slice_segment]
  rfl

theorem readItem_exact : Exact (fun _ => readItem) fun written bytes =>
    bytes = written ∧ IsItem written :=
  skip_exact fun _ _ _ => rfl

theorem skipped_exact {α : Type} (value : α) :
    Exact (fun _ data => (do let _ ← skip data; return value : Read α)) fun written result =>
      result = value ∧ IsItem written :=
  skip_exact fun _ _ _ => rfl

/-! ## Peeking -/

theorem peekMajor_cons (before rest : Bytes) (byte : UInt8) :
    (peekMajor (before ++ byte :: rest)).runAt before.length =
      (.ok (byte.toNat / 32), before.length) := by
  simp [peekMajor, runAt_bind, peekByte_cons, Except.map]

theorem peekMajor_end (before : Bytes) :
    (peekMajor (before ++ [])).runAt before.length =
      (.error (.unexpectedEof before.length 1), before.length) := by
  simp [peekMajor, runAt_bind, peekByte, Except.map]

/-- A byte may be looked at, if it is read afterwards. -/
theorem peek_exact {α : Type} {next : Nat → Nat → Bytes → Read α} {facts : Bytes → α → Prop}
    (each : ∀ major, Exact (fun start data => next start major data) facts)
    (nonempty : ∀ written value, facts written value → written ≠ []) :
    Exact (fun start data => peekMajor data >>= fun major => next start major data) facts := by
  intro start before rest value after ran
  cases rest with
  | nil =>
      rw [runAt_bind, peekMajor_end] at ran
      cases ran
  | cons byte rest =>
      rw [runAt_bind_ok (peekMajor_cons before rest byte)] at ran
      obtain ⟨written, remaining, split, moved, reads, known⟩ := each _ _ _ _ _ _ ran
      obtain ⟨first, written, rfl⟩ := List.exists_cons_of_ne_nil (nonempty _ _ known)
      obtain ⟨rfl, rfl⟩ := List.cons.inj split
      refine ⟨byte :: written, remaining, rfl, moved, fun anywhere before' after' => ?_, known⟩
      have again := peekMajor_cons before' (written ++ after') byte
      rw [← List.cons_append, ← List.append_assoc] at again
      rw [runAt_bind_ok again]
      exact reads anywhere before' after'

theorem skipOptionalTag_cons (before rest : Bytes) (byte : UInt8) :
    (skipOptionalTag (before ++ byte :: rest)).runAt before.length =
      if byte.toNat / 32 = majorTag then
        ((fun _ => ()) <$> readTag (before ++ byte :: rest) : Read Unit).runAt before.length
      else (.ok (), before.length) := by
  have inside : before.length < (before ++ byte :: rest).length := by
    rw [List.length_append, List.length_cons]
    omega
  have step : (skipOptionalTag (before ++ byte :: rest)).runAt before.length =
      (peekMajor (before ++ byte :: rest) >>= fun major =>
        if major = majorTag then (fun _ => ()) <$> readTag (before ++ byte :: rest)
        else (pure () : Read Unit)).runAt before.length := by
    unfold skipOptionalTag
    rw [runAt_bind_ok (runAt_get _), if_pos inside]
    rfl
  rw [step, runAt_bind_ok (peekMajor_cons before rest byte)]
  split_ifs
  · rfl
  · rfl

theorem skipOptionalTag_end (before : Bytes) :
    (skipOptionalTag (before ++ [])).runAt before.length = (.ok (), before.length) := by
  have outside : ¬ before.length < (before ++ []).length := by simp
  unfold skipOptionalTag
  rw [runAt_bind_ok (runAt_get _), if_neg outside]
  rfl

/-- An item may stand behind a tag. -/
theorem optionalTag_exact {α : Type} {read : Bytes → Read α}
    (exact_ : Exact (fun _ => read) fun written _ => IsItem written) :
    Exact (fun _ data => skipOptionalTag data >>= fun _ => read data)
      fun written _ => IsItem written := by
  intro start before rest value after ran
  cases rest with
  | nil =>
      rw [runAt_bind_ok (skipOptionalTag_end before)] at ran
      obtain ⟨written, remaining, split, -, -, item⟩ := exact_ 0 _ _ _ _ ran
      exact absurd (List.append_eq_nil_iff.mp split.symm).1 item.ne_nil
  | cons byte rest =>
      by_cases tagged : byte.toNat / 32 = majorTag
      · rw [runAt_bind, skipOptionalTag_cons, if_pos tagged, runAt_map] at ran
        rcases tagRan : (readTag (before ++ byte :: rest)).runAt before.length with
          ⟨failure | tag, middle⟩
        · rw [tagRan] at ran
          cases ran
        · rw [tagRan] at ran
          obtain ⟨head, remaining, split, rfl, headReads, seen⟩ := readTag_exact 0 _ _ _ _ tagRan
          rw [split] at ran
          replace ran : (read (before ++ (head ++ remaining))).runAt (before.length + head.length) =
            (.ok value, after) := ran
          rw [← List.append_assoc, ← List.length_append] at ran
          obtain ⟨tail, remaining, rfl, rfl, tailReads, item⟩ := exact_ 0 _ _ _ _ ran
          have whole := isItem_tagged seen item
          refine ⟨head ++ tail, remaining, by rw [split, List.append_assoc], ?_, ?_, whole⟩
          · rw [List.length_append, List.length_append, Nat.add_assoc]
          · intro _ before' after'
            have startsWith : ∃ rest', head = byte :: rest' := by
              cases head with
              | nil =>
                  have nothing := seen [] []
                  cases nothing
              | cons first head => exact ⟨head, by rw [(List.cons.inj split).1]⟩
            obtain ⟨rest', rfl⟩ := startsWith
            have one := headReads 0 before' (tail ++ after')
            have two := tailReads 0 (before' ++ byte :: rest') after'
            have skipped := skipOptionalTag_cons before' (rest' ++ (tail ++ after')) byte
            rw [if_pos tagged, runAt_map] at skipped
            simp only [List.append_assoc, List.cons_append, List.length_append] at one two skipped ⊢
            rw [one] at skipped
            rw [runAt_bind_ok skipped, two, ← List.cons_append, List.length_append, Nat.add_assoc]
      · rw [runAt_bind, skipOptionalTag_cons, if_neg tagged] at ran
        obtain ⟨written, remaining, split, moved, reads, item⟩ := exact_ 0 _ _ _ _ ran
        obtain ⟨first, written, rfl⟩ := List.exists_cons_of_ne_nil item.ne_nil
        obtain ⟨rfl, rfl⟩ := List.cons.inj split
        refine ⟨byte :: written, remaining, rfl, moved, fun _ before' after' => ?_, item⟩
        have skipped := skipOptionalTag_cons before' (written ++ after') byte
        rw [if_neg tagged, ← List.cons_append, ← List.append_assoc] at skipped
        rw [runAt_bind_ok skipped]
        exact reads 0 before' after'

/-! ## Arrays -/

theorem isBreak_cons (before rest : Bytes) (byte : UInt8) :
    (isBreak (before ++ byte :: rest)).runAt before.length =
      (.ok (decide (byte = breakByte)), before.length) := by
  simp [isBreak, runAt_bind, peekByte_cons, Except.map]

theorem isBreak_end (before : Bytes) :
    (isBreak (before ++ [])).runAt before.length =
      (.error (.unexpectedEof before.length 1), before.length) := by
  simp [isBreak, runAt_bind, peekByte, Except.map]

section
variable {α : Type} {element : Bytes → Read α} {fact : Bytes → α → Prop}

theorem untilBreak_ok (each : Exact (fun _ => element) fact) {left : Nat} {before rest : Bytes}
    {values : List α} {after : Nat}
    (ran : (untilBreak (before ++ rest) (element (before ++ rest)) left).runAt before.length =
      (.ok values, after)) :
    ∃ chunks remaining, rest = chunks.flatten ++ breakByte :: remaining ∧
      after = before.length + chunks.flatten.length ∧
        List.Forall₂ (fun chunk value => Reads element chunk value ∧ fact chunk value) chunks values := by
  induction left generalizing before rest values after with
  | zero => cases ran
  | succ left ih =>
      rw [untilBreak] at ran
      cases rest with
      | nil =>
          rw [runAt_bind, isBreak_end] at ran
          cases ran
      | cons byte rest =>
          rw [runAt_bind_ok (isBreak_cons before rest byte)] at ran
          by_cases broken : byte = breakByte
          · rw [if_pos (decide_eq_true broken)] at ran
            cases ran
            exact ⟨[], rest, by rw [broken]; rfl, rfl, .nil⟩
          · rw [if_neg (by simp [broken]), runAt_bind] at ran
            rcases first : (element (before ++ byte :: rest)).runAt before.length with
              ⟨failure | value, middle⟩
            · rw [first] at ran
              cases ran
            · rw [first] at ran
              obtain ⟨chunk, remaining, split, rfl, reads, known⟩ := each 0 _ _ _ _ first
              dsimp only at ran
              rw [split, ← List.append_assoc, ← List.length_append, runAt_bind] at ran
              rcases others : (untilBreak (before ++ chunk ++ remaining)
                (element (before ++ chunk ++ remaining)) left).runAt (before ++ chunk).length with
                ⟨failure | values, last⟩
              · rw [others] at ran
                cases ran
              · rw [others] at ran
                cases ran
                obtain ⟨chunks, remaining, rfl, rfl, listed⟩ := ih others
                refine ⟨chunk :: chunks, remaining, ?_, ?_, .cons ⟨reads 0, known⟩ listed⟩
                · rw [split, List.flatten_cons, List.append_assoc]
                · rw [List.flatten_cons, List.length_append, List.length_append, Nat.add_assoc]

theorem length_le_flatten {chunks : List Bytes} (items : ∀ chunk ∈ chunks, IsItem chunk) :
    chunks.length ≤ chunks.flatten.length := by
  induction chunks with
  | nil => exact Nat.zero_le _
  | cons chunk chunks ih =>
      have first := List.length_pos_of_ne_nil (items chunk (List.mem_cons_self ..)).ne_nil
      have rest := ih fun other member => items other (List.mem_cons_of_mem _ member)
      rw [List.flatten_cons, List.length_append, List.length_cons]
      omega

/-- As long as every segment is an item, the break byte behind them is what stops the loop. -/
theorem untilBreak_runs {data : Bytes} {element : Read α} {chunks : List Bytes} {values : List α}
    {offset : Nat} (runs : Cursor.RunsOver element offset chunks values)
    (items : ∀ chunk ∈ chunks, IsItem chunk) (before after : Bytes) (reached : offset = before.length)
    (stands : data = before ++ (chunks.flatten ++ breakByte :: after)) {left : Nat}
    (enough : chunks.length < left) :
    (untilBreak data element left).runAt offset =
      (.ok values, offset + chunks.flatten.length) := by
  induction runs generalizing before left with
  | nil offset =>
      obtain ⟨left, rfl⟩ := Nat.exists_eq_succ_of_ne_zero (Nat.ne_of_gt enough)
      subst reached stands
      rw [untilBreak, List.flatten_nil, List.nil_append,
        runAt_bind_ok (isBreak_cons before after breakByte), if_pos (decide_eq_true rfl)]
      rfl
  | @cons offset chunk chunks value values head tail ih =>
      obtain ⟨left, rfl⟩ := Nat.exists_eq_succ_of_ne_zero (Nat.ne_of_gt (Nat.zero_lt_of_lt enough))
      have item := items chunk (List.mem_cons_self ..)
      obtain ⟨byte, written, rfl⟩ := List.exists_cons_of_ne_nil item.ne_nil
      have rest := ih (fun other member => items other (List.mem_cons_of_mem _ member))
        (before ++ byte :: written) (by rw [reached, List.length_append])
        (by rw [stands, List.flatten_cons, List.append_assoc, List.append_assoc])
        (Nat.lt_of_succ_lt_succ enough)
      have peeked := isBreak_cons before (written ++ (chunks.flatten ++ breakByte :: after)) byte
      rw [untilBreak]
      have here : (isBreak data).runAt offset = (.ok false, offset) := by
        rw [stands, reached, List.flatten_cons, List.cons_append, List.cons_append,
          List.append_assoc, peeked, decide_eq_false item.head_ne_break]
      rw [runAt_bind_ok here, if_neg Bool.false_ne_true, runAt_bind_ok head, runAt_bind_ok rest,
        List.flatten_cons, List.length_append, Nat.add_assoc]
      rfl

end

/-- An array on the wire: its header, its elements, and a break byte if it is indefinite. -/
inductive IsArray (header : Bytes) (chunks : List Bytes) : Bytes → Prop
  | definite {count : UInt64} {width : IntWidth}
      (reads : Reads readArrayHeader header (.definite count width))
      (counted : chunks.length = count.toNat) : IsArray header chunks []
  | indefinite (reads : Reads readArrayHeader header .indefinite) :
      IsArray header chunks [breakByte]

theorem readHead_of_readArrayHeader {header : Bytes} {encoding : ContainerEncoding}
    (reads : Reads readArrayHeader header encoding) :
    Reads readHead header (headOf majorArray encoding) :=
  reads_head reads fun _ _ _ ran => readHead_of_readContainerHeader (.inl rfl) ran

theorem IsArray.isItem {header tail : Bytes} {chunks : List Bytes}
    (array : IsArray header chunks tail) (items : ∀ chunk ∈ chunks, IsItem chunk) :
    IsItem (header ++ (chunks.flatten ++ tail)) := by
  cases array with
  | definite reads counted =>
      rw [List.append_nil]
      exact isItem_array (readHead_of_readArrayHeader reads) counted items
  | indefinite reads => exact isItem_indefinite (readHead_of_readArrayHeader reads) items

/-- Any reader that takes the elements one after the other reads the array. -/
theorem readArray_runs {α : Type} {header tail before after data : Bytes} {chunks : List Bytes}
    {values : List α} {element : Read α} (array : IsArray header chunks tail)
    (items : ∀ chunk ∈ chunks, IsItem chunk)
    (stands : data = before ++ (header ++ (chunks.flatten ++ tail)) ++ after)
    (runs : Cursor.RunsOver element (before.length + header.length) chunks values) :
    (readArray data element).runAt before.length =
      (.ok values, before.length + (header ++ (chunks.flatten ++ tail)).length) := by
  unfold readArray
  cases array with
  | definite reads counted =>
      have head := reads before (chunks.flatten ++ [] ++ after)
      simp only [List.append_assoc, List.append_nil] at head stands
      rw [← stands] at head
      rw [runAt_bind_ok head]
      dsimp only
      rw [← counted, runs.times, List.append_nil, List.length_append, Nat.add_assoc]
  | indefinite reads =>
      have head := reads before (chunks.flatten ++ [breakByte] ++ after)
      simp only [List.append_assoc, List.singleton_append] at head stands
      rw [← stands] at head
      rw [runAt_bind_ok head]
      dsimp only
      have short := length_le_flatten items
      have enough : chunks.length < data.length := by
        rw [stands]
        simp only [List.length_append, List.length_cons]
        omega
      have stands' : data = before ++ header ++ (chunks.flatten ++ breakByte :: after) := by
        rw [stands, List.append_assoc]
      have loop := untilBreak_runs runs items (before ++ header) after (List.length_append ..).symm
        stands' enough
      rw [runAt_bind_ok loop, runAt_bind_ok (runAt_modify _ _), runAt_pure]
      congr 1
      simp only [List.length_append, List.length_singleton]
      omega

theorem items_of_forall₂ {α : Type} {element : Bytes → Read α} {fact : Bytes → α → Prop}
    {chunks : List Bytes} {values : List α}
    (item : ∀ chunk value, fact chunk value → IsItem chunk)
    (listed : List.Forall₂ (fun chunk value => Reads element chunk value ∧ fact chunk value)
      chunks values) : ∀ chunk ∈ chunks, IsItem chunk := by
  have both : List.Forall₂ (fun chunk value => IsItem chunk ∧ fact chunk value) chunks values :=
    listed.imp fun chunk value known => ⟨item chunk value known.2, known.2⟩
  exact ((List.forall₂_and_left ..).mp both).1

/-- What a reader of arrays has read. -/
theorem readArray_exact {α : Type} {element : Bytes → Read α} {fact : Bytes → α → Prop}
    (each : Exact (fun _ => element) fact) (item : ∀ chunk value, fact chunk value → IsItem chunk) :
    Exact (fun _ data => readArray data (element data)) fun written values =>
      ∃ header chunks tail, written = header ++ (chunks.flatten ++ tail) ∧
        IsArray header chunks tail ∧
          List.Forall₂ (fun chunk value => Reads element chunk value ∧ fact chunk value) chunks values := by
  have whole : ∀ {header tail : Bytes} {chunks : List Bytes} {values : List α},
      IsArray header chunks tail →
      List.Forall₂ (fun chunk value => Reads element chunk value ∧ fact chunk value) chunks values →
      Reads (fun data => readArray data (element data)) (header ++ (chunks.flatten ++ tail)) values := by
    intro header tail chunks values array listed before after
    apply readArray_runs array (items_of_forall₂ item listed) rfl
    have runs := Reads.runsOver (listed.imp fun _ _ known => known.1) (before ++ header) (tail ++ after)
    rw [List.length_append] at runs
    simp only [List.append_assoc] at runs ⊢
    exact runs
  intro _ before rest values after ran
  unfold readArray at ran
  rw [runAt_bind] at ran
  rcases headerRan : (readArrayHeader (before ++ rest)).runAt before.length with
    ⟨failure | encoding, middle⟩
  · rw [headerRan] at ran
    cases ran
  · rw [headerRan] at ran
    obtain ⟨header, remaining, rfl, rfl, reads, -⟩ :=
      readContainerHeader_exact "array" (.inl rfl) 0 _ _ _ _ headerRan
    rw [← List.append_assoc, ← List.length_append] at ran
    cases encoding with
    | definite count width =>
        obtain ⟨written, remaining, rfl, rfl, -, chunks, rfl, counted, listed⟩ :=
          each.reads.times count.toNat 0 _ _ _ _ ran
        have array : IsArray header chunks [] := .definite (reads 0) counted
        have read := whole array listed
        rw [List.append_nil] at read
        refine ⟨_, remaining, (List.append_assoc ..).symm, ?_, fun _ => read, header, chunks, [], ?_,
          array, listed⟩
        · rw [List.length_append, List.length_append, Nat.add_assoc]
        · rw [List.append_nil]
    | indefinite =>
        dsimp only at ran
        rw [runAt_bind] at ran
        rcases loopRan : (untilBreak (before ++ header ++ remaining)
          (element (before ++ header ++ remaining)) (before ++ header ++ remaining).length).runAt
            (before ++ header).length with ⟨failure | found, last⟩
        · rw [loopRan] at ran
          cases ran
        · rw [loopRan] at ran
          cases ran
          obtain ⟨chunks, remaining, rfl, rfl, listed⟩ := untilBreak_ok each loopRan
          have array : IsArray header chunks [breakByte] := .indefinite (reads 0)
          refine ⟨_, remaining, ?_, ?_, fun _ => whole array listed, header, chunks, [breakByte], rfl,
            array, listed⟩
          · simp only [List.append_assoc, List.singleton_append]
          · simp only [List.length_append, List.length_singleton]
            omega

theorem isItem_of_readArray {α : Type} {element : Bytes → Read α} {fact : Bytes → α → Prop}
    {header tail : Bytes} {chunks : List Bytes} {values : List α}
    (item : ∀ chunk value, fact chunk value → IsItem chunk) (array : IsArray header chunks tail)
    (listed : List.Forall₂ (fun chunk value => Reads element chunk value ∧ fact chunk value)
      chunks values) : IsItem (header ++ (chunks.flatten ++ tail)) := by
  exact array.isItem (items_of_forall₂ item listed)

end Ade.Proof.Codec
