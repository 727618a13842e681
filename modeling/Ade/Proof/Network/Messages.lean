import Ade.Network.Messages
import Ade.Proof.Network.HandshakeMessages

/-! Messages between nodes are one item each, and are read back as they were written. -/

namespace Ade.Proof.Network
open Library Cursor Ade.Codec Ade.Network Proof.Codec

/-! ## Readers of a number of items -/

/-- The reader takes `count` items, and what it returns is valid as far as lengths can be written. -/
def Takes {α : Type} (count : Nat) (read : Bytes → Decode α) (valid : α → Prop) : Prop :=
  Exact (fun _ => read) fun written value =>
    SkipsOver [some count] written ∧ (written.length < 2 ^ 64 → valid value)

section
variable {α β : Type} {count more : Nat} {read : Bytes → Decode α} {valid weaker : α → Prop}

theorem wrapped_reads {inner : Bytes → Read α} {written : Bytes} {value : α}
    (reads : Reads inner written value) : Reads (fun data => wrapped (inner data)) written value :=
  reads.adapt MessageError.malformedCbor

theorem wrapped_exact {inner : Bytes → Read α} {fact : Bytes → α → Prop} (exact_ : Exact (fun _ => inner) fact) :
    Exact (fun _ data => wrapped (inner data)) fact :=
  exact_.adapt MessageError.malformedCbor

theorem takes_of_items {inner : Bytes → Read α} (items : Items inner) (always : ∀ value, valid value) :
    Takes 1 (fun data => wrapped (inner data)) valid :=
  (wrapped_exact items).mono fun _ value item => ⟨item, fun _ => always value⟩

theorem Takes.mono (takes : Takes count read valid) (weakens : ∀ value, valid value → weaker value) :
    Takes count read weaker :=
  Exact.mono takes fun _ value known => ⟨known.1, fun short => weakens value (known.2 short)⟩

theorem takes_pure {value : α} (known : valid value) : Takes 0 (fun _ => pure value) valid := by
  refine (Exact.pure value).mono ?_
  rintro written result ⟨rfl, rfl⟩
  exact ⟨fun before _ => rfl, fun _ => known⟩

theorem takes_thrown (failure : MessageError) : Takes count (fun _ => (throw failure : Decode α)) valid :=
  Exact.thrown fun _ => failure

theorem Takes.bind {next : α → Bytes → Decode β} {final : β → Prop} (first : Takes count read valid)
    (second : ∀ value, Takes more (next value) fun result => valid value → final result) :
    Takes (count + more) (fun data => read data >>= fun value => next value data) final := by
  refine (Exact.bind first second).mono ?_
  rintro written result ⟨head, tail, value, rfl, ⟨one, known⟩, two, implied⟩
  refine ⟨one.add two, fun short => ?_⟩
  rw [List.length_append] at short
  exact implied (by omega) (known (by omega))

theorem Takes.ite {condition : Prop} [Decidable condition] {other : Bytes → Decode α}
    (taken : condition → Takes count read valid) (otherwise : ¬ condition → Takes count other valid) :
    Takes count (fun data => if condition then read data else other data) valid :=
  Exact.ite taken otherwise

/-- A check before the rest. -/
theorem takes_check {refused : Prop} [Decidable refused] {failure : MessageError}
    (rest : ¬ refused → Takes count read valid) :
    Takes count (fun data => if refused then (throw failure : Decode PUnit) >>= fun _ => read data
      else read data) valid := by
  refine Exact.ite (fun _ => ?_) rest
  exact Exact.fails fun _ _ _ => ⟨failure, rfl⟩

def definiteLength : ContainerEncoding → Decode UInt64
  | .definite len _ => pure len
  | .indefinite => throw (.invalidProtocolMessage "indefinite-length array not allowed")

theorem decodeArrayHeader_exact : Exact (fun _ => decodeArrayHeader) fun written len =>
    Reads readHead written (.array len) := by
  have header := wrapped_exact (readContainerHeader_exact "array" (.inl rfl))
  have rest : ∀ encoding : ContainerEncoding, Exact (fun _ (_ : Bytes) => definiteLength encoding)
      fun written len => written = [] ∧ ∃ width, encoding = .definite len width := by
    intro encoding
    cases encoding with
    | definite len width =>
        refine (Exact.pure len).mono ?_
        rintro written result ⟨rfl, rfl⟩
        exact ⟨rfl, width, rfl⟩
    | indefinite => exact Exact.thrown fun _ => _
  refine (Exact.bind header rest).mono ?_
  rintro written len ⟨head, tail, encoding, rfl, seen, rfl, width, rfl⟩
  rw [List.append_nil]
  exact seen

/-- The header of an array owes what it declares. -/
theorem takes_array {next : UInt64 → Bytes → Decode α}
    (body : ∀ len, Takes len.toNat (next len) valid) :
    Takes 1 (fun data => decodeArrayHeader data >>= fun len => next len data) valid := by
  refine (Exact.bind decodeArrayHeader_exact body).mono ?_
  rintro written result ⟨head, tail, len, rfl, seen, skips, known⟩
  refine ⟨isItem_of_head seen skips, fun short => known ?_⟩
  rw [List.length_append] at short
  omega

theorem takes_pair {next : Bytes → Decode α} {reason : String} (body : Takes 2 next valid) :
    Takes 1 (fun data => decodePair reason data (next data)) valid := by
  refine takes_array fun len => takes_check fun two => ?_
  rw [not_not] at two
  subst two
  exact body

theorem takes_times {valid : α → Prop} (each : Takes count read valid) (times : Nat) :
    Takes (times * count) (fun data => Cursor.times (read data) times)
      fun values => values.length = times ∧ ∀ value ∈ values, valid value := by
  induction times with
  | zero =>
      rw [Nat.zero_mul]
      exact takes_pure ⟨rfl, by simp⟩
  | succ times ih =>
      rw [Nat.succ_mul, Nat.add_comm]
      refine each.bind fun first => ih.bind fun rest => takes_pure ?_
      rintro ⟨counted, known⟩ knownFirst
      exact ⟨congrArg (· + 1) counted, List.forall_mem_cons.mpr ⟨knownFirst, known⟩⟩

end

/-! ## Integers, hashes and opaque items -/

/-- One item, whatever it is. -/
abbrev TakesItem {α : Type} (read : Bytes → Decode α) : Prop := Takes 1 read fun _ => True

theorem takes_u64 : TakesItem decodeU64 :=
  (takes_of_items readUint_items fun _ => trivial).bind fun _ => takes_pure fun _ => trivial

theorem takes_u32 (field : String) : TakesItem (decodeU32 field) :=
  takes_u64.bind fun _ => takes_check fun _ => takes_pure fun _ => trivial

theorem takes_u16 (field : String) : TakesItem (decodeU16 field) :=
  takes_u64.bind fun _ => takes_check fun _ => takes_pure fun _ => trivial

theorem takes_version : TakesItem decodeVersion :=
  (takes_u32 _).bind fun _ => takes_check fun _ => takes_pure fun _ => trivial

theorem takes_bytes : TakesItem decodeBytes :=
  (takes_of_items readBytes_items fun _ => trivial).bind fun _ => takes_pure fun _ => trivial

theorem takes_hash32 (reason : String) : TakesItem (decodeHash32 reason) := by
  have checked : ∀ bytes : Bytes, Takes 0 (fun _ =>
      if sized : bytes.toArray.size = 32 then (pure ⟨bytes.toArray, sized⟩ : Decode Hash32)
      else throw (.invalidProtocolMessage reason)) fun _ => True → True := by
    intro bytes
    by_cases sized : bytes.toArray.size = 32
    · simp only [dif_pos sized]
      exact takes_pure fun _ => trivial
    · simp only [dif_neg sized]
      exact takes_thrown _
  exact takes_bytes.bind checked

theorem takes_verbatim : Takes 1 decodeOpaque IsItem :=
  (wrapped_exact readItem_exact).mono fun _ _ known =>
    ⟨known.2, fun _ => known.1 ▸ known.2⟩

theorem takes_params : Takes 1 decodeParams IsItem := takes_verbatim

theorem takes_point : TakesItem decodePoint := by
  refine takes_array fun len => .ite (fun empty => ?_) fun _ => .ite (fun two => ?_) fun _ => takes_thrown _
  · subst empty
    exact takes_pure trivial
  · subst two
    exact takes_u64.bind fun slot => (takes_hash32 _).bind fun hash => takes_pure fun _ _ => trivial

theorem takes_tip : TakesItem decodeTip :=
  takes_pair (takes_point.bind fun _ => takes_u64.bind fun _ => takes_pure fun _ _ => trivial)

/-! ## Lists -/

section
variable {α : Type} {missing : Nat → MessageError} {item : Decode α} {data : Bytes}

theorem items_of_listed {element : Bytes → Decode α} {fact : Bytes → α → Prop} {chunks : List Bytes}
    {values : List α} (isItem : ∀ chunk value, fact chunk value → IsItem chunk)
    (listed : List.Forall₂ (fun chunk value => Reads element chunk value ∧ fact chunk value)
      chunks values) : ∀ chunk ∈ chunks, IsItem chunk := by
  have both : List.Forall₂ (fun chunk value => IsItem chunk ∧ fact chunk value) chunks values :=
    listed.imp fun chunk value known => ⟨isItem chunk value known.2, known.2⟩
  exact ((List.forall₂_and_left ..).mp both).1

theorem decodeUntilBreak_succ (left offset : Nat) :
    (decodeUntilBreak missing data item (left + 1)).runAt offset =
      match data[offset]? with
      | none => (.error (missing offset), offset)
      | some byte =>
          if byte = breakByte then (.ok [], offset + 1)
          else (do
            let first ← item
            let rest ← decodeUntilBreak missing data item left
            return first :: rest : Decode (List α)).runAt offset := by
  rw [decodeUntilBreak, runAt_bind_ok (runAt_get offset)]
  cases data[offset]? with
  | none => rfl
  | some byte =>
      dsimp only
      split_ifs
      · rfl
      · rfl

end

section
variable {α : Type} {missing : Bytes → Nat → MessageError} {item : Bytes → Decode α}
  {fact : Bytes → α → Prop}

theorem decodeUntilBreak_ok (each : Exact (fun _ => item) fact) {missing : Nat → MessageError} {left : Nat}
    {before rest : Bytes} {values : List α} {after : Nat}
    (ran : (decodeUntilBreak missing (before ++ rest) (item (before ++ rest)) left).runAt before.length =
      (.ok values, after)) :
    ∃ chunks remaining, rest = chunks.flatten ++ breakByte :: remaining ∧
      after = before.length + chunks.flatten.length + 1 ∧
        List.Forall₂ (fun chunk value => Reads item chunk value ∧ fact chunk value) chunks values := by
  induction left generalizing before rest values after with
  | zero => cases ran
  | succ left ih =>
      rw [decodeUntilBreak_succ] at ran
      cases rest with
      | nil =>
          rw [List.getElem?_eq_none (by simp)] at ran
          cases ran
      | cons byte rest =>
          rw [List.getElem?_append_right (Nat.le_refl _), Nat.sub_self, List.getElem?_cons_zero] at ran
          dsimp only at ran
          split_ifs at ran with broken
          · cases ran
            exact ⟨[], rest, by rw [broken]; rfl, rfl, .nil⟩
          · obtain ⟨value, middle, first, ran⟩ := of_runAt_bind_ok ran
            obtain ⟨chunk, remaining, split, rfl, reads, known⟩ := each 0 _ _ _ _ first
            rw [split, ← List.append_assoc, ← List.length_append] at ran
            obtain ⟨others, last, tail, returned⟩ := of_runAt_bind_ok ran
            cases returned
            obtain ⟨chunks, remaining, rfl, rfl, listed⟩ := ih tail
            refine ⟨chunk :: chunks, remaining, ?_, ?_, .cons ⟨reads 0, known⟩ listed⟩
            · rw [split, List.flatten_cons, List.append_assoc]
            · rw [List.flatten_cons, List.length_append, List.length_append, Nat.add_assoc before.length]

/-- As long as every segment is an item, the break byte behind them is what stops the loop. -/
theorem decodeUntilBreak_runs {missing : Nat → MessageError} {data : Bytes} {item : Decode α}
    {chunks : List Bytes} {values : List α} {offset : Nat}
    (runs : Cursor.RunsOver item offset chunks values) (items : ∀ chunk ∈ chunks, IsItem chunk)
    (before after : Bytes) (reached : offset = before.length)
    (stands : data = before ++ (chunks.flatten ++ breakByte :: after)) {left : Nat}
    (enough : chunks.length < left) :
    (decodeUntilBreak missing data item left).runAt offset =
      (.ok values, offset + chunks.flatten.length + 1) := by
  induction runs generalizing before left with
  | nil offset =>
      obtain ⟨left, rfl⟩ := Nat.exists_eq_succ_of_ne_zero (Nat.ne_of_gt enough)
      have here : data[offset]? = some breakByte := by
        rw [stands, reached]
        simp
      rw [decodeUntilBreak_succ, here]
      rfl
  | @cons offset chunk chunks value values head tail ih =>
      obtain ⟨left, rfl⟩ := Nat.exists_eq_succ_of_ne_zero (Nat.ne_of_gt (Nat.zero_lt_of_lt enough))
      have isItem := items chunk (List.mem_cons_self ..)
      obtain ⟨byte, written, rfl⟩ := List.exists_cons_of_ne_nil isItem.ne_nil
      have rest := ih (fun other member => items other (List.mem_cons_of_mem _ member))
        (before ++ byte :: written) (by rw [reached, List.length_append])
        (by rw [stands, List.flatten_cons, List.append_assoc, List.append_assoc])
        (Nat.lt_of_succ_lt_succ enough)
      have here : data[offset]? = some byte := by
        rw [stands, reached]
        simp
      rw [decodeUntilBreak_succ, here]
      dsimp only
      rw [if_neg isItem.head_ne_break, runAt_bind_ok head, runAt_bind_ok rest, List.flatten_cons,
        List.length_append, Nat.add_assoc offset]
      rfl

theorem decodeList_runs {missing : Nat → MessageError} {data : Bytes} {item : Decode α}
    {header tail before after : Bytes} {chunks : List Bytes} {values : List α}
    (array : IsArray header chunks tail) (items : ∀ chunk ∈ chunks, IsItem chunk)
    (stands : data = before ++ (header ++ (chunks.flatten ++ tail)) ++ after)
    (runs : Cursor.RunsOver item (before.length + header.length) chunks values) :
    (decodeList missing data item).runAt before.length =
      (.ok values, before.length + (header ++ (chunks.flatten ++ tail)).length) := by
  unfold decodeList
  cases array with
  | definite reads counted =>
      have head := wrapped_reads reads before (chunks.flatten ++ [] ++ after)
      simp only [List.append_assoc, List.append_nil] at head stands
      rw [← stands] at head
      rw [runAt_bind_ok head]
      dsimp only
      rw [← counted, runs.times, List.append_nil, List.length_append, Nat.add_assoc]
  | indefinite reads =>
      have head := wrapped_reads reads before (chunks.flatten ++ [breakByte] ++ after)
      simp only [List.append_assoc, List.singleton_append] at head stands
      rw [← stands] at head
      rw [runAt_bind_ok head]
      dsimp only
      have short := length_le_flatten items
      have enough : chunks.length < data.length := by
        rw [stands]
        simp only [List.length_append, List.length_cons]
        omega
      have stands' : data = before ++ header ++ (chunks.flatten ++ breakByte :: after) := by
        rw [stands, List.append_assoc]
      rw [decodeUntilBreak_runs runs items (before ++ header) after (List.length_append ..).symm stands' enough]
      simp only [List.length_append, List.length_singleton, Nat.add_assoc]

/-- A list is read as it is written, in either form. -/
theorem decodeList_reads {header tail : Bytes} {chunks : List Bytes} {values : List α}
    (array : IsArray header chunks tail) (items : ∀ chunk ∈ chunks, IsItem chunk)
    (each : List.Forall₂ (Reads item) chunks values) :
    Reads (fun data => decodeList (missing data) data (item data)) (header ++ (chunks.flatten ++ tail))
      values := by
  intro before after
  apply decodeList_runs array items rfl
  have runs := Reads.runsOver each (before ++ header) (tail ++ after)
  rw [List.length_append] at runs
  simp only [List.append_assoc] at runs ⊢
  exact runs

theorem decodeList_exact (each : Exact (fun _ => item) fact)
    (isItem : ∀ chunk value, fact chunk value → IsItem chunk) :
    Exact (fun _ data => decodeList (missing data) data (item data)) fun written values =>
      ∃ header chunks tail, written = header ++ (chunks.flatten ++ tail) ∧ IsArray header chunks tail ∧
        List.Forall₂ fact chunks values := by
  have whole : ∀ {header tail : Bytes} {chunks : List Bytes} {values : List α},
      IsArray header chunks tail →
      List.Forall₂ (fun chunk value => Reads item chunk value ∧ fact chunk value) chunks values →
      Reads (fun data => decodeList (missing data) data (item data)) (header ++ (chunks.flatten ++ tail))
        values ∧ List.Forall₂ fact chunks values := by
    intro header tail chunks values array listed
    have items := items_of_listed isItem listed
    exact ⟨decodeList_reads array items (listed.imp fun _ _ known => known.1),
      listed.imp fun _ _ known => known.2⟩
  intro _ before rest values after ran
  unfold decodeList at ran
  obtain ⟨encoding, middle, headerRan, ran⟩ := of_runAt_bind_ok ran
  obtain ⟨header, remaining, rfl, rfl, -, reads, -⟩ :=
    wrapped_exact (Exact.reads (readContainerHeader_exact "array" (.inl rfl))) 0 _ _ _ _ headerRan
  rw [← List.append_assoc, ← List.length_append] at ran
  cases encoding with
  | definite count width =>
      obtain ⟨written, remaining, rfl, rfl, -, chunks, rfl, counted, listed⟩ :=
        each.reads.times count.toNat 0 _ _ _ _ ran
      have array : IsArray header chunks [] := .definite reads counted
      obtain ⟨read, facts⟩ := whole array listed
      rw [List.append_nil] at read
      refine ⟨_, remaining, (List.append_assoc ..).symm, ?_, fun _ => read, header, chunks, [], ?_, array,
        facts⟩
      · rw [List.length_append, List.length_append, Nat.add_assoc]
      · rw [List.append_nil]
  | indefinite =>
      obtain ⟨chunks, remaining, rfl, rfl, listed⟩ := decodeUntilBreak_ok each ran
      have array : IsArray header chunks [breakByte] := .indefinite reads
      obtain ⟨read, facts⟩ := whole array listed
      refine ⟨_, remaining, ?_, ?_, fun _ => read, header, chunks, [breakByte], rfl, array, facts⟩
      · simp only [List.append_assoc, List.singleton_append]
      · simp only [List.length_append, List.length_singleton, Nat.add_assoc]

theorem takes_list {valid : α → Prop} (each : Takes 1 item valid) :
    Takes 1 (fun data => decodeList (missing data) data (item data))
      fun values => values.length < 2 ^ 64 ∧ ∀ value ∈ values, valid value := by
  refine (decodeList_exact each fun _ _ known => known.1).mono ?_
  rintro written values ⟨header, chunks, tail, rfl, array, listed⟩
  have items : ∀ chunk ∈ chunks, IsItem chunk := ((List.forall₂_and_left ..).mp listed).1
  refine ⟨array.isItem items, fun short => ?_⟩
  have counted := length_le_flatten items
  simp only [List.length_append] at short
  refine ⟨by rw [← List.Forall₂.length_eq listed]; omega, ?_⟩
  clear array items counted
  induction listed with
  | nil => simp
  | @cons chunk value chunks values known _ ih =>
      rw [List.flatten_cons, List.length_append] at short
      exact List.forall_mem_cons.mpr ⟨known.2 (by omega), ih (by omega)⟩

end

/-! ## What is accepted -/

section
variable {α : Type} {valid : α → Prop}

theorem takes_tagged {body : Bytes → UInt64 → UInt64 → Decode α} (reason : String)
    (each : ∀ tag arrLen, Takes (arrLen.toNat - 1) (fun data => body data tag arrLen) valid) :
    Takes 1 (fun data => do
      let arrLen ← decodeArrayHeader data
      if arrLen < 1 then throw (.invalidProtocolMessage reason)
      let tag ← decodeU64 data
      body data tag arrLen) valid := by
  refine takes_array fun len => takes_check fun some_ => ?_
  have fields : len.toNat = 1 + (len.toNat - 1) := by
    rw [UInt64.lt_iff_toNat_lt] at some_
    have one : (1 : UInt64).toNat = 1 := rfl
    omega
  rw [fields]
  refine takes_u64.bind fun tag => (each tag len).mono fun _ known _ => known

/-- A branch of a message body is taken for one length. -/
theorem takes_branch {count : Nat} {tag arrLen expected len : UInt64} {read other : Bytes → Decode α}
    (body : Takes count read valid) (counted : len.toNat - 1 = count)
    (rest : Takes (arrLen.toNat - 1) other valid) :
    Takes (arrLen.toNat - 1) (fun data => if tag = expected ∧ arrLen = len then read data else other data)
      valid := by
  refine .ite (fun chosen => ?_) fun _ => rest
  rw [chosen.2, counted]
  exact body

end

/-- The segments that a message carries without a look at them, and the lengths that it writes. -/
def ChainSyncMessage.opaques : ChainSyncMessage → List Bytes
  | .rollForward header _ => [header]
  | .requestNext | .awaitReply | .rollBackward _ _ | .findIntersect _ | .intersectFound _ _
  | .intersectNotFound _ | .done => []

def ChainSyncMessage.lengths : ChainSyncMessage → List Nat
  | .findIntersect points => [points.length]
  | .requestNext | .awaitReply | .rollForward _ _ | .rollBackward _ _ | .intersectFound _ _
  | .intersectNotFound _ | .done => []

def BlockFetchMessage.opaques : BlockFetchMessage → List Bytes
  | .block bytes => [bytes]
  | .requestRange _ | .clientDone | .startBatch | .noBlocks | .batchDone => []

def TxSubmission2Message.opaques : TxSubmission2Message → List Bytes
  | .replyTxs txs => txs
  | .init | .requestTxIds _ _ _ | .replyTxIds _ | .requestTxs _ | .done => []

def HandshakeMessage.opaques : HandshakeMessage → List Bytes
  | .proposeVersions table | .queryReply table => table.map Prod.snd
  | .acceptVersion _ params => [params]
  | .refuse _ => []

def HandshakeMessage.lengths : HandshakeMessage → List Nat
  | .proposeVersions table | .queryReply table => [table.length]
  | .acceptVersion _ _ => []
  | .refuse (.versionMismatch versions) => [versions.length]
  | .refuse (.handshakeDecodeError _ reason) | .refuse (.refused _ reason) =>
      [reason.toUTF8.data.toList.length]

/-- No length is written in front of a list. -/
def noLengths {μ : Type} (_ : μ) : List Nat := []

/-- Opaque segments are one item each, and lengths can be written. -/
def Valid {μ : Type} (opaques : μ → List Bytes) (lengths : μ → List Nat) (message : μ) : Prop :=
  (∀ segment ∈ opaques message, IsItem segment) ∧ ∀ length ∈ lengths message, length < 2 ^ 64

section
variable {μ : Type} {opaques : μ → List Bytes} {lengths : μ → List Nat} {message : μ}

theorem valid_of_nothing (noOpaque : opaques message = []) (noLength : lengths message = []) :
    Valid opaques lengths message := by
  simp [Valid, noOpaque, noLength]

theorem valid_of_one {segment : Bytes} (one : opaques message = [segment]) (noLength : lengths message = [])
    (item : IsItem segment) : Valid opaques lengths message := by
  simpa [Valid, one, noLength] using item

end

theorem decodeChainSync_takes : Takes 1 (decodeTagged decodeChainSyncBody)
    (Valid ChainSyncMessage.opaques ChainSyncMessage.lengths) := by
  refine takes_tagged "empty outer array" fun tag arrLen => ?_
  refine takes_branch (takes_pure (valid_of_nothing rfl rfl)) rfl ?_
  refine takes_branch (takes_pure (valid_of_nothing rfl rfl)) rfl ?_
  refine takes_branch (takes_verbatim.bind fun header => takes_tip.bind fun tip => takes_pure fun _ item =>
    valid_of_one rfl rfl item) rfl ?_
  refine takes_branch (takes_point.bind fun point => takes_tip.bind fun tip => takes_pure fun _ _ =>
    valid_of_nothing rfl rfl) rfl ?_
  refine takes_branch (Takes.bind (takes_list takes_point) fun points => takes_pure fun known =>
    ⟨by simp [ChainSyncMessage.opaques], by simpa [ChainSyncMessage.lengths] using known.1⟩) rfl ?_
  refine takes_branch (takes_point.bind fun point => takes_tip.bind fun tip => takes_pure fun _ _ =>
    valid_of_nothing rfl rfl) rfl ?_
  refine takes_branch (takes_tip.bind fun tip => takes_pure fun _ => valid_of_nothing rfl rfl) rfl ?_
  exact takes_branch (takes_pure (valid_of_nothing rfl rfl)) rfl (takes_thrown _)

theorem decodeBlockFetch_takes : Takes 1 (decodeTagged decodeBlockFetchBody)
    (Valid BlockFetchMessage.opaques noLengths) := by
  refine takes_tagged "empty outer array" fun tag arrLen => ?_
  refine takes_branch (takes_point.bind fun first => takes_point.bind fun last => takes_pure fun _ _ =>
    valid_of_nothing rfl rfl) rfl ?_
  refine takes_branch (takes_pure (valid_of_nothing rfl rfl)) rfl ?_
  refine takes_branch (takes_pure (valid_of_nothing rfl rfl)) rfl ?_
  refine takes_branch (takes_pure (valid_of_nothing rfl rfl)) rfl ?_
  refine takes_branch (takes_verbatim.bind fun bytes => takes_pure fun item => valid_of_one rfl rfl item) rfl ?_
  exact takes_branch (takes_pure (valid_of_nothing rfl rfl)) rfl (takes_thrown _)

theorem takes_txid : TakesItem decodeTxSubmissionTxid :=
  takes_pair (takes_u64.bind fun _ => (takes_hash32 _).bind fun _ => takes_pure fun _ _ => trivial)

theorem takes_txIdAndSize : TakesItem decodeTxIdAndSize :=
  takes_pair (takes_txid.bind fun _ => (takes_u32 _).bind fun _ => takes_pure fun _ _ => trivial)

theorem readBool_items : Items readBool := by
  have checked : ∀ byte : UInt8, Exact (fun start (_ : Bytes) =>
      if byte = 0xf4 then (pure false : Read Bool)
      else if byte = 0xf5 then pure true
      else throw (.invalidCborStructure start "expected CBOR boolean (0xf4/0xf5)"))
      fun written value => written = [] ∧ [byte] = writeBool value := by
    intro byte
    refine .ite (fun no => ?_) fun _ => .ite (fun yes => ?_) fun _ => .thrown _
    · refine (Exact.pure false).mono ?_
      rintro written value ⟨rfl, rfl⟩
      exact ⟨rfl, congrArg ([·]) no⟩
    · refine (Exact.pure true).mono ?_
      rintro written value ⟨rfl, rfl⟩
      exact ⟨rfl, congrArg ([·]) yes⟩
  refine Exact.mono (Exact.get_bind (Exact.bind readByte_exact checked)) ?_
  rintro written value ⟨head, tail, byte, rfl, rfl, rfl, same⟩
  rw [List.append_nil, same]
  exact isItem_writeBool value

theorem takes_bool : TakesItem decodeBool := takes_of_items readBool_items fun _ => trivial

theorem decodeTxSubmission_takes : Takes 1 (decodeTagged decodeTxSubmissionBody)
    (Valid TxSubmission2Message.opaques noLengths) := by
  refine takes_tagged "empty outer array" fun tag arrLen => ?_
  refine takes_branch (takes_pure (valid_of_nothing rfl rfl)) rfl ?_
  refine takes_branch (takes_bool.bind fun blocking => (takes_u16 _).bind fun ack =>
    (takes_u16 _).bind fun req => takes_pure fun _ _ _ => valid_of_nothing rfl rfl) rfl ?_
  refine takes_branch (Takes.bind (takes_list takes_txIdAndSize) fun entries => takes_pure fun _ =>
    valid_of_nothing rfl rfl) rfl ?_
  refine takes_branch (Takes.bind (takes_list takes_txid) fun ids => takes_pure fun _ =>
    valid_of_nothing rfl rfl) rfl ?_
  refine takes_branch (Takes.bind (takes_list takes_verbatim) fun txs => takes_pure fun known =>
    ⟨known.2, by simp [noLengths]⟩) rfl ?_
  exact takes_branch (takes_pure (valid_of_nothing rfl rfl)) rfl (takes_thrown _)

/-! ### Handshake -/

theorem takes_text (field : String) :
    Takes 1 (decodeText field) fun text => text.toUTF8.data.toList.length < 2 ^ 64 := by
  have inner : Takes 1 (fun data => ExceptT.adapt (textError field) (readText data))
      fun value => value.1.toUTF8.data.toList.length < 2 ^ 64 :=
    (readText_exact.adapt (textError field)).mono fun _ _ known => ⟨isItem_leaf known.1, fun _ => known.2⟩
  exact inner.bind fun _ => takes_pure fun short => short

/-- The header of a map owes two items for each entry. -/
theorem takes_map {α : Type} {valid : α → Prop} {next : UInt64 → Bytes → Decode α}
    (reason : String) (body : ∀ len, Takes (len.toNat * 2) (next len) valid) :
    Takes 1 (fun data => wrapped (readMapHeader data) >>= fun encoding =>
      match encoding with
      | .definite len _ => next len data
      | .indefinite => throw (.invalidProtocolMessage reason)) valid := by
  have header := wrapped_exact (readContainerHeader_exact "map" (.inr rfl))
  have rest : ∀ encoding : ContainerEncoding, Exact (fun _ (data : Bytes) =>
      match encoding with
      | .definite len _ => next len data
      | .indefinite => throw (.invalidProtocolMessage reason))
      fun written value => ∃ len width, encoding = .definite len width ∧
        SkipsOver [some (len.toNat * 2)] written ∧ (written.length < 2 ^ 64 → valid value) := by
    intro encoding
    cases encoding with
    | definite len width => exact Exact.mono (body len) fun _ _ known => ⟨len, width, rfl, known⟩
    | indefinite => exact Exact.thrown fun _ => _
  refine (Exact.bind header rest).mono ?_
  rintro written value ⟨head, tail, encoding, rfl, seen, len, width, rfl, skips, known⟩
  refine ⟨isItem_of_head seen skips, fun short => known ?_⟩
  rw [List.length_append] at short
  omega

theorem takes_versionTable : Takes 1 decodeVersionTable fun table =>
    table.length < 2 ^ 64 ∧ ∀ entry ∈ table, IsItem entry.2 := by
  have entry : Takes 2 decodeVersionEntry fun entry => IsItem entry.2 :=
    takes_version.bind fun version => takes_params.bind fun params =>
      @takes_pure _ (fun entry => _ → True → IsItem entry.2) (version, params) fun item _ => item
  refine takes_map "indefinite-length version table not allowed" fun len => ?_
  refine (takes_times entry len.toNat).mono fun table known => ⟨?_, known.2⟩
  rw [known.1]
  exact len.toNat_lt

theorem takes_refuseReason : Takes 1 decodeRefuseReason fun reason =>
    ∀ length ∈ HandshakeMessage.lengths (.refuse reason), length < 2 ^ 64 := by
  have tagged := @takes_tagged RefuseReason
    (fun reason => ∀ length ∈ HandshakeMessage.lengths (.refuse reason), length < 2 ^ 64)
    (fun data tag arrLen => do
      if tag = 0 ∧ arrLen = 2 then
        let count ← decodeArrayHeader data
        return .versionMismatch (← Cursor.times (decodeVersion data) count.toNat)
      else if tag = 1 ∧ arrLen = 3 then
        let version ← decodeVersion data
        return .handshakeDecodeError version (← decodeText "handshake decode error reason" data)
      else if tag = 2 ∧ arrLen = 3 then
        let version ← decodeVersion data
        return .refused version (← decodeText "refused reason" data)
      else throw (.unknownTag tag)) "refuse reason has zero-length array" fun tag arrLen => ?_
  · exact tagged
  have versions : ∀ count : UInt64, Takes count.toNat (fun data => do
      return .versionMismatch (← Cursor.times (decodeVersion data) count.toNat))
      fun reason => ∀ length ∈ HandshakeMessage.lengths (.refuse reason), length < 2 ^ 64 := by
    intro count
    have listed := takes_times takes_version count.toNat
    rw [Nat.mul_one] at listed
    refine listed.bind fun values => takes_pure fun known => ?_
    have small := count.toNat_lt
    simpa [HandshakeMessage.lengths, known.1] using small
  refine takes_branch (takes_array versions) rfl ?_
  refine takes_branch (takes_version.bind fun version => (takes_text _).bind fun reason =>
    takes_pure fun short _ => by simpa [HandshakeMessage.lengths] using short) rfl ?_
  exact takes_branch (takes_version.bind fun version => (takes_text _).bind fun reason =>
    takes_pure fun short _ => by simpa [HandshakeMessage.lengths] using short) rfl (takes_thrown _)

theorem valid_table {table : VersionTable} {message : HandshakeMessage}
    (carried : HandshakeMessage.opaques message = table.map Prod.snd)
    (written : HandshakeMessage.lengths message = [table.length])
    (known : table.length < 2 ^ 64 ∧ ∀ entry ∈ table, IsItem entry.2) :
    Valid HandshakeMessage.opaques HandshakeMessage.lengths message := by
  unfold Valid
  rw [carried, written, List.forall_mem_map, List.forall_mem_singleton]
  exact ⟨known.2, known.1⟩

theorem decodeHandshake_takes : Takes 1 decodeMessage
    (Valid HandshakeMessage.opaques HandshakeMessage.lengths) := by
  refine takes_tagged "empty outer array" fun tag arrLen => ?_
  refine takes_branch (takes_versionTable.bind fun table => takes_pure fun known =>
    valid_table rfl rfl known) rfl ?_
  refine takes_branch (takes_version.bind fun version => takes_params.bind fun params =>
    takes_pure fun item _ => valid_of_one rfl rfl item) rfl ?_
  refine takes_branch (takes_refuseReason.bind fun reason => takes_pure fun known => ?_) rfl ?_
  · exact ⟨by simp [HandshakeMessage.opaques], known⟩
  exact takes_branch (takes_versionTable.bind fun table => takes_pure fun known =>
    valid_table rfl rfl known) rfl (takes_thrown _)

/-! ## What is written -/

theorem tagged_reads {α : Type} {body : Bytes → UInt64 → UInt64 → Decode α} {arrLen tag : UInt64}
    {written : Bytes} {message : α} (some_ : ¬ arrLen < 1)
    (reads : Reads (fun data => body data tag arrLen) written message) :
    Reads (decodeTagged body) (encodeArrayHeader arrLen ++ encodeU64 tag ++ written) message := by
  rw [List.append_assoc]
  refine (decodeArrayHeader_reads arrLen).bind ?_
  simp only [if_neg some_]
  exact (decodeU64_reads tag).bind reads

theorem bare_reads {α : Type} {body : Bytes → UInt64 → UInt64 → Decode α} {arrLen tag : UInt64}
    {message : α} (some_ : ¬ arrLen < 1) (reads : Reads (fun data => body data tag arrLen) [] message) :
    Reads (decodeTagged body) (encodeArrayHeader arrLen ++ encodeU64 tag) message := by
  have tagged := tagged_reads some_ reads
  rwa [List.append_nil] at tagged

theorem pair_reads {α : Type} {next : Bytes → Decode α} {reason : String} {written : Bytes} {value : α}
    (reads : Reads next written value) :
    Reads (fun data => decodePair reason data (next data)) (encodeArrayHeader 2 ++ written) value :=
  (decodeArrayHeader_reads 2).bind reads

theorem decodeHash32_reads (reason : String) (hash : Hash32) :
    Reads (decodeHash32 reason) (encodeBytes hash.toList) hash := by
  have short : hash.toList.length < 2 ^ 64 := by
    rw [Vector.length_toList]
    decide
  have bytes : Reads decodeBytes (encodeBytes hash.toList) hash.toList :=
    (wrapped_reads (readBytes_reads hash.toList short)).last (Reads.pure _)
  refine bytes.last ?_
  have sized : hash.toList.toArray.size = 32 := by simp
  have same : (⟨hash.toList.toArray, sized⟩ : Hash32) = hash := by
    apply Vector.toArray_inj.mp
    simp [Vector.toList]
  simp only [dif_pos sized, same]
  exact Reads.pure hash

theorem decodePoint_reads (point : Network.Point) : Reads decodePoint (encodePoint point) point := by
  cases point with
  | origin => exact (decodeArrayHeader_reads 0).last (Reads.pure _)
  | block slot hash =>
      rw [encodePoint, List.append_assoc]
      exact (decodeArrayHeader_reads 2).bind
        ((decodeU64_reads slot).bind ((decodeHash32_reads _ hash).last (Reads.pure _)))

theorem decodeTip_reads (tip : Tip) : Reads decodeTip (encodeTip tip) tip := by
  rw [encodeTip, List.append_assoc]
  exact pair_reads ((decodePoint_reads tip.point).bind ((decodeU64_reads tip.blockNo).last (Reads.pure _)))

theorem decodeOpaque_reads {segment : Bytes} (item : IsItem segment) :
    Reads decodeOpaque segment segment :=
  wrapped_reads (readItem_reads item)

theorem isItem_encodePoint (point : Network.Point) : IsItem (encodePoint point) :=
  (Exact.fact_of_reads takes_point (decodePoint_reads point)).1

theorem decodeFindIntersectPoints_reads {points : List Network.Point} (short : points.length < 2 ^ 64) :
    Reads decodeFindIntersectPoints
      (encodeArrayHeader (UInt64.ofNat points.length) ++ (points.map encodePoint).flatten) points := by
  have counted : (points.map encodePoint).length = (UInt64.ofNat points.length).toNat := by
    rw [List.length_map]
    simpa using (Nat.mod_eq_of_lt short).symm
  have array : IsArray (encodeArrayHeader (UInt64.ofNat points.length)) (points.map encodePoint) [] :=
    .definite (readArrayHeader_reads _) counted
  have items : ∀ chunk ∈ points.map encodePoint, IsItem chunk := by
    rw [List.forall_mem_map]
    exact fun point _ => isItem_encodePoint point
  have each : List.Forall₂ (Reads decodePoint) (points.map encodePoint) points := by
    rw [List.forall₂_map_left_iff, List.forall₂_same]
    exact fun point _ => decodePoint_reads point
  have listed := @decodeList_reads _ (fun _ _ => .invalidProtocolMessage
    "indefinite FindIntersect points list missing break") _ _ _ _ _ array items each
  rwa [List.append_nil] at listed

theorem decodeChainSync_reads {message : ChainSyncMessage}
    (valid : Valid ChainSyncMessage.opaques ChainSyncMessage.lengths message) :
    Reads (decodeTagged decodeChainSyncBody) (encodeChainSyncMessage message) message := by
  cases message with
  | requestNext => exact bare_reads (by decide) (Reads.pure _)
  | awaitReply => exact bare_reads (by decide) (Reads.pure _)
  | rollForward header tip =>
      have item : IsItem header := valid.1 header (List.mem_singleton_self header)
      exact tagged_reads (by decide)
        ((decodeOpaque_reads item).bind ((decodeTip_reads tip).last (Reads.pure _)))
  | rollBackward point tip =>
      exact tagged_reads (by decide)
        ((decodePoint_reads point).bind ((decodeTip_reads tip).last (Reads.pure _)))
  | findIntersect points =>
      have short : points.length < 2 ^ 64 := valid.2 points.length (List.mem_singleton_self _)
      exact tagged_reads (by decide) ((decodeFindIntersectPoints_reads short).last (Reads.pure _))
  | intersectFound point tip =>
      exact tagged_reads (by decide)
        ((decodePoint_reads point).bind ((decodeTip_reads tip).last (Reads.pure _)))
  | intersectNotFound tip => exact tagged_reads (by decide) ((decodeTip_reads tip).last (Reads.pure _))
  | done => exact bare_reads (by decide) (Reads.pure _)

theorem decodeBlockFetch_reads {message : BlockFetchMessage}
    (valid : Valid BlockFetchMessage.opaques noLengths message) :
    Reads (decodeTagged decodeBlockFetchBody) (encodeBlockFetchMessage message) message := by
  cases message with
  | requestRange range =>
      exact tagged_reads (by decide)
        ((decodePoint_reads range.from_).bind ((decodePoint_reads range.to_).last (Reads.pure _)))
  | clientDone => exact bare_reads (by decide) (Reads.pure _)
  | startBatch => exact bare_reads (by decide) (Reads.pure _)
  | noBlocks => exact bare_reads (by decide) (Reads.pure _)
  | block bytes =>
      have item : IsItem bytes := valid.1 bytes (List.mem_singleton_self bytes)
      exact tagged_reads (by decide) ((decodeOpaque_reads item).last (Reads.pure _))
  | batchDone => exact bare_reads (by decide) (Reads.pure _)

/-! ### Lists of indefinite length -/

theorem indefiniteHeader_reads :
    Reads readArrayHeader (writeArrayHeader .indefinite) .indefinite := by
  have written : writeArrayHeader .indefinite = [initialByte majorArray 31] := rfl
  rw [written]
  refine Reads.get_bind fun start => ?_
  exact (decodeInitial_reads (by decide) (by decide)).last (Reads.pure _)

theorem decodeSeq_reads {α : Type} {item : Bytes → Decode α} {chunks : List Bytes} {values : List α}
    (items : ∀ chunk ∈ chunks, IsItem chunk) (each : List.Forall₂ (Reads item) chunks values) :
    Reads (fun data => decodeSeq data (item data)) (encodeSeq chunks) values :=
  decodeList_reads (.indefinite indefiniteHeader_reads) items each

theorem decodeSeq_map_reads {α : Type} {item : Bytes → Decode α} {encode : α → Bytes}
    (takes : TakesItem item) (each : ∀ value, Reads item (encode value) value) (values : List α) :
    Reads (fun data => decodeSeq data (item data)) (encodeSeq (values.map encode)) values := by
  apply decodeSeq_reads
  · rw [List.forall_mem_map]
    exact fun value _ => (Exact.fact_of_reads takes (each value)).1
  · rw [List.forall₂_map_left_iff, List.forall₂_same]
    exact fun value _ => each value

theorem decodeTxSubmissionTxid_reads (txId : TxSubmissionTxId) :
    Reads decodeTxSubmissionTxid (encodeTxSubmissionTxid txId) txId := by
  rw [encodeTxSubmissionTxid, List.append_assoc]
  exact pair_reads ((decodeU64_reads txId.era).bind ((decodeHash32_reads _ txId.id).last (Reads.pure _)))

theorem decodeU32_reads (field : String) (value : UInt32) :
    Reads (decodeU32 field) (encodeU64 value.toUInt64) value := by
  have small := value.toNat_lt
  have narrow : ¬ value.toUInt64.toNat ≥ 2 ^ 32 := by
    rw [UInt32.toNat_toUInt64]
    omega
  have word : value.toUInt64.toUInt32 = value := by
    apply UInt32.toNat_inj.mp
    rw [UInt64.toNat_toUInt32, UInt32.toNat_toUInt64]
    omega
  refine (decodeU64_reads _).last ?_
  simp only [if_neg narrow, word]
  exact Reads.pure _

theorem decodeU16_reads (field : String) (value : UInt16) :
    Reads (decodeU16 field) (encodeU64 value.toUInt64) value := by
  have small := value.toNat_lt
  have narrow : ¬ value.toUInt64.toNat ≥ 2 ^ 16 := by
    rw [UInt16.toNat_toUInt64]
    omega
  have word : value.toUInt64.toUInt16 = value := by
    apply UInt16.toNat_inj.mp
    rw [UInt64.toNat_toUInt16, UInt16.toNat_toUInt64]
    omega
  refine (decodeU64_reads _).last ?_
  simp only [if_neg narrow, word]
  exact Reads.pure _

theorem decodeTxIdAndSize_reads (entry : TxIdAndSize) :
    Reads decodeTxIdAndSize (encodeTxIdAndSize entry) entry := by
  rw [encodeTxIdAndSize, List.append_assoc]
  exact pair_reads ((decodeTxSubmissionTxid_reads entry.txId).bind
    ((decodeU32_reads _ entry.size).last (Reads.pure _)))

theorem decodeBool_reads (b : Bool) : Reads decodeBool (encodeBool b) b := by
  have byte : ∃ byte, encodeBool b = [byte] ∧ byte = if b then 0xf5 else 0xf4 := by
    cases b <;> exact ⟨_, rfl, rfl⟩
  obtain ⟨byte, written, same⟩ := byte
  rw [written]
  refine wrapped_reads (Reads.get_bind fun start => (readByte_reads byte).last ?_)
  cases b <;> subst same <;> exact Reads.pure _

theorem decodeTxSubmission_reads {message : TxSubmission2Message}
    (valid : Valid TxSubmission2Message.opaques noLengths message) :
    Reads (decodeTagged decodeTxSubmissionBody) (encodeTxSubmissionMessage message) message := by
  cases message with
  | init => exact bare_reads (by decide) (Reads.pure _)
  | requestTxIds blocking ack req =>
      exact tagged_reads (by decide) ((decodeBool_reads blocking).bind
        ((decodeU16_reads "ack" ack).bind ((decodeU16_reads "req" req).last (Reads.pure _))))
  | replyTxIds entries =>
      exact tagged_reads (by decide)
        ((decodeSeq_map_reads takes_txIdAndSize decodeTxIdAndSize_reads entries).last (Reads.pure _))
  | requestTxs ids =>
      exact tagged_reads (by decide)
        ((decodeSeq_map_reads takes_txid decodeTxSubmissionTxid_reads ids).last (Reads.pure _))
  | replyTxs txs =>
      have each : List.Forall₂ (Reads decodeOpaque) txs txs := by
        rw [List.forall₂_same]
        exact fun tx member => decodeOpaque_reads (valid.1 tx member)
      exact tagged_reads (by decide) ((decodeSeq_reads valid.1 each).last (Reads.pure _))
  | done => exact bare_reads (by decide) (Reads.pure _)

theorem decodeHandshake_reads {message : HandshakeMessage}
    (valid : Valid HandshakeMessage.opaques HandshakeMessage.lengths message) :
    Reads decodeMessage (encodeHandshakeMessage message) message := by
  have table : ∀ {table : VersionTable}, (∀ segment ∈ table.map Prod.snd, IsItem segment) →
      ∀ entry ∈ table, IsItem entry.2 := by
    intro table each
    rwa [List.forall_mem_map] at each
  apply decodeMessage_encode_reads
  cases message with
  | proposeVersions entries => exact ⟨valid.2 _ (List.mem_singleton_self _), table valid.1⟩
  | queryReply entries => exact ⟨valid.2 _ (List.mem_singleton_self _), table valid.1⟩
  | acceptVersion version params => exact valid.1 params (List.mem_singleton_self _)
  | refuse reason => cases reason <;> exact valid.2 _ (List.mem_singleton_self _)

/-! ## The statement -/

/-- Exactly one item for the walker that cuts the stream. -/
def SingleItem (bytes : Bytes) : Prop := skipItem bytes 0 = (.ok (0, bytes.length), bytes.length)

theorem singleItem_iff {bytes : Bytes} : SingleItem bytes ↔ IsItem bytes := Ade.Proof.Codec.singleItem_iff

/-- A codec whose messages are framed as they are cut from the stream. Rust's slices, vectors and
strings are shorter than 2 ^ 64. -/
def RoundTrips {μ : Type} (encode : μ → Bytes) (decode : Bytes → Except MessageError μ)
    (opaques : μ → List Bytes) (lengths : μ → List Nat) : Prop :=
  (∀ message, (∀ segment ∈ opaques message, SingleItem segment) →
    (∀ length ∈ lengths message, length < 2 ^ 64) →
      decode (encode message) = .ok message ∧ SingleItem (encode message)) ∧
  ∀ bytes message, bytes.length < 2 ^ 64 → decode bytes = .ok message →
    SingleItem bytes ∧ decode (encode message) = .ok message

section
variable {μ : Type} {message : Bytes → Decode μ} {encode : μ → Bytes} {opaques : μ → List Bytes}
  {lengths : μ → List Nat}

theorem decodeWhole_ok {bytes : Bytes} {decoded : μ} : decodeWhole message bytes = .ok decoded ↔
    bytes ≠ [] ∧ (message bytes).runAt 0 = (.ok decoded, bytes.length) := by
  unfold decodeWhole
  split_ifs with empty
  · simp [empty]
  · rcases (message bytes).runAt 0 with ⟨failure | value, offset⟩
    · simp
    · by_cases whole : offset = bytes.length
      · simp [whole, empty]
      · simp [whole]

theorem roundTrips_of_reads (takes : Takes 1 message (Valid opaques lengths))
    (reads : ∀ value, Valid opaques lengths value → Reads message (encode value) value) :
    RoundTrips encode (decodeWhole message) opaques lengths := by
  have written : ∀ value, Valid opaques lengths value →
      decodeWhole message (encode value) = .ok value ∧ SingleItem (encode value) := by
    intro value valid
    have item : IsItem (encode value) := (Exact.fact_of_reads takes (reads value valid)).1
    have ran := reads value valid [] []
    rw [List.nil_append, List.append_nil, List.length_nil, Nat.zero_add] at ran
    exact ⟨decodeWhole_ok.mpr ⟨item.ne_nil, ran⟩, singleItem_iff.mpr item⟩
  refine ⟨fun value items small => written value ⟨?_, small⟩, fun bytes value short decoded => ?_⟩
  · exact fun segment member => singleItem_iff.mp (items segment member)
  · obtain ⟨-, ran⟩ := decodeWhole_ok.mp decoded
    obtain ⟨-, item, valid⟩ := Exact.reads_of_run takes ran
    exact ⟨singleItem_iff.mpr item, (written value (valid short)).1⟩

end

theorem decodeHandshakeMessage_eq : decodeHandshakeMessage = decodeWhole decodeMessage := by
  funext bytes
  unfold decodeHandshakeMessage decodeWhole
  rcases (decodeMessage bytes).runAt 0 with ⟨failure | decoded, offset⟩ <;> rfl

/-- The four codecs and the walker that cuts the stream agree on every message. -/
theorem n2n_messages_round_trip :
    RoundTrips encodeHandshakeMessage decodeHandshakeMessage HandshakeMessage.opaques
        HandshakeMessage.lengths ∧
      RoundTrips encodeChainSyncMessage decodeChainSyncMessage ChainSyncMessage.opaques
        ChainSyncMessage.lengths ∧
      RoundTrips encodeBlockFetchMessage decodeBlockFetchMessage BlockFetchMessage.opaques noLengths ∧
      RoundTrips encodeTxSubmissionMessage decodeTxSubmissionMessage TxSubmission2Message.opaques
        noLengths :=
  ⟨decodeHandshakeMessage_eq ▸ roundTrips_of_reads decodeHandshake_takes fun _ => decodeHandshake_reads,
    roundTrips_of_reads decodeChainSync_takes fun _ => decodeChainSync_reads,
    roundTrips_of_reads decodeBlockFetch_takes fun _ => decodeBlockFetch_reads,
    roundTrips_of_reads decodeTxSubmission_takes fun _ => decodeTxSubmission_reads⟩

end Ade.Proof.Network
