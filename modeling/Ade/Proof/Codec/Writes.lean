import Ade.Proof.Codec.Conway

/-! What is written is read again, and it is a known number of items. -/

namespace Ade.Proof.Codec
open Library Cursor Ade.Codec

/-- The segment is so many items, and is read as the value wherever it stands. -/
structure Writes {α : Type} (count : Nat) (read : Bytes → Read α) (written : Bytes) (value : α) : Prop where
  reads : Reads read written value
  skips : SkipsOver [some count] written

namespace Writes

variable {α β : Type} {read : Bytes → Read α} {next : α → Bytes → Read β} {written written' : Bytes}
  {value : α} {result : β} {count : Nat}

theorem item (writes : Writes 1 read written value) : IsItem written := writes.skips

theorem of_items {items : Bytes → Read α} (takes : Items items) (reads : Reads items written value) :
    Writes 1 items written value :=
  ⟨reads, Exact.fact_of_reads takes reads⟩

theorem pure (value : α) : Writes 0 (fun _ => (Pure.pure value : Read α)) [] value :=
  ⟨Reads.pure value, skipsOver_nil⟩

theorem bind (first : Writes 1 read written value) (second : Writes count (next value) written' result) :
    Writes (count + 1) (fun data => read data >>= fun a => next a data) (written ++ written') result := by
  refine ⟨first.reads.bind second.reads, ?_⟩
  rw [Nat.add_comm]
  exact first.skips.add second.skips

theorem last (first : Writes count read written value) (second : Writes 0 (next value) [] result) :
    Writes count (fun data => read data >>= fun a => next a data) written result :=
  ⟨first.reads.last second.reads, first.skips⟩

theorem map (f : α → β) (writes : Writes count read written value) :
    Writes count (fun data => f <$> read data) written (f value) :=
  ⟨writes.reads.map f, writes.skips⟩

/-- A loop over what each round writes. -/
theorem times {chunks : List Bytes} {values : List α}
    (each : List.Forall₂ (Writes count read) chunks values) :
    Writes (values.length * count) (fun data => Cursor.times (read data) values.length) chunks.flatten
      values := by
  have reads : List.Forall₂ (Reads read) chunks values := each.imp fun _ _ writes => writes.reads
  refine ⟨each.length_eq ▸ Reads.times reads, ?_⟩
  clear reads
  induction each with
  | nil =>
      rw [List.length_nil, Nat.zero_mul]
      exact skipsOver_nil
  | cons first _ ih =>
      rw [List.flatten_cons, List.length_cons, Nat.succ_mul, Nat.add_comm]
      exact first.skips.add ih

theorem times_map {encode : α → Bytes} {values : List α}
    (each : ∀ value ∈ values, Writes count read (encode value) value) :
    Writes (values.length * count) (fun data => Cursor.times (read data) values.length)
      (values.map encode).flatten values := by
  apply times
  rw [List.forall₂_map_left_iff, List.forall₂_same]
  exact each

end Writes

theorem writes_uint (value : UInt64) :
    Writes 1 readUint (writeUintCanonical value) (value, canonicalWidth value) :=
  .of_items readUint_items (readUint_reads value)

theorem writes_bytes {bytes : Bytes} (short : bytes.length < 2 ^ 64) :
    Writes 1 readBytes (writeBytesCanonical bytes)
      (bytes, canonicalWidth (UInt64.ofNat bytes.length)) :=
  .of_items readBytes_items (readBytes_reads bytes short)

theorem writes_item {bytes : Bytes} (item : IsItem bytes) : Writes 1 readItem bytes bytes :=
  ⟨readItem_reads item, item⟩

section
variable {α : Type} {next : ContainerEncoding → Bytes → Read α} {written : Bytes} {value : α} {count : UInt64}

theorem writes_array (body : Writes count.toNat (next (.definite count (canonicalWidth count))) written value) :
    Writes 1 (fun data => readArrayHeader data >>= fun encoding => next encoding data)
      (writeArrayHeader (.definite count (canonicalWidth count)) ++ written) value :=
  have reads := readArrayHeader_reads count
  ⟨reads.bind body.reads, isItem_of_head (Exact.fact_of_reads readArrayHeader_exact reads) body.skips⟩

theorem writes_map (body : Writes (count.toNat * 2) (next (.definite count (canonicalWidth count))) written
      value) :
    Writes 1 (fun data => readMapHeader data >>= fun encoding => next encoding data)
      (writeMapHeader (.definite count (canonicalWidth count)) ++ written) value :=
  have reads := readMapHeader_reads count
  ⟨reads.bind body.reads, isItem_of_head (Exact.fact_of_reads readMapHeader_exact reads) body.skips⟩

theorem writes_tag {next : Bytes → Read α} (tag : UInt64) (body : Writes 1 next written value) :
    Writes 1 (fun data => readTag data >>= fun _ => next data)
      (writeTag tag (canonicalWidth tag) ++ written) value := by
  have reads : Reads readTag (writeTag tag (canonicalWidth tag)) (tag, canonicalWidth tag) := by
    obtain ⟨ai, argument, form, small, read⟩ := writeArgument_reads (fits_canonicalWidth tag) majorTag
    rw [writeTag, form, ← List.singleton_append]
    refine Reads.get_bind fun start => ?_
    refine (decodeInitial_reads (by decide) (by omega)).bind ?_
    simpa using read start
  exact ⟨reads.bind body.reads, isItem_tagged (Exact.fact_of_reads readTag_exact reads) body.skips⟩

end

end Ade.Proof.Codec
