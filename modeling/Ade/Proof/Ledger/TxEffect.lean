import Ade.Ledger.TxEffect
import Ade.Proof.Codec.Conway

namespace Ade.Proof.Ledger
open Std (ExtTreeSet)
open Library Cursor Ade.Codec Ade.Ledger Ade.Proof.Codec

/-! ## What the typed decoder has seen -/

def fieldBytes (fields : List Field) : Bytes := (fields.map Field.bytes).flatten

def valuesOf (key : UInt64) (fields : List Field) : List Bytes :=
  (fields.filter fun field => field.key = key).map Field.value

/-- A body: its header, and its entries. -/
structure IsBody (bodyBytes header : Bytes) (fields : List Field) : Prop where
  split : bodyBytes = header ++ fieldBytes fields
  definite : ∃ count width, Reads readMapHeader header (.definite count width) ∧
    fields.length = count.toNat
  wellFormed : ∀ field ∈ fields, field.WellFormed

/-- The outputs under each occurrence of key 1: their bytes and what they decode to. -/
abbrev OutputEntry := List Bytes × List BabbageTxOut

def IsEntry (value : Bytes) (entry : OutputEntry) : Prop := IsOutputs value entry.1 entry.2

section
variable {Procedure : Type} {decodeProposalProcedures : Bytes → Except CodecError (List Procedure)}

/-- A repeated key replaces what was there. -/
theorem chain_fields {first last : PartialTxBody Procedure} {chunks : List Bytes}
    (chain : Exact.Chain (fun body chunk next => ∃ field : Field, chunk = field.bytes ∧
      field.WellFormed ∧ ValueRead body field.key field.value next) first chunks last) :
    ∃ fields entries, chunks = fields.map Field.bytes ∧ (∀ field ∈ fields, field.WellFormed) ∧
      List.Forall₂ IsEntry (valuesOf 1 fields) entries ∧
      last.outputs = (entries.getLast?.map Prod.snd).or first.outputs ∧
      last.certs = (valuesOf 4 fields).getLast?.or first.certs := by
  induction chain with
  | nil => exact ⟨[], [], rfl, by simp, .nil, rfl, rfl⟩
  | @cons state next last chunk chunks head _ ih =>
      obtain ⟨field, rfl, wellFormed, read⟩ := head
      obtain ⟨fields, entries, rfl, all, listed, outputs, certs⟩ := ih
      have every : ∀ other ∈ field :: fields, other.WellFormed := by
        intro other member
        rcases List.mem_cons.mp member with rfl | member
        · exact wellFormed
        · exact all other member
      have certs' : last.certs = (valuesOf 4 (field :: fields)).getLast?.or state.certs := by
        rw [certs]
        by_cases isCerts : field.key = 4
        · rw [read.certs isCerts]
          simp [valuesOf, isCerts, List.getLast?_cons]
        · rw [read.otherCerts isCerts]
          simp [valuesOf, isCerts]
      by_cases isOutputs : field.key = 1
      · obtain ⟨written, outs, shape, stored⟩ := read.outputs isOutputs
        refine ⟨field :: fields, (written, outs) :: entries, rfl, every, ?_, ?_, certs'⟩
        · have values : valuesOf 1 (field :: fields) = field.value :: valuesOf 1 fields := by
            simp [valuesOf, isOutputs]
          rw [values]
          exact .cons shape listed
        · rw [outputs, stored, List.getLast?_cons]
          cases entries.getLast? <;> rfl
      · refine ⟨field :: fields, entries, rfl, every, ?_, ?_, certs'⟩
        · have values : valuesOf 1 (field :: fields) = valuesOf 1 fields := by
            simp [valuesOf, isOutputs]
          rwa [values]
        · rw [outputs, read.otherOutputs isOutputs]

/-- What the decoder says of the outputs and the certificates. -/
structure BodyRead (bodyBytes : Bytes) (body : Codec.ConwayTxBody Procedure) (header : Bytes)
    (fields : List Field) (entries : List OutputEntry) : Prop where
  shape : IsBody bodyBytes header fields
  listed : List.Forall₂ IsEntry (valuesOf 1 fields) entries
  outputs : entries.getLast?.map Prod.snd = some body.outputs
  certs : body.certs = (valuesOf 4 fields).getLast?

theorem decodeConwayTxBody_exact : Exact (fun _ => decodeConwayTxBody decodeProposalProcedures)
    fun written body => ∃ header fields entries, BodyRead written body header fields entries := by
  have entries_ : ∀ count : UInt64, Exact (fun _ data => (do
      requireFields (← Cursor.iterate (decodeBodyEntry decodeProposalProcedures data) count.toNat
        .empty) : Read (Codec.ConwayTxBody Procedure))) fun written body =>
        ∃ fields entries, written = fieldBytes fields ∧ fields.length = count.toNat ∧
          (∀ field ∈ fields, field.WellFormed) ∧ List.Forall₂ IsEntry (valuesOf 1 fields) entries ∧
          entries.getLast?.map Prod.snd = some body.outputs ∧
          body.certs = (valuesOf 4 fields).getLast? := by
    intro count
    refine (Exact.bind (Exact.iterate decodeBodyEntry_exact count.toNat _)
      requireFields_exact).mono ?_
    rintro written body ⟨head, tail, last, rfl, ⟨chunks, rfl, counted, chain⟩, rfl, rfl⟩
    obtain ⟨fields, entries, rfl, all, listed, lastOutputs, lastCerts⟩ := chain_fields chain
    refine ⟨fields, entries, List.append_nil _, by rw [← counted, List.length_map], all, listed, ?_, ?_⟩
    · rw [show some body.outputs = _ from lastOutputs]
      exact (Option.or_none ..).symm
    · rw [show body.certs = _ from lastCerts]
      exact Option.or_none ..
  refine (Exact.bind (Exact.reads readMapHeader_exact) (expectDefinite_exact _ entries_)).mono ?_
  rintro written body ⟨header, rest, encoding, rfl, ⟨reads, -⟩, count, width, rfl, fields, entries, rfl,
    counted, all, listed, outputs, certs⟩
  exact ⟨header, fields, entries, ⟨rfl, ⟨count, width, reads, counted⟩, all⟩, listed, outputs, certs⟩

end

/-! ## The other walks -/

theorem readField_reads {field : Field} (wellFormed : field.WellFormed) :
    Reads readField field.bytes (field.key, field.value) := by
  obtain ⟨⟨width, reads⟩, item⟩ := wellFormed
  exact reads.bind ((readItem_reads item).map (field.key, ·))

section
variable {bodyBytes header : Bytes} {fields : List Field}

theorem fields_reads (wellFormed : ∀ field ∈ fields, field.WellFormed) :
    List.Forall₂ (Reads readField) (fields.map Field.bytes)
      (fields.map fun field => (field.key, field.value)) := by
  rw [List.forall₂_map_left_iff, List.forall₂_map_right_iff, List.forall₂_same]
  exact fun field member => readField_reads (wellFormed field member)

theorem bodyFields_eq (shape : IsBody bodyBytes header fields) :
    bodyFields bodyBytes = fields.map fun field => (field.key, field.value) := by
  obtain ⟨count, width, reads, counted⟩ := shape.definite
  have head := reads [] (fieldBytes fields)
  have runs := (Reads.runsOver (fields_reads shape.wellFormed) header []).times
  rw [List.length_map, counted] at runs
  unfold bodyFields
  dsimp only
  rw [shape.split]
  simp only [List.nil_append, List.append_nil, List.length_nil, Nat.zero_add] at head runs
  rw [runAt_bind_ok head]
  show (((Cursor.times (readField (header ++ fieldBytes fields)) count.toNat).runAt
    header.length).1.toOption.getD []) = _
  unfold fieldBytes
  rw [runs]
  rfl

theorem valuesAt_eq (shape : IsBody bodyBytes header fields) (key : UInt64) :
    valuesAt key bodyBytes = valuesOf key fields := by
  unfold valuesAt valuesOf
  rw [bodyFields_eq shape, List.filter_map, List.map_map]
  rfl

theorem decodeConwayOutputs_reads {value : Bytes} {entry : OutputEntry} (shape : IsEntry value entry) :
    Reads decodeConwayOutputs value entry.2 := by
  obtain ⟨header, tail, rfl, array, listed⟩ := shape
  intro before after
  have runs := Reads.runsOver (listed.imp fun _ _ known => known.1) (before ++ header) (tail ++ after)
  rw [List.length_append] at runs
  apply readArray_runs array (items_of_forall₂ (fun _ _ item => item) listed) rfl
  simp only [List.append_assoc] at runs ⊢
  exact runs

theorem outputArrays_eq {entries : List OutputEntry} (shape : IsBody bodyBytes header fields)
    (listed : List.Forall₂ IsEntry (valuesOf 1 fields) entries) :
    outputArrays bodyBytes = entries.map Prod.snd := by
  unfold outputArrays
  rw [valuesAt_eq shape]
  generalize valuesOf 1 fields = values at listed ⊢
  induction listed with
  | nil => rfl
  | @cons value entry values entries first _ ih =>
      have ran := decodeConwayOutputs_reads first [] []
      rw [List.nil_append, List.append_nil] at ran
      rw [List.filterMap_cons, show ([] : Bytes).length = 0 from rfl] at *
      rw [ran, ih]
      rfl

end

/-! ### The slices -/

theorem skip_runsOver {chunks : List Bytes} (items : ∀ chunk ∈ chunks, IsItem chunk)
    (before after : Bytes) :
    ∃ ranges, RunsOver (skip (before ++ chunks.flatten ++ after)) before.length chunks ranges ∧
      ranges.map (slice (before ++ chunks.flatten ++ after)) = chunks := by
  induction chunks generalizing before with
  | nil => exact ⟨[], .nil _, rfl⟩
  | cons chunk chunks ih =>
      obtain ⟨ranges, runs, sliced⟩ := ih (fun other member =>
        items other (List.mem_cons_of_mem _ member)) (before ++ chunk)
      have head := skip_item (items chunk (List.mem_cons_self ..)) before (chunks.flatten ++ after)
      have first := slice_segment before chunk (chunks.flatten ++ after)
      rw [List.length_append] at runs
      rw [List.flatten_cons]
      simp only [List.append_assoc] at runs sliced head first ⊢
      refine ⟨(before.length, before.length + chunk.length) :: ranges, .cons head runs, ?_⟩
      rw [List.map_cons, first, sliced]

section
variable {field : Field}

theorem locateEntry_outputs {entry : OutputEntry} (wellFormed : field.WellFormed)
    (isOutputs : field.key = 1) (shape : IsEntry field.value entry) (slices : AlonzoPlusSlices)
    (before after : Bytes) :
    ∃ ranges, (locateEntry (before ++ field.bytes ++ after) slices).runAt before.length =
        (.ok { slices with outputs := slices.outputs ++ ranges },
          before.length + field.bytes.length) ∧
      ranges.map (slice (before ++ field.bytes ++ after)) = entry.1 := by
  obtain ⟨⟨width, reads⟩, -⟩ := wellFormed
  obtain ⟨header, tail, split, array, listed⟩ := shape
  have items := items_of_forall₂ (fun _ _ item => item) listed
  obtain ⟨ranges, runs, sliced⟩ := skip_runsOver items (before ++ field.keyBytes ++ header)
    (tail ++ after)
  have key := reads before (field.value ++ after)
  have stands : before ++ field.bytes ++ after =
      before ++ field.keyBytes ++ (header ++ (entry.1.flatten ++ tail)) ++ after := by
    rw [Field.bytes, split]
    simp only [List.append_assoc]
  have elements : (readArray (before ++ field.bytes ++ after)
      (skip (before ++ field.bytes ++ after))).runAt (before ++ field.keyBytes).length =
        (.ok ranges, (before ++ field.keyBytes).length +
          (header ++ (entry.1.flatten ++ tail)).length) := by
    apply readArray_runs array items stands
    rw [stands]
    rw [List.length_append] at runs
    simp only [List.append_assoc] at runs ⊢
    exact runs
  refine ⟨ranges, ?_, ?_⟩
  · unfold locateEntry
    have same : before ++ field.bytes ++ after =
        before ++ field.keyBytes ++ (field.value ++ after) := by
      rw [Field.bytes]
      simp only [List.append_assoc]
    rw [← same] at key
    rw [runAt_bind_ok key]
    dsimp only
    rw [if_pos isOutputs]
    rw [List.length_append, ← split, Nat.add_assoc] at elements
    have moved : field.keyBytes.length + field.value.length = field.bytes.length :=
      List.length_append.symm
    rw [runAt_bind_ok elements, moved]
    rfl
  · rw [stands]
    simp only [List.append_assoc] at sliced ⊢
    exact sliced

/-- Only the outputs and the collateral return are sliced. -/
theorem locateEntry_other (wellFormed : field.WellFormed) (notOutputs : field.key ≠ 1)
    (slices : AlonzoPlusSlices) (before after : Bytes) :
    ∃ collateral, (locateEntry (before ++ field.bytes ++ after) slices).runAt before.length =
      (.ok { slices with collateralReturn := collateral }, before.length + field.bytes.length) := by
  obtain ⟨⟨width, reads⟩, item⟩ := wellFormed
  have key := reads before (field.value ++ after)
  have skipped := skip_item item (before ++ field.keyBytes) after
  have same : before ++ field.keyBytes ++ (field.value ++ after) =
      before ++ field.bytes ++ after := by
    rw [Field.bytes]
    simp only [List.append_assoc]
  have same' : before ++ field.keyBytes ++ field.value ++ after = before ++ field.bytes ++ after := by
    rw [Field.bytes]
    simp only [List.append_assoc]
  rw [same] at key
  rw [same', List.length_append] at skipped
  have moved : before.length + field.keyBytes.length + field.value.length =
      before.length + field.bytes.length := by
    rw [Field.bytes, List.length_append, Nat.add_assoc]
  unfold locateEntry
  rw [runAt_bind_ok key]
  dsimp only
  rw [if_neg notOutputs]
  by_cases isReturn : field.key = 16
  · rw [if_pos isReturn, runAt_bind_ok skipped, moved]
    exact ⟨_, rfl⟩
  · rw [if_neg isReturn, runAt_bind_ok skipped, moved]
    exact ⟨slices.collateralReturn, rfl⟩

end

theorem locate_fields {fields : List Field} {entries : List OutputEntry}
    (wellFormed : ∀ field ∈ fields, field.WellFormed)
    (listed : List.Forall₂ IsEntry (valuesOf 1 fields) entries) (slices : AlonzoPlusSlices)
    (before after : Bytes) :
    ∃ ranges collateral, (Cursor.iterate (locateEntry (before ++ fieldBytes fields ++ after))
        fields.length slices).runAt before.length =
          (.ok ⟨slices.outputs ++ ranges, collateral⟩, before.length + (fieldBytes fields).length) ∧
      ranges.map (slice (before ++ fieldBytes fields ++ after)) = (entries.map Prod.fst).flatten := by
  induction fields generalizing entries slices before with
  | nil =>
      cases listed
      exact ⟨[], slices.collateralReturn, by simp [Cursor.iterate, fieldBytes], rfl⟩
  | cons field fields ih =>
      have first := wellFormed field (List.mem_cons_self ..)
      have rest : ∀ other ∈ fields, other.WellFormed :=
        fun other member => wellFormed other (List.mem_cons_of_mem _ member)
      have split : before ++ fieldBytes (field :: fields) ++ after =
          before ++ field.bytes ++ (fieldBytes fields ++ after) := by
        simp only [fieldBytes, List.map_cons, List.flatten_cons, List.append_assoc]
      have split' : before ++ field.bytes ++ (fieldBytes fields ++ after) =
          before ++ field.bytes ++ fieldBytes fields ++ after := (List.append_assoc ..).symm
      have moved : before.length + (fieldBytes (field :: fields)).length =
          (before ++ field.bytes).length + (fieldBytes fields).length := by
        simp only [fieldBytes, List.map_cons, List.flatten_cons, List.length_append, Nat.add_assoc]
      rw [split, moved, List.length_cons]
      by_cases isOutputs : field.key = 1
      · have values : valuesOf 1 (field :: fields) = field.value :: valuesOf 1 fields := by
          simp [valuesOf, isOutputs]
        rw [values] at listed
        obtain ⟨entry, others, shape, listed', rfl⟩ := List.forall₂_cons_left_iff.mp listed
        obtain ⟨ranges, ran, sliced⟩ := locateEntry_outputs first isOutputs shape slices before
          (fieldBytes fields ++ after)
        obtain ⟨others, collateral, ran', sliced'⟩ := ih rest listed'
          { slices with outputs := slices.outputs ++ ranges } (before ++ field.bytes)
        rw [← split'] at ran' sliced'
        refine ⟨ranges ++ others, collateral, ?_, ?_⟩
        · rw [Cursor.iterate, runAt_bind_ok ran, ← List.length_append, ran', List.append_assoc]
        · rw [List.map_append, sliced, sliced']
          rfl
      · have values : valuesOf 1 (field :: fields) = valuesOf 1 fields := by
          simp [valuesOf, isOutputs]
        rw [values] at listed
        obtain ⟨collateral, ran⟩ := locateEntry_other first isOutputs slices before
          (fieldBytes fields ++ after)
        obtain ⟨ranges, collateral', ran', sliced'⟩ := ih rest listed
          { slices with collateralReturn := collateral } (before ++ field.bytes)
        rw [← split'] at ran' sliced'
        refine ⟨ranges, collateral', ?_, sliced'⟩
        rw [Cursor.iterate, runAt_bind_ok ran, ← List.length_append, ran']

theorem locate_ok {bodyBytes header : Bytes} {fields : List Field} {entries : List OutputEntry}
    (shape : IsBody bodyBytes header fields)
    (listed : List.Forall₂ IsEntry (valuesOf 1 fields) entries) :
    ∃ slices, (locateAlonzoPlusSlices bodyBytes).runAt 0 = (.ok slices, bodyBytes.length) ∧
      slices.outputs.map (slice bodyBytes) = (entries.map Prod.fst).flatten := by
  obtain ⟨count, width, reads, counted⟩ := shape.definite
  have head := reads [] (fieldBytes fields)
  obtain ⟨ranges, collateral, ran, sliced⟩ :=
    locate_fields shape.wellFormed listed ⟨[], none⟩ header []
  rw [List.nil_append, List.length_nil, Nat.zero_add, ← shape.split] at head
  rw [List.append_nil, ← shape.split] at ran sliced
  refine ⟨⟨ranges, collateral⟩, ?_, sliced⟩
  unfold locateAlonzoPlusSlices
  rw [runAt_bind_ok head]
  dsimp only
  rw [← counted, ran, shape.split, List.length_append]
  rfl

/-! ### The certificates -/

theorem certs_fields {σ : Type} (accumulate : σ → Bytes → Except LedgerError σ) {fields : List Field}
    (wellFormed : ∀ field ∈ fields, field.WellFormed) (state : σ) (before after : Bytes) :
    ((Cursor.iterate (certEntry accumulate (before ++ fieldBytes fields ++ after) false)
        fields.length state).runAt before.length).1 =
      (valuesOf 4 fields).foldlM accumulate state := by
  induction fields generalizing state before with
  | nil => rfl
  | cons field fields ih =>
      have rest := ih fun other member => wellFormed other (List.mem_cons_of_mem _ member)
      obtain ⟨⟨width, reads⟩, item⟩ := wellFormed field (List.mem_cons_self ..)
      have split : before ++ fieldBytes (field :: fields) ++ after =
          before ++ field.keyBytes ++ (field.value ++ (fieldBytes fields ++ after)) := by
        simp only [fieldBytes, List.map_cons, List.flatten_cons, List.append_assoc, Field.bytes]
      have split' : before ++ field.keyBytes ++ (field.value ++ (fieldBytes fields ++ after)) =
          before ++ field.bytes ++ fieldBytes fields ++ after := by
        simp only [Field.bytes, List.append_assoc]
      have key := (reads.adapt LedgerError.decoding) before (field.value ++ (fieldBytes fields ++ after))
      have value := ((readItem_reads item).adapt LedgerError.decoding) (before ++ field.keyBytes)
        (fieldBytes fields ++ after)
      have skipped : (decoded (skip (before ++ field.keyBytes ++ (field.value ++
          (fieldBytes fields ++ after))))).runAt (before.length + field.keyBytes.length) =
          (.ok (before.length + field.keyBytes.length,
            before.length + field.keyBytes.length + field.value.length),
            before.length + field.keyBytes.length + field.value.length) := by
        have ran := skip_item item (before ++ field.keyBytes) (fieldBytes fields ++ after)
        rw [List.length_append, List.append_assoc] at ran
        unfold decoded
        rw [runAt_adapt, ran]
        rfl
      rw [List.length_append, List.append_assoc] at value
      have moved : before.length + field.keyBytes.length + field.value.length =
          (before ++ field.bytes).length := by
        rw [Field.bytes, List.length_append, List.length_append, Nat.add_assoc]
      rw [split, List.length_cons, Cursor.iterate]
      unfold certEntry
      rw [runAt_bind]
      unfold decoded at skipped ⊢
      rw [runAt_bind_ok key]
      dsimp only
      by_cases isCerts : field.key = 4
      · have values : valuesOf 4 (field :: fields) = field.value :: valuesOf 4 fields := by
          simp [valuesOf, isCerts]
        rw [if_pos ⟨isCerts, Bool.false_ne_true⟩, runAt_bind_ok value, runAt_liftExcept, values,
          List.foldlM_cons]
        cases accumulate state field.value with
        | error failure => rfl
        | ok next =>
            dsimp only
            rw [moved, split']
            exact rest next (before ++ field.bytes)
      · have values : valuesOf 4 (field :: fields) = valuesOf 4 fields := by
          simp [valuesOf, isCerts]
        rw [if_neg (fun both => isCerts both.1), runAt_bind_ok skipped, runAt_pure, values]
        dsimp only
        rw [moved, split']
        exact rest state (before ++ field.bytes)

/-! ## The three readers -/

section
variable {Procedure : Type} {decodeProposalProcedures : Bytes → Except CodecError (List Procedure)}
  {bodyBytes header : Bytes} {body : Codec.ConwayTxBody Procedure} {fields : List Field}
  {entries : List OutputEntry}

theorem decodeBodyBytes_reads (reads : Reads (decodeConwayTxBody decodeProposalProcedures) bodyBytes body) :
    Reads (decodeBodyBytes decodeProposalProcedures) bodyBytes (body, bodyBytes) := by
  intro before after
  have ran := (reads.adapt LedgerError.decoding) before after
  unfold decodeBodyBytes decoded
  rw [runAt_bind_ok (runAt_get _), runAt_bind_ok ran, runAt_bind_ok (runAt_get _), slice_segment]
  rfl

def effectOf (bodyBytes : Bytes) (body : Codec.ConwayTxBody Procedure) (slices : AlonzoPlusSlices) :
    TxUtxoEffect where
  spends := body.inputs.toList
  produces := indexed (alonzoPlusOutputs bodyBytes body.outputs slices.outputs)
  collateralConsumed := []

theorem extract_reads (older : OlderEras) {slices : AlonzoPlusSlices}
    (reads : Reads (decodeConwayTxBody decodeProposalProcedures) bodyBytes body)
    (located_ : (locateAlonzoPlusSlices bodyBytes).runAt 0 = (.ok slices, bodyBytes.length)) :
    Reads (fun data => extractTxUtxoEffect decodeProposalProcedures older data .conway false)
      bodyBytes (effectOf bodyBytes body slices) := by
  intro before after
  have ran := decodeBodyBytes_reads reads before after
  unfold extractTxUtxoEffect extractInputsOutputsFromTx located
  dsimp only
  rw [if_pos (by decide), if_pos rfl, runAt_bind, runAt_bind_ok ran, runAt_bind, located_]
  rfl

theorem sameUtxo (older : OlderEras) (bound : Nat) (blake2b256 : Bytes → Hash32)
    {slices : AlonzoPlusSlices}
    (reads : Reads (decodeConwayTxBody decodeProposalProcedures) bodyBytes body)
    (located_ : (locateAlonzoPlusSlices bodyBytes).runAt 0 = (.ok slices, bodyBytes.length))
    (before after : Bytes) {invalid : BTreeSet UInt64} {index : UInt64} (utxo : OverlayUtxo)
    (valid : ¬ invalid.contains index) :
    ∃ next, (trackTx decodeProposalProcedures bound older blake2b256 (before ++ bodyBytes ++ after)
      .conway invalid index utxo).runAt before.length =
        (.ok next, before.length + bodyBytes.length) ∧
      applyConwayTxToUtxo bound utxo body bodyBytes (blake2b256 bodyBytes) = .ok next := by
  have ran := extract_reads older reads located_ before after
  rw [Bool.not_eq_true] at valid
  refine ⟨applyEffect bound (effectOf bodyBytes body slices).spends
    (effectOf bodyBytes body slices).produces (blake2b256 bodyBytes) utxo, ?_, ?_⟩
  · unfold trackTx
    rw [runAt_bind_ok (runAt_get _), valid, runAt_bind_ok ran, runAt_bind_ok (runAt_get _),
      slice_segment]
    rfl
  · unfold applyConwayTxToUtxo
    rw [located_]
    rfl

/-! ### The indices -/

theorem indices_eq (outputs : List TxOut) :
    (indexed outputs).map (fun entry => entry.1.toNat) =
      (List.range outputs.length).map (· % 2 ^ 16) := by
  unfold indexed
  rw [List.range_eq_range', ← List.zipIdx_map_snd 0 outputs, List.map_map, List.map_map]
  apply List.map_congr_left
  intro entry _
  exact UInt16.toNat_ofNat'

theorem indices_iff (outputs : List TxOut) :
    (indexed outputs).map (fun entry => entry.1.toNat) = List.range outputs.length ↔
      outputs.length ≤ 2 ^ 16 := by
  rw [indices_eq]
  constructor
  · intro same
    by_contra many
    have inside : 2 ^ 16 < outputs.length := Nat.lt_of_not_le many
    have wraps := congrArg (fun indices => indices[2 ^ 16]?) same
    rw [List.getElem?_map, List.getElem?_range inside] at wraps
    cases wraps
  · intro few
    conv_rhs => rw [← List.map_id (List.range outputs.length)]
    apply List.map_congr_left
    intro index member
    exact Nat.mod_eq_of_lt (Nat.lt_of_lt_of_le (List.mem_range.mp member) few)

/-! ### The raw forms -/

theorem faithful_iff {ranges : List (Nat × Nat)} {all : List BabbageTxOut}
    (reads : List.Forall₂ (fun range out => Reads decodeBabbageTxOut (slice bodyBytes range) out)
      ranges all) {outputs : List BabbageTxOut} (within : outputs.length ≤ all.length) (start : Nat) :
    List.Forall₂ Faithful outputs (((alonzoPlusOutputs bodyBytes outputs ranges).zipIdx start).map
        fun entry => (UInt16.ofNat entry.2, entry.1)) ↔
      (all.take outputs.length).map payee = outputs.map payee := by
  induction reads generalizing outputs start with
  | nil =>
      obtain rfl := List.eq_nil_of_length_eq_zero (Nat.le_zero.mp within)
      exact ⟨fun _ => rfl, fun _ => .nil⟩
  | @cons range out ranges all read _ ih =>
      cases outputs with
      | nil => exact ⟨fun _ => rfl, fun _ => .nil⟩
      | cons output outputs =>
          have rest := ih (Nat.le_of_succ_le_succ within) (start + 1)
          have first : Faithful output (UInt16.ofNat start, alonzoPlus bodyBytes output range) ↔
              payee out = payee output := by
            have ran := read [] []
            rw [List.nil_append, List.append_nil, List.length_nil, Nat.zero_add] at ran
            constructor
            · rintro ⟨raw, decoded, stored, decodes, same⟩
              obtain ⟨rfl, -, -⟩ := TxOut.alonzoPlus.inj stored
              rw [ran] at decodes
              cases decodes
              exact same
            · exact fun same => ⟨_, out, rfl, ran, same⟩
          have unfolded : ((alonzoPlusOutputs bodyBytes (output :: outputs)
              (range :: ranges)).zipIdx start).map (fun entry => (UInt16.ofNat entry.2, entry.1)) =
              (UInt16.ofNat start, alonzoPlus bodyBytes output range) ::
                ((alonzoPlusOutputs bodyBytes outputs ranges).zipIdx (start + 1)).map
                  fun entry => (UInt16.ofNat entry.2, entry.1) := rfl
          rw [unfolded, List.forall₂_cons, first, rest, List.length_cons, List.take_succ_cons,
            List.map_cons, List.map_cons, List.cons.injEq]

theorem outputs_read {values : List Bytes} (listed : List.Forall₂ IsEntry values entries) :
    List.Forall₂ (Reads decodeBabbageTxOut) (entries.map Prod.fst).flatten
      (entries.map Prod.snd).flatten := by
  induction listed with
  | nil => exact .nil
  | @cons value entry values entries first _ ih =>
      obtain ⟨_, _, _, _, chunks⟩ := first
      exact List.rel_append (chunks.imp fun _ _ known => known.1) ih

/-! ### The certificates -/

theorem processTxCerts_eq (shape : IsBody bodyBytes header fields) {σ : Type}
    (accumulate : σ → Bytes → Except LedgerError σ) (state : σ) (before after : Bytes)
    {invalid : BTreeSet UInt64} {index : UInt64} (valid : ¬ invalid.contains index) :
    ((processTxCerts accumulate (before ++ bodyBytes ++ after) invalid index state).runAt
      before.length).1 = (valuesOf 4 fields).foldlM accumulate state := by
  obtain ⟨count, width, reads, counted⟩ := shape.definite
  have head := (reads.adapt LedgerError.decoding) before (fieldBytes fields ++ after)
  have certs := certs_fields accumulate shape.wellFormed state (before ++ header) after
  have split : before ++ bodyBytes ++ after = before ++ header ++ (fieldBytes fields ++ after) := by
    rw [shape.split]
    simp only [List.append_assoc]
  have split' : before ++ header ++ (fieldBytes fields ++ after) =
      before ++ header ++ fieldBytes fields ++ after := (List.append_assoc ..).symm
  rw [Bool.not_eq_true] at valid
  unfold processTxCerts
  rw [split]
  unfold decoded
  rw [runAt_bind_ok head]
  dsimp only
  rw [valid, ← counted, split', ← List.length_append]
  exact certs

theorem certs_iff (values : List Bytes) :
    (∀ {σ : Type} (accumulate : σ → Bytes → Except LedgerError σ) (state : σ),
      values.foldlM accumulate state = values.getLast?.toList.foldlM accumulate state) ↔
      values.length ≤ 1 := by
  constructor
  · intro same
    -- Keep a log of what is applied.
    have logged : ∀ (values log : List Bytes), values.foldlM (fun log value =>
        (.ok (log ++ [value]) : Except LedgerError (List Bytes))) log = .ok (log ++ values) := by
      intro values
      induction values with
      | nil => exact fun log => by rw [List.append_nil]; rfl
      | cons value values ih =>
          intro log
          rw [List.foldlM_cons]
          exact (ih (log ++ [value])).trans (by rw [List.append_assoc]; rfl)
    have lists := same (fun log value => (.ok (log ++ [value]) : Except LedgerError (List Bytes))) []
    rw [logged, logged, Except.ok.injEq] at lists
    rw [List.nil_append, List.nil_append] at lists
    rw [lists]
    cases values.getLast? <;> simp
  · intro few σ accumulate state
    match values, few with
    | [], _ => rfl
    | [value], _ => rfl

/-! ### Together -/

variable (bound : Nat) (older : OlderEras) (blake2b256 : Bytes → Hash32)

theorem produced_iff (reads : Reads (decodeConwayTxBody decodeProposalProcedures) bodyBytes body)
    (known : BodyRead bodyBytes body header fields entries) :
    (∃ effect, (extractTxUtxoEffect decodeProposalProcedures older bodyBytes .conway false).runAt 0 =
        (.ok effect, bodyBytes.length) ∧
      effect.produces.map (fun entry => entry.1.toNat) = List.range body.outputs.length ∧
      List.Forall₂ Faithful body.outputs effect.produces) ↔
    body.outputs.length ≤ 2 ^ 16 ∧
      ((entries.map Prod.snd).flatten.take body.outputs.length).map payee =
        body.outputs.map payee := by
  obtain ⟨slices, located_, sliced⟩ := locate_ok known.shape known.listed
  have ran := extract_reads older reads located_ [] []
  rw [List.nil_append, List.append_nil, List.length_nil, Nat.zero_add] at ran
  have decodes : List.Forall₂ (fun range out => Reads decodeBabbageTxOut (slice bodyBytes range) out)
      slices.outputs (entries.map Prod.snd).flatten := by
    rw [← List.forall₂_map_left_iff (f := slice bodyBytes), sliced]
    exact outputs_read known.listed
  have within : body.outputs.length ≤ (entries.map Prod.snd).flatten.length := by
    obtain ⟨entry, last, same⟩ := Option.map_eq_some_iff.mp known.outputs
    have member := List.mem_map_of_mem (f := Prod.snd) (List.mem_of_getLast? last)
    rw [same] at member
    exact (List.sublist_flatten_of_mem member).length_le
  have sized : (alonzoPlusOutputs bodyBytes body.outputs slices.outputs).length =
      body.outputs.length := by
    unfold alonzoPlusOutputs
    rw [List.length_zipWith, decodes.length_eq]
    exact Nat.min_eq_left within
  have indices := indices_iff (alonzoPlusOutputs bodyBytes body.outputs slices.outputs)
  have raws := faithful_iff decodes within 0
  rw [sized] at indices
  constructor
  · rintro ⟨effect, ran', numbered, faithful⟩
    rw [ran] at ran'
    cases ran'
    exact ⟨indices.mp numbered, raws.mp faithful⟩
  · rintro ⟨few, same⟩
    exact ⟨_, ran, indices.mpr few, raws.mpr same⟩

theorem readersAgree_iff_unambiguous
    (reads : Reads (decodeConwayTxBody decodeProposalProcedures) bodyBytes body)
    (known : BodyRead bodyBytes body header fields entries) :
    ReadersAgree decodeProposalProcedures bound older blake2b256 bodyBytes body ↔
      Unambiguous bodyBytes := by
  have arrays := outputArrays_eq known.shape known.listed
  have values := valuesAt_eq known.shape 4
  obtain ⟨slices, located_, -⟩ := locate_ok known.shape known.listed
  have last : (outputArrays bodyBytes).getLast? = some body.outputs := by
    rw [arrays, List.getLast?_map, known.outputs]
  have produced := produced_iff older reads known
  rw [← arrays] at produced
  constructor
  · intro agree
    constructor
    · rw [values]
      refine (certs_iff _).mp fun accumulate state => ?_
      have ran := agree.certs accumulate state [] [] ∅ 0 (by simp)
      rw [processTxCerts_eq known.shape accumulate state [] [] (by simp), known.certs] at ran
      exact ran
    · intro outputs member
      rw [last, Option.mem_some_iff] at member
      subst member
      exact produced.mp agree.produced
  · intro clear_
    refine ⟨?_, produced.mpr (clear_.outputs _ (by rw [last]; rfl)), ?_⟩
    · intro before after invalid index utxo valid
      exact sameUtxo older bound blake2b256 reads located_ before after utxo valid
    · intro σ accumulate state before after invalid index valid
      rw [processTxCerts_eq known.shape accumulate state before after valid, known.certs]
      have few := clear_.certs
      rw [values] at few
      exact (certs_iff _).mpr few accumulate state

end

/-! ### A repeated key -/

def sampleProcedures : Bytes → Except CodecError (List Unit) := fun _ => .ok []

def sampleOlderEras : OlderEras where
  extract _ _ := pure ([], [])

def sampleDigest : Bytes → Hash32 := fun _ => Vector.replicate 32 0

/-- No inputs and no outputs. -/
def emptyBody : Bytes := [0xa3, 0x00, 0x80, 0x01, 0x80, 0x02, 0x00]

def sampleEmptyTx : Codec.ConwayTxBody Unit :=
  { inputs := ∅, outputs := [], fee := 0, ttl := none, certs := none, withdrawals := none,
    metadataHash := none, validityIntervalStart := none, mint := none, scriptDataHash := none,
    collateralInputs := none, requiredSigners := none, networkId := none, collateralReturn := none,
    totalCollateral := none, referenceInputs := none, votingProcedures := none,
    proposalProcedures := none, treasuryValue := none, donation := none }

/-- Key 1 twice: one output of coin 1, then one of coin 2. -/
def repeatedOutputs : List Field :=
  [⟨0, [0x00], [0x80]⟩, ⟨1, [0x01], [0x81, 0x82, 0x41, 0x61, 0x01]⟩,
    ⟨1, [0x01], [0x81, 0x82, 0x41, 0x61, 0x02]⟩, ⟨2, [0x02], [0x00]⟩]

theorem entry_of_run {value : Bytes} {outs : List BabbageTxOut}
    (ran : (decodeConwayOutputs value).runAt 0 = (.ok outs, value.length)) :
    ∃ chunks, IsOutputs value chunks outs :=
  (Exact.reads_of_run decodeConwayOutputs_exact ran).2

def repeatedBody : Bytes := 0xa4 :: fieldBytes repeatedOutputs

def sampleRepeatedTx : Codec.ConwayTxBody Unit :=
  { sampleEmptyTx with outputs := [⟨[0x61], 2, none, none, none⟩] }

theorem repeatedBody_shape : IsBody repeatedBody [0xa4] repeatedOutputs := by
  refine ⟨rfl, ⟨4, .inline, ?_, rfl⟩, ?_⟩
  · exact (Exact.reads_of_run readMapHeader_exact rfl).1
  · have uint : ∀ {bytes : Bytes} {value : UInt64},
        (readUint bytes).runAt 0 = (.ok (value, .inline), bytes.length) →
        Reads readUint bytes (value, .inline) ∧ IsItem bytes :=
      fun ran => ⟨(Exact.reads_of_run readUint_exact ran).1,
        isItem_leaf (Exact.reads_of_run readUint_exact ran).2⟩
    simp only [repeatedOutputs, List.forall_mem_cons]
    have outputs : ∀ {value : Bytes} {outs : List BabbageTxOut},
        (decodeConwayOutputs value).runAt 0 = (.ok outs, value.length) → IsItem value :=
      fun ran => (entry_of_run ran).elim fun _ shape => shape.isItem
    exact ⟨⟨⟨_, (uint rfl).1⟩, outputs rfl⟩, ⟨⟨_, (uint rfl).1⟩, outputs rfl⟩,
      ⟨⟨_, (uint rfl).1⟩, outputs rfl⟩, ⟨⟨_, (uint rfl).1⟩, (uint rfl).2⟩, nofun⟩

theorem repeatedBody_outputs : outputArrays repeatedBody =
    [[⟨[0x61], 1, none, none, none⟩], [⟨[0x61], 2, none, none, none⟩]] := by
  obtain ⟨first, shape⟩ := entry_of_run
    (rfl : (decodeConwayOutputs [0x81, 0x82, 0x41, 0x61, 0x01]).runAt 0 =
      (.ok [⟨[0x61], 1, none, none, none⟩], 5))
  obtain ⟨second, shape'⟩ := entry_of_run
    (rfl : (decodeConwayOutputs [0x81, 0x82, 0x41, 0x61, 0x02]).runAt 0 =
      (.ok [⟨[0x61], 2, none, none, none⟩], 5))
  have listed : List.Forall₂ IsEntry (valuesOf 1 repeatedOutputs)
      [(first, [⟨[0x61], 1, none, none, none⟩]), (second, [⟨[0x61], 2, none, none, none⟩])] :=
    .cons shape (.cons shape' .nil)
  exact outputArrays_eq repeatedBody_shape listed

end Ade.Proof.Ledger
