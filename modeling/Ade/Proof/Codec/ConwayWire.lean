import Ade.Proof.Codec.ConwayWrite

/-! The inputs and the network id of a body beside the integers that stand in its bytes. -/

namespace Ade.Proof.Codec
open Std (ExtTreeSet)
open Library Cursor Ade.Codec
open Ade.Ledger (TxIn)

/-! ## The integers in the bytes -/

structure WireTxIn where
  txHash : Hash32
  index : UInt64
deriving DecidableEq

structure WireBody where
  inputs : Option (List WireTxIn)
  collateralInputs : Option (List WireTxIn)
  referenceInputs : Option (List WireTxIn)
  networkId : Option UInt64
deriving DecidableEq

def readWireTxIn (data : Bytes) : Read WireTxIn := do
  expectPair "tx input must be array(2)" (do
    let txHash ← readHash32 data
    let (index, _) ← readUint data
    return { txHash, index }) (← readArrayHeader data)

def readWireTxIns (data : Bytes) : Read (List WireTxIn) := do
  skipOptionalTag data
  readArray data (readWireTxIn data)

def readWireValue (data : Bytes) (wire : WireBody) (key : UInt64) : Read WireBody := do
  if key = 0 then return { wire with inputs := some (← readWireTxIns data) }
  else if key = 13 then return { wire with collateralInputs := some (← readWireTxIns data) }
  else if key = 15 then return { wire with networkId := some (← readCoin data) }
  else if key = 18 then return { wire with referenceInputs := some (← readWireTxIns data) }
  else
    let _ ← skip data
    return wire

def readWireEntry (data : Bytes) (wire : WireBody) : Read WireBody := do
  readWireValue data wire (← readUint data).1

def readWireBody (data : Bytes) : Read WireBody := do
  expectDefinite "Conway tx body must be definite-length map" (fun count =>
    Cursor.iterate (readWireEntry data) count.toNat ⟨none, none, none, none⟩) (← readMapHeader data)

def WireTxIn.narrow (written : WireTxIn) : TxIn := ⟨written.txHash, UInt16.ofNat written.index.toNat⟩

def widen (input : TxIn) : WireTxIn := ⟨input.txHash, input.index.toUInt64⟩

def narrowAll (written : List WireTxIn) : BTreeSet TxIn :=
  ExtTreeSet.ofList (written.map WireTxIn.narrow)

/-- The inputs are those in the bytes, so that none of these are taken for each other. -/
def InputsAsWritten : Option (List WireTxIn) → Option (BTreeSet TxIn) → Prop
  | some written, some inputs => ∀ input, input ∈ written ↔ ∃ decoded ∈ inputs, widen decoded = input
  | none, none => True
  | _, _ => False

structure AsWritten {Procedure : Type} (wire : WireBody) (body : ConwayTxBody Procedure) : Prop where
  inputs : InputsAsWritten wire.inputs (some body.inputs)
  collateralInputs : InputsAsWritten wire.collateralInputs body.collateralInputs
  referenceInputs : InputsAsWritten wire.referenceInputs body.referenceInputs
  networkId : body.networkId.map UInt8.toUInt64 = wire.networkId

def IndicesFit (written : Option (List WireTxIn)) : Prop :=
  ∀ inputs, written = some inputs → ∀ input ∈ inputs, input.index.toNat < 2 ^ 16

structure WithinWidths (wire : WireBody) : Prop where
  inputs : IndicesFit wire.inputs
  collateralInputs : IndicesFit wire.collateralInputs
  referenceInputs : IndicesFit wire.referenceInputs
  networkId : ∀ id, wire.networkId = some id → id.toNat < 2 ^ 8

/-! ## Narrowing -/

theorem widen_narrow {written : WireTxIn} (fits : written.index.toNat < 2 ^ 16) :
    widen written.narrow = written := by
  have same : (UInt16.ofNat written.index.toNat).toUInt64 = written.index := by
    apply UInt64.toNat_inj.mp
    rw [UInt16.toNat_toUInt64, UInt16.toNat_ofNat_of_lt' fits]
  rw [widen, WireTxIn.narrow, same]

theorem inputsAsWritten_iff (written : Option (List WireTxIn)) :
    InputsAsWritten written (written.map narrowAll) ↔ IndicesFit written := by
  cases written with
  | none => exact ⟨fun _ _ absent => (nomatch absent), fun _ => trivial⟩
  | some written =>
      have member : ∀ input, input ∈ narrowAll written ↔ ∃ wire ∈ written, wire.narrow = input := by
        intro input
        rw [narrowAll, ExtTreeSet.mem_ofList, List.contains_iff_mem, List.mem_map]
      constructor
      · rintro same _ ⟨⟩ input isWritten
        obtain ⟨decoded, -, rfl⟩ := (same input).mp isWritten
        rw [widen, UInt16.toNat_toUInt64]
        exact UInt16.toNat_lt decoded.index
      · intro fits input
        constructor
        · intro isWritten
          exact ⟨input.narrow, (member _).mpr ⟨input, isWritten, rfl⟩,
            widen_narrow (fits written rfl input isWritten)⟩
        · rintro ⟨decoded, isDecoded, rfl⟩
          obtain ⟨wire, isWritten, rfl⟩ := (member _).mp isDecoded
          rwa [widen_narrow (fits written rfl wire isWritten)]

theorem networkId_iff (written : Option UInt64) :
    (written.map fun id => UInt8.ofNat id.toNat).map UInt8.toUInt64 = written ↔
      ∀ id, written = some id → id.toNat < 2 ^ 8 := by
  cases written with
  | none => exact ⟨fun _ _ absent => (nomatch absent), fun _ => rfl⟩
  | some id =>
      simp only [Option.map_some, Option.some.injEq, forall_eq']
      constructor
      · intro same
        rw [← same, UInt8.toNat_toUInt64]
        exact UInt8.toNat_lt _
      · intro fits
        apply UInt64.toNat_inj.mp
        rw [UInt8.toNat_toUInt64, UInt8.toNat_ofNat_of_lt' fits]

/-! ## Reading both -/

section
variable {ε α β : Type}

theorem times_map (f : α → β) (element : Cursor ε α) (count : Nat) :
    Cursor.times (f <$> element) count = List.map f <$> Cursor.times element count := by
  induction count with
  | zero => rw [Cursor.times, Cursor.times, map_pure, List.map_nil]
  | succ count ih =>
      rw [Cursor.times, Cursor.times, ih]
      simp only [map_eq_pure_bind, bind_assoc, pure_bind, List.map_cons]

theorem untilBreak_map (f : α → β) (data : Bytes) (element : Read α) (left : Nat) :
    untilBreak data (f <$> element) left = List.map f <$> untilBreak data element left := by
  induction left with
  | zero => rw [untilBreak, untilBreak, map_bind]; rfl
  | succ left ih =>
      rw [untilBreak, untilBreak, ih, map_bind]
      congr
      funext broken
      cases broken
      · simp
      · simp

theorem readArray_map (f : α → β) (data : Bytes) (element : Read α) :
    readArray data (f <$> element) = List.map f <$> readArray data element := by
  rw [readArray, readArray, map_bind]
  congr
  funext encoding
  cases encoding with
  | definite count width => exact times_map f element count.toNat
  | indefinite =>
      simp only [untilBreak_map]
      simp

end

theorem decodeTxIn_eq (data : Bytes) : decodeTxIn data = WireTxIn.narrow <$> readWireTxIn data := by
  rw [decodeTxIn, readWireTxIn, map_bind]
  congr
  funext encoding
  cases encoding with
  | indefinite => rw [expectPair, expectPair, map_bind]; rfl
  | definite count width =>
      rw [expectPair, expectPair]
      split_ifs
      · simp [WireTxIn.narrow]
      · rw [map_bind]; rfl

theorem taggedInputs_eq (data : Bytes) :
    (do skipOptionalTag data; decodeTxInputs data) = narrowAll <$> readWireTxIns data := by
  rw [readWireTxIns, map_bind]
  congr
  funext _
  rw [decodeTxInputs, decodeTxIn_eq, readArray_map, bind_map_left, ← bind_pure_comp]
  rfl

theorem readWireTxIns_items : Items readWireTxIns := by
  have items := txIn_items WireTxIn.mk
  exact optionalTag_exact (readArray_items items)

section
variable {Procedure : Type} {decodeProposalProcedures : Bytes → Except CodecError (List Procedure)}

/-- The fields hold what the integers are narrowed to. -/
structure Narrowed (wire : WireBody) (body : PartialTxBody Procedure) : Prop where
  inputs : body.inputs = wire.inputs.map narrowAll
  collateralInputs : body.collateralInputs = wire.collateralInputs.map narrowAll
  referenceInputs : body.referenceInputs = wire.referenceInputs.map narrowAll
  networkId : body.networkId = wire.networkId.map fun id => UInt8.ofNat id.toNat

/-- The value of an entry is read as integers too, and the fields still hold these. -/
def Follows (body : PartialTxBody Procedure) (key : UInt64) (value : Bytes)
    (next : PartialTxBody Procedure) : Prop :=
  ∀ wire, Narrowed wire body →
    ∃ wireNext, Reads (fun data => readWireValue data wire key) value wireNext ∧ Narrowed wireNext next

theorem skipped_reads {σ : Type} {written : Bytes} (item : IsItem written) (state : σ) :
    Reads (fun data => (do let _ ← skip data; return state : Read σ)) written state := by
  intro before after
  rw [runAt_bind_ok (skip_item item before after)]
  rfl

/-- A value that is none of the integers. -/
theorem follows_other {α : Type} {read : Bytes → Read α} {body : PartialTxBody Procedure}
    {key at_ : UInt64} (update : α → PartialTxBody Procedure) (items : Items read)
    (other : at_ ≠ 0 ∧ at_ ≠ 13 ∧ at_ ≠ 15 ∧ at_ ≠ 18) (here : key = at_)
    (keeps : ∀ wire, Narrowed wire body → ∀ value, Narrowed wire (update value)) :
    Exact (fun _ data => read data >>= fun value => pure (update value)) (Follows body key) := by
  subst here
  refine (Exact.bind items fun value => Exact.pure (update value)).mono ?_
  rintro written result ⟨head, tail, value, rfl, item, rfl, rfl⟩ wire narrowed
  rw [List.append_nil]
  refine ⟨wire, ?_, keeps wire narrowed value⟩
  obtain ⟨not0, not13, not15, not18⟩ := other
  simp only [readWireValue, if_neg not0, if_neg not13, if_neg not15, if_neg not18]
  exact skipped_reads item wire

/-- A value that is read as integers, which the fields then hold. -/
theorem follows_narrowed {α : Type} {read : Bytes → Read α} {body : PartialTxBody Procedure}
    {key at_ : UInt64} (update : α → PartialTxBody Procedure) (set : WireBody → α → WireBody)
    (items : Items read) (here : key = at_)
    (selects : ∀ data wire, readWireValue data wire at_ = read data >>= fun value => pure (set wire value))
    (keeps : ∀ wire, Narrowed wire body → ∀ value, Narrowed (set wire value) (update value)) :
    Exact (fun _ data => read data >>= fun value => pure (update value)) (Follows body key) := by
  subst here
  refine (Exact.bind (Exact.reads items) fun value => Exact.pure (update value)).mono ?_
  rintro written result ⟨head, tail, value, rfl, ⟨reads, -⟩, rfl, rfl⟩ wire narrowed
  rw [List.append_nil]
  refine ⟨set wire value, ?_, keeps wire narrowed value⟩
  simp only [selects]
  exact reads.last (Reads.pure _)

theorem decodeBodyValue_follows (body : PartialTxBody Procedure) (key : UInt64) :
    Exact (fun _ data => decodeBodyValue decodeProposalProcedures data body key) (Follows body key) := by
  have signers : Items fun data => skipOptionalTag data >>= fun _ => decodeRequiredSigners data :=
    tagged_items decodeRequiredSigners_items
  have other : ∀ {α : Type} {read : Bytes → Read α} {at_ : UInt64} (update : α → PartialTxBody Procedure),
      Items read → at_ ≠ 0 ∧ at_ ≠ 13 ∧ at_ ≠ 15 ∧ at_ ≠ 18 → key = at_ →
      (∀ value, (update value).inputs = body.inputs ∧
        (update value).collateralInputs = body.collateralInputs ∧
        (update value).referenceInputs = body.referenceInputs ∧
        (update value).networkId = body.networkId) →
      Exact (fun _ data => read data >>= fun value => pure (update value)) (Follows body key) := by
    intro α read at_ update items others here keeps
    refine follows_other update items others here fun wire narrowed value => ?_
    obtain ⟨inputs, collateral, reference, network⟩ := keeps value
    exact ⟨inputs.trans narrowed.inputs, collateral.trans narrowed.collateralInputs,
      reference.trans narrowed.referenceInputs, network.trans narrowed.networkId⟩
  have kept : body.inputs = body.inputs ∧ body.collateralInputs = body.collateralInputs ∧
      body.referenceInputs = body.referenceInputs ∧ body.networkId = body.networkId :=
    ⟨rfl, rfl, rfl, rfl⟩
  unfold decodeBodyValue
  simp only [← bind_assoc, taggedInputs_eq, bind_map_left]
  refine .ite (fun here => follows_narrowed _ (fun wire inputs => { wire with inputs := some inputs })
    readWireTxIns_items here (fun _ _ => rfl) fun wire narrowed inputs =>
      { narrowed with inputs := rfl }) fun not0 => ?_
  refine .ite (fun here => other _ (decodeConwayOutputs_exact.mono fun _ _ shape => shape.choose_spec.isItem)
    (by decide) here fun _ => kept) fun _ => ?_
  refine .ite (fun here => other _ readCoin_items (by decide) here fun _ => kept) fun _ => ?_
  refine .ite (fun here => other _ readCoin_items (by decide) here fun _ => kept) fun _ => ?_
  refine .ite (fun here => other _ readItem_items (by decide) here fun _ => kept) fun _ => ?_
  refine .ite (fun here => other _ readItem_items (by decide) here fun _ => kept) fun _ => ?_
  refine .ite (fun here => other _ (readHash_items 32 _) (by decide) here fun _ => kept) fun _ => ?_
  refine .ite (fun here => other _ readCoin_items (by decide) here fun _ => kept) fun _ => ?_
  refine .ite (fun here => other _ readItem_items (by decide) here fun _ => kept) fun _ => ?_
  refine .ite (fun here => other _ (readHash_items 32 _) (by decide) here fun _ => kept) fun _ => ?_
  refine .ite (fun here => follows_narrowed _ (fun wire inputs => { wire with collateralInputs := some inputs })
    readWireTxIns_items here (fun _ _ => rfl) fun wire narrowed inputs =>
      { narrowed with collateralInputs := rfl }) fun not13 => ?_
  refine .ite (fun here => other _ signers (by decide) here fun _ => kept) fun _ => ?_
  refine .ite (fun here => follows_narrowed _ (fun wire id => { wire with networkId := some id })
    readCoin_items here (fun _ _ => rfl) fun wire narrowed id =>
      { narrowed with networkId := rfl }) fun not15 => ?_
  refine .ite (fun here => other _ decodeBabbageTxOut_items (by decide) here fun _ => kept) fun _ => ?_
  refine .ite (fun here => other _ readCoin_items (by decide) here fun _ => kept) fun _ => ?_
  refine .ite (fun here => follows_narrowed _ (fun wire inputs => { wire with referenceInputs := some inputs })
    readWireTxIns_items here (fun _ _ => rfl) fun wire narrowed inputs =>
      { narrowed with referenceInputs := rfl }) fun not18 => ?_
  refine .ite (fun here => other _ readItem_items (by decide) here fun _ => kept) fun _ => ?_
  refine .ite (fun here => other _ readProcedures_items (by decide) here fun _ => kept) fun _ => ?_
  refine .ite (fun here => other _ readCoin_items (by decide) here fun _ => kept) fun _ => ?_
  refine .ite (fun here => other _ readCoin_items (by decide) here fun _ => kept) fun _ => ?_
  refine (skipped_exact body).mono ?_
  rintro written result ⟨rfl, item⟩ wire narrowed
  refine ⟨wire, ?_, narrowed⟩
  simp only [readWireValue, if_neg not0, if_neg not13, if_neg not15, if_neg not18]
  exact skipped_reads item wire

/-! ## The whole body -/

/-- The entries are read as integers too, and the fields still hold these. -/
def FollowsEntry (body : PartialTxBody Procedure) (entry : Bytes) (next : PartialTxBody Procedure) : Prop :=
  ∀ wire, Narrowed wire body →
    ∃ wireNext, Reads (fun data => readWireEntry data wire) entry wireNext ∧ Narrowed wireNext next

theorem decodeBodyEntry_follows (body : PartialTxBody Procedure) :
    Exact (fun _ data => decodeBodyEntry decodeProposalProcedures data body) (FollowsEntry body) := by
  refine (Exact.bind (Exact.reads readUint_items) fun key => decodeBodyValue_follows body key.1).mono ?_
  rintro written next ⟨keyBytes, value, key, rfl, ⟨reads, -⟩, follows⟩ wire narrowed
  obtain ⟨wireNext, valueReads, narrowed⟩ := follows wire narrowed
  exact ⟨wireNext, reads.bind valueReads, narrowed⟩

theorem chain_follows {first last : PartialTxBody Procedure} {entries : List Bytes}
    (chain : Exact.Chain FollowsEntry first entries last) : ∀ wire, Narrowed wire first →
      ∃ wireLast, Reads (fun data => Cursor.iterate (readWireEntry data) entries.length wire) entries.flatten
        wireLast ∧ Narrowed wireLast last := by
  induction chain with
  | nil state => exact fun wire narrowed => ⟨wire, .pure wire, narrowed⟩
  | cons head tail ih =>
      intro wire narrowed
      obtain ⟨wireNext, reads, narrowed⟩ := head wire narrowed
      obtain ⟨wireLast, readsLast, narrowed⟩ := ih wireNext narrowed
      exact ⟨wireLast, reads.bind readsLast, narrowed⟩

theorem decodeConwayTxBody_follows : Exact (fun _ => decodeConwayTxBody decodeProposalProcedures)
    fun written body => ∃ wire, Reads readWireBody written wire ∧ Narrowed wire (complete body) := by
  have entries_ : ∀ count : UInt64, Exact (fun _ data => (do
      requireFields (← Cursor.iterate (decodeBodyEntry decodeProposalProcedures data) count.toNat
        .empty) : Read (ConwayTxBody Procedure))) fun written body =>
        ∃ wire, Reads (fun data => Cursor.iterate (readWireEntry data) count.toNat ⟨none, none, none, none⟩)
          written wire ∧ Narrowed wire (complete body) := by
    intro count
    refine (Exact.bind (Exact.iterate decodeBodyEntry_follows count.toNat _) requireFields_exact).mono ?_
    rintro written body ⟨head, tail, last, rfl, ⟨entries, rfl, counted, chain⟩, rfl, rfl⟩
    rw [List.append_nil, ← counted]
    exact chain_follows chain _ ⟨rfl, rfl, rfl, rfl⟩
  refine (Exact.bind (Exact.reads readMapHeader_exact) (expectDefinite_exact _ entries_)).mono ?_
  rintro written body ⟨header, rest, encoding, rfl, ⟨reads, -⟩, count, width, rfl, wire, entries, narrowed⟩
  exact ⟨wire, reads.bind entries, narrowed⟩

theorem asWritten_iff {wire : WireBody} {body : ConwayTxBody Procedure} (narrowed : Narrowed wire (complete body)) :
    AsWritten wire body ↔ WithinWidths wire := by
  have inputs : some body.inputs = wire.inputs.map narrowAll := narrowed.inputs
  have collateral : body.collateralInputs = wire.collateralInputs.map narrowAll := narrowed.collateralInputs
  have reference : body.referenceInputs = wire.referenceInputs.map narrowAll := narrowed.referenceInputs
  have network : body.networkId = wire.networkId.map fun id => UInt8.ofNat id.toNat := narrowed.networkId
  constructor
  · intro same
    have inputsSame := same.inputs
    have collateralSame := same.collateralInputs
    have referenceSame := same.referenceInputs
    have networkSame := same.networkId
    rw [inputs, inputsAsWritten_iff] at inputsSame
    rw [collateral, inputsAsWritten_iff] at collateralSame
    rw [reference, inputsAsWritten_iff] at referenceSame
    rw [network, networkId_iff] at networkSame
    exact ⟨inputsSame, collateralSame, referenceSame, networkSame⟩
  · intro fits
    refine ⟨?_, ?_, ?_, ?_⟩
    · rw [inputs, inputsAsWritten_iff]
      exact fits.inputs
    · rw [collateral, inputsAsWritten_iff]
      exact fits.collateralInputs
    · rw [reference, inputsAsWritten_iff]
      exact fits.referenceInputs
    · rw [network, networkId_iff]
      exact fits.networkId

end

/-! ## The claims of the codec together -/

/-- The value is read from the bytes, and takes them all. -/
def ReadBack {α : Type} (read : Bytes → Read α) (written : Bytes) (value : α) : Prop :=
  runAt (read written) 0 = (.ok value, written.length)

theorem readBack {α : Type} {read : Bytes → Read α} {written : Bytes} {value : α}
    (reads : Reads read written value) : ReadBack read written value := by
  have ran := reads [] []
  rwa [List.nil_append, List.append_nil, List.length_nil, Nat.zero_add] at ran

theorem readInOrder_iff (output : BabbageTxOut) :
    readInOrder output = output ↔ (output.scriptRef.isSome → output.datumOption.isSome) := by
  obtain ⟨address, coin, assets, datum, script⟩ := output
  cases datum <;> cases script <;> simp [readInOrder]

theorem readBack_array_iff {output : BabbageTxOut} (valid : WellFormedOutput output) :
    ReadBack decodeBabbageTxOut (encodeBabbageTxOutArray output) output ↔
      (output.scriptRef.isSome → output.datumOption.isSome) := by
  have read := readBack (encodeBabbageTxOutArray_writes valid).reads
  rw [ReadBack] at read
  rw [← readInOrder_iff, ReadBack, read, Prod.mk.injEq, Except.ok.injEq]
  exact and_iff_left rfl

theorem wire_of_accepted {Procedure : Type} {decodeProposalProcedures : Bytes → Except CodecError (List Procedure)}
    {data : Bytes} {body : ConwayTxBody Procedure} {after : Nat}
    (accepted : runAt (decodeConwayTxBody decodeProposalProcedures data) 0 = (.ok body, after)) :
    ∃ wire, runAt (readWireBody data) 0 = (.ok wire, after) ∧ (AsWritten wire body ↔ WithinWidths wire) := by
  obtain ⟨written, remaining, rfl, rfl, -, wire, reads, narrowed⟩ :=
    decodeConwayTxBody_follows 0 [] data body after accepted
  exact ⟨wire, reads [] remaining, asWritten_iff narrowed⟩

theorem conway_body_codec_iff {body : ConwayTxBody ProposalProcedure} (validBody : WellFormedBody body)
    {output : BabbageTxOut} (validOutput : WellFormedOutput output) {data : Bytes}
    {decoded : ConwayTxBody ProposalProcedure} {after : Nat}
    (accepted : runAt (decodeConwayTxBody decodeProposalProcedures data) 0 = (.ok decoded, after)) :
    ReadBack (decodeConwayTxBody decodeProposalProcedures) (encodeConwayTxBody body) body ∧
      ReadBack decodeBabbageTxOut (encodeBabbageTxOutMap output) output ∧
      (ReadBack decodeBabbageTxOut (encodeBabbageTxOutArray output) output ↔
        (output.scriptRef.isSome → output.datumOption.isSome)) ∧
      ∃ wire, runAt (readWireBody data) 0 = (.ok wire, after) ∧
        (AsWritten wire decoded ↔ WithinWidths wire) :=
  ⟨readBack (encodeConwayTxBody_writes validBody).reads, readBack (encodeBabbageTxOutMap_writes validOutput).reads,
    readBack_array_iff validOutput, wire_of_accepted accepted⟩

def scriptOnly : BabbageTxOut := ⟨[0x61], 5, none, none, some [0x80]⟩

theorem scriptOnly_wellFormed : WellFormedOutput scriptOnly :=
  ⟨by decide, by rintro _ ⟨⟩, by rintro _ ⟨⟩, by rintro _ ⟨⟩; exact singleItem_emptyArray⟩

def sampleBody : ConwayTxBody ProposalProcedure where
  inputs := ExtTreeSet.ofList [(⟨Vector.replicate 32 7, 65535⟩ : TxIn)]
  outputs := [scriptOnly]
  fee := 170000
  ttl := none
  certs := some [0x80]
  withdrawals := none
  metadataHash := none
  validityIntervalStart := some 9
  mint := none
  scriptDataHash := none
  collateralInputs := none
  requiredSigners := none
  networkId := some 1
  collateralReturn := some scriptOnly
  totalCollateral := none
  referenceInputs := none
  votingProcedures := none
  proposalProcedures := some sampleProposals
  treasuryValue := none
  donation := none

theorem sampleBody_wellFormed : WellFormedBody sampleBody where
  items := by
    rintro field member bytes rfl
    rcases List.mem_cons.mp member with same | absent
    · cases same
      exact singleItem_emptyArray
    · simp [sampleBody] at absent
  outputs := List.forall_mem_singleton.mpr scriptOnly_wellFormed
  collateralReturn := by rintro _ ⟨⟩; exact scriptOnly_wellFormed
  procedures := by
    rintro _ ⟨⟩
    exact ⟨List.cons_ne_nil _ _, (by decide : 2 < 2 ^ 64), sampleProposals_wellFormed⟩
  inputSizes := by
    rintro field member inputs rfl
    rcases List.mem_cons.mp member with same | absent
    · cases same
      exact Nat.lt_of_le_of_lt ExtTreeSet.size_ofList_le (by decide)
    · simp [sampleBody] at absent
  outputSize := (by decide : 1 < 2 ^ 64)
  signerSize := by rintro _ ⟨⟩

theorem conway_body_codec_iff_sample :
    (ReadBack decodeBabbageTxOut (encodeBabbageTxOutArray scriptOnly) scriptOnly ↔ (true → false)) ∧
      ∃ wire, runAt (readWireBody (encodeConwayTxBody sampleBody)) 0 =
          (.ok wire, (encodeConwayTxBody sampleBody).length) ∧
        (AsWritten wire sampleBody ↔ WithinWidths wire) :=
  have accepted := readBack (encodeConwayTxBody_writes sampleBody_wellFormed).reads
  (conway_body_codec_iff sampleBody_wellFormed scriptOnly_wellFormed accepted).2.2

/-- Two inputs whose indices are 0 and 65536, no outputs, no fee, and the network id 256. -/
def wideBody : Bytes :=
  [0xa4, 0x00, 0x82] ++ ([0x82, 0x58, 0x20] ++ List.replicate 32 7 ++ [0x00]) ++
    ([0x82, 0x58, 0x20] ++ List.replicate 32 7 ++ [0x1a, 0, 1, 0, 0]) ++
    [0x01, 0x80, 0x02, 0x00, 0x0f, 0x19, 1, 0]

theorem narrowed_and_moved :
    (∃ output, WellFormedOutput output ∧
      ¬ ReadBack decodeBabbageTxOut (encodeBabbageTxOutArray output) output) ∧
    ∃ body wire, ReadBack (decodeConwayTxBody decodeProposalProcedures) wideBody body ∧
      ReadBack readWireBody wideBody wire ∧ ¬ AsWritten wire body := by
  refine ⟨⟨scriptOnly, scriptOnly_wellFormed, ?_⟩, ?_⟩
  · rw [readBack_array_iff scriptOnly_wellFormed]
    exact fun claimed => nomatch claimed rfl
  · let indices : List WireTxIn := [⟨Vector.replicate 32 7, 0⟩, ⟨Vector.replicate 32 7, 65536⟩]
    have wireRead : runAt (readWireBody wideBody) 0 =
      (.ok ⟨some indices, none, none, some 256⟩, wideBody.length) := by decide +kernel
    have decodes : (runAt (decodeConwayTxBody decodeProposalProcedures wideBody) 0).1.isOk := by decide
    rcases ran : runAt (decodeConwayTxBody decodeProposalProcedures wideBody) 0 with ⟨failure | body, after⟩
    · rw [ran] at decodes
      cases decodes
    · obtain ⟨wire, wireRan, same⟩ := wire_of_accepted ran
      rw [wireRead] at wireRan
      cases wireRan
      refine ⟨body, _, ran, wireRead, ?_⟩
      rw [same]
      intro fits
      have small := fits.inputs indices rfl _ (List.mem_cons_of_mem _ (List.mem_singleton_self _))
      exact absurd small (by decide)

end Ade.Proof.Codec
