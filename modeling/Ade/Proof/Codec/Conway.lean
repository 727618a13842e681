import Ade.Proof.Codec.Items

/-! Every decoder of a value in a transaction body takes exactly one item. -/

namespace Ade.Proof.Codec
open Std (ExtTreeSet)
open Library Cursor Ade.Codec

def Items {α : Type} (read : Bytes → Read α) : Prop := Exact (fun _ => read) fun written _ => IsItem written

theorem Items.bind_pure {α β : Type} {read : Bytes → Read α} (items : Items read) (f : α → β) :
    Items fun data => read data >>= fun value => pure (f value) := by
  refine (Exact.bind items fun value => Exact.pure (f value)).mono ?_
  rintro written result ⟨head, tail, value, rfl, item, rfl, -⟩
  rwa [List.append_nil]

theorem Items.bind_except {α β : Type} {read : Bytes → Read α} (items : Items read)
    (f : α → Except CodecError β) :
    Items fun data => read data >>= fun value => liftExcept (f value) := by
  have second : ∀ value, Exact (fun _ (_ : Bytes) => (liftExcept (f value) : Read β))
      fun written _ => written = [] := by
    intro value
    cases f value with
    | error failure => exact Exact.thrown fun _ => failure
    | ok result => exact (Exact.pure result).mono fun written _ known => known.1
  refine (Exact.bind items second).mono ?_
  rintro written result ⟨head, tail, value, rfl, item, rfl⟩
  rwa [List.append_nil]

theorem readUint_items : Items readUint :=
  Exact.mono readUint_exact fun _ _ seen => isItem_leaf seen

theorem readBytes_items : Items readBytes :=
  Exact.mono readBytes_exact fun _ _ seen => isItem_leaf seen

theorem readCoin_items : Items readCoin := readUint_items.bind_pure Prod.fst

theorem readItem_items : Items readItem := Exact.mono readItem_exact fun _ _ known => known.2

theorem readHash_items (size : Nat) (detail : String) : Items (readHash size detail) := by
  have second : ∀ value : Bytes × IntWidth, Exact (fun _ (_ : Bytes) =>
      (if sized : value.1.toArray.size = size then pure ⟨value.1.toArray, sized⟩
      else get >>= fun offset => throw (.invalidLength (offset - value.1.length) detail) :
        Read (Vector UInt8 size))) fun written _ => written = [] := by
    intro value
    by_cases sized : value.1.toArray.size = size
    · simp only [dif_pos sized]
      exact (Exact.pure _).mono fun written _ known => known.1
    · simp only [dif_neg sized]
      exact Exact.thrownHere fun _ offset => CodecError.invalidLength (offset - value.1.length) detail
  refine (Exact.bind readBytes_items second).mono ?_
  rintro written result ⟨head, tail, value, rfl, item, rfl⟩
  rwa [List.append_nil]

theorem readArrayHeader_exact : Exact (fun _ => readArrayHeader) fun written encoding =>
    Reads readHead written (headOf majorArray encoding) :=
  readContainerHeader_exact "array" (.inl rfl)

theorem readMapHeader_exact : Exact (fun _ => readMapHeader) fun written encoding =>
    Reads readHead written (headOf majorMap encoding) :=
  readContainerHeader_exact "map" (.inr rfl)

theorem expectPair_exact {α : Type} {next : Bytes → Read α} {facts : Bytes → α → Prop}
    (detail : String) (exact_ : Exact (fun _ => next) facts) (encoding : ContainerEncoding) :
    Exact (fun _ data => expectPair detail (next data) encoding) fun written value =>
      (∃ width, encoding = .definite 2 width) ∧ facts written value := by
  have fails : ∀ {facts : Bytes → α → Prop}, Exact (fun _ (_ : Bytes) =>
      (get >>= fun offset => throw (.invalidCborStructure offset detail) : Read α)) facts :=
    Exact.thrownHere fun _ offset => CodecError.invalidCborStructure offset detail
  cases encoding with
  | indefinite => exact fails
  | definite count width =>
      by_cases two : count = 2
      · subst two
        exact exact_.mono fun _ _ known => ⟨⟨width, rfl⟩, known⟩
      · simp only [expectPair, if_neg two]
        exact fails

theorem expectDefinite_exact {α : Type} {next : UInt64 → Bytes → Read α}
    {facts : UInt64 → Bytes → α → Prop} (detail : String)
    (exact_ : ∀ count, Exact (fun _ => next count) (facts count)) (encoding : ContainerEncoding) :
    Exact (fun _ data => expectDefinite detail (fun count => next count data) encoding)
      fun written value => ∃ count width, encoding = .definite count width ∧
        facts count written value := by
  cases encoding with
  | indefinite =>
      exact Exact.thrownHere fun _ offset => CodecError.invalidCborStructure offset detail
  | definite count width =>
      exact (exact_ count).mono fun _ _ known => ⟨count, width, rfl, known⟩

/-- The pairs of a map, as the walkers count them. -/
def IsPair (chunk : Bytes) : Prop := ∃ first second, chunk = first ++ second ∧ IsItem first ∧ IsItem second

theorem isItem_pair {header rest : Bytes} {width : IntWidth}
    (seen : Reads readHead header (headOf majorArray (.definite 2 width))) (pair : IsPair rest) :
    IsItem (header ++ rest) := by
  obtain ⟨first, second, rfl, one, two⟩ := pair
  have both : ∀ item ∈ [first, second], IsItem item := by simp [one, two]
  simpa using isItem_array seen rfl both

theorem isItem_map {header : Bytes} {count : UInt64} {width : IntWidth} {chunks : List Bytes}
    (seen : Reads readHead header (headOf majorMap (.definite count width)))
    (counted : chunks.length = count.toNat) (pairs : ∀ chunk ∈ chunks, IsPair chunk) :
    IsItem (header ++ chunks.flatten) := by
  have items : ∃ items : List Bytes, items.length = chunks.length * 2 ∧
      items.flatten = chunks.flatten ∧ ∀ item ∈ items, IsItem item := by
    clear counted
    induction chunks with
    | nil => exact ⟨[], rfl, rfl, by simp⟩
    | cons chunk chunks ih =>
        obtain ⟨items, sized, same, each⟩ := ih fun other member =>
          pairs other (List.mem_cons_of_mem _ member)
        obtain ⟨first, second, rfl, one, two⟩ := pairs chunk (List.mem_cons_self ..)
        refine ⟨first :: second :: items, ?_, ?_, ?_⟩
        · rw [List.length_cons, List.length_cons, List.length_cons, sized]
          omega
        · rw [List.flatten_cons, List.flatten_cons, List.flatten_cons, same, List.append_assoc]
        · intro item member
          rcases List.mem_cons.mp member with rfl | member
          · exact one
          · rcases List.mem_cons.mp member with rfl | member
            · exact two
            · exact each item member
  obtain ⟨items, sized, same, each⟩ := items
  rw [← same]
  apply isItem_of_head seen
  rw [show owedBy (headOf majorMap (.definite count width)) = [some (count.toNat * 2)] from rfl,
    ← counted, ← sized]
  exact skipsOver_items each

/-! ## Inputs -/

/-- A hash and an index, whatever is made of them. -/
theorem txIn_items {α : Type} (make : Hash32 → UInt64 → α) : Items fun data => (do
    expectPair "tx input must be array(2)" (do
      let txHash ← readHash32 data
      let (index, _) ← readUint data
      return make txHash index) (← readArrayHeader data) : Read α) := by
  have fields : Exact (fun _ data => (do
      let txHash ← readHash32 data
      let (index, _) ← readUint data
      return make txHash index : Read α))
      fun written _ => IsPair written := by
    refine (Exact.bind (readHash_items 32 _) fun txHash =>
      readUint_items.bind_pure fun index => _).mono ?_
    rintro written result ⟨first, second, txHash, rfl, one, two⟩
    exact ⟨first, second, rfl, one, two⟩
  refine (Exact.bind readArrayHeader_exact (expectPair_exact _ fields)).mono ?_
  rintro written result ⟨header, rest, encoding, rfl, seen, ⟨width, rfl⟩, pair⟩
  exact isItem_pair seen pair

theorem decodeTxIn_items : Items decodeTxIn := by
  have items := txIn_items fun txHash index => ({ txHash, index := UInt16.ofNat index.toNat } : Ledger.TxIn)
  exact items

theorem readArray_items {α : Type} {element : Bytes → Read α} (items : Items element) :
    Items fun data => readArray data (element data) := by
  refine (readArray_exact items fun _ _ item => item).mono ?_
  rintro written values ⟨header, chunks, tail, rfl, array, listed⟩
  exact isItem_of_readArray (fun _ _ item => item) array listed

theorem decodeTxInputs_items : Items decodeTxInputs :=
  (readArray_items decodeTxIn_items).bind_pure _

theorem decodeRequiredSigners_items : Items decodeRequiredSigners :=
  optionalTag_exact ((readArray_items (readHash_items 28 _)).bind_pure _)

/-! ## Outputs -/

theorem decodeValue_items : Items decodeValue := by
  have plain : Items fun data => (do
      let (coin, _) ← readUint data
      return (coin, none) : Read (Coin × Option Bytes)) := readUint_items.bind_pure _
  have fields : Exact (fun _ data => (do
      let (coin, _) ← readUint data
      let multiAsset ← readItem data
      return (coin, some multiAsset) : Read (Coin × Option Bytes))) fun written _ => IsPair written := by
    refine (Exact.bind readUint_items fun coin => readItem_items.bind_pure fun assets => _).mono ?_
    rintro written result ⟨first, second, coin, rfl, one, two⟩
    exact ⟨first, second, rfl, one, two⟩
  refine peek_exact (fun major => .ite (fun _ => plain) fun _ => .ite (fun _ => ?_) fun _ => ?_)
    fun _ _ item => item.ne_nil
  · refine (Exact.bind readArrayHeader_exact (expectPair_exact _ fields)).mono ?_
    rintro written result ⟨header, rest, encoding, rfl, seen, ⟨width, rfl⟩, pair⟩
    exact isItem_pair seen pair
  · exact Exact.thrownHere fun _ offset =>
      CodecError.unexpectedCborType offset "uint or array for value" major

theorem Items.pair {α β γ : Type} {first : Bytes → Read α} {second : α → Bytes → Read β}
    (one : Items first) (two : ∀ value, Items (second value)) (f : α → β → γ) :
    Exact (fun _ data => first data >>= fun value => second value data >>= fun other =>
      (pure (f value other) : Read γ)) fun written _ => IsPair written := by
  refine (Exact.bind one fun value => (two value).bind_pure (f value)).mono ?_
  rintro written result ⟨head, tail, value, rfl, item, item'⟩
  exact ⟨head, tail, rfl, item, item'⟩

theorem decodeTxOutEntry_exact (out : PartialTxOut) :
    Exact (fun _ data => decodeTxOutEntry data out) fun written _ => IsPair written := by
  have second : ∀ key : UInt64 × IntWidth, Items fun data => (do
      if key.1 = 0 then
        let address ← readBytes data
        return { out with address := some address.1 }
      else if key.1 = 1 then
        let value ← decodeValue data
        return { out with coin := value.1, multiAsset := value.2.or out.multiAsset }
      else if key.1 = 2 then return { out with datumOption := some (← readItem data) }
      else if key.1 = 3 then return { out with scriptRef := some (← readItem data) }
      else
        let _ ← skip data
        return out : Read PartialTxOut) := by
    intro key
    refine .ite (fun _ => readBytes_items.bind_pure _) fun _ => ?_
    refine .ite (fun _ => decodeValue_items.bind_pure _) fun _ => ?_
    refine .ite (fun _ => readItem_items.bind_pure _) fun _ => ?_
    refine .ite (fun _ => readItem_items.bind_pure _) fun _ => ?_
    exact (skipped_exact out).mono fun _ _ known => known.2
  refine (Exact.bind readUint_items second).mono ?_
  rintro written result ⟨head, tail, key, rfl, one, two⟩
  exact ⟨head, tail, rfl, one, two⟩

theorem Chain.each {τ σ : Type} {step : σ → List τ → σ → Prop} (fact : List τ → Prop)
    (facts : ∀ state chunk next, step state chunk next → fact chunk) {first last : σ}
    {chunks : List (List τ)} (chain : Exact.Chain step first chunks last) :
    ∀ chunk ∈ chunks, fact chunk := by
  induction chain with
  | nil => simp
  | cons head _ ih =>
      intro chunk member
      rcases List.mem_cons.mp member with rfl | member
      · exact facts _ _ _ head
      · exact ih chunk member

theorem decodeBabbageTxOutMap_items : Items decodeBabbageTxOutMap := by
  have require_ : ∀ out, Exact (fun _ (_ : Bytes) => requireAddress out) fun written _ =>
      written = [] := by
    intro out
    unfold requireAddress
    cases out.address with
    | some address => exact (Exact.pure _).mono fun _ _ known => known.1
    | none =>
        exact Exact.thrownHere fun _ offset => CodecError.invalidCborStructure offset
          "Babbage tx output missing address (key 0)"
  have entries : ∀ count : UInt64, Exact (fun _ data => (do
      requireAddress (← Cursor.iterate (decodeTxOutEntry data) count.toNat
        ⟨none, 0, none, none, none⟩) : Read BabbageTxOut)) fun written _ =>
        ∃ chunks : List Bytes, written = chunks.flatten ∧ chunks.length = count.toNat ∧
          ∀ chunk ∈ chunks, IsPair chunk := by
    intro count
    refine (Exact.bind (Exact.iterate decodeTxOutEntry_exact count.toNat _) require_).mono ?_
    rintro written result ⟨head, tail, out, rfl, ⟨chunks, rfl, counted, chain⟩, rfl⟩
    exact ⟨chunks, List.append_nil _, counted, Chain.each IsPair (fun _ _ _ pair => pair) chain⟩
  refine (Exact.bind readMapHeader_exact (expectDefinite_exact _ entries)).mono ?_
  rintro written result ⟨header, rest, encoding, rfl, seen, count, width, rfl, chunks, rfl, counted,
    pairs⟩
  exact isItem_map seen counted pairs

theorem readItemIf_exact (present : Bool) : Exact (fun _ => readItemIf present) fun written _ =>
    ∃ items : List Bytes, written = items.flatten ∧ items.length = present.toNat ∧
      ∀ item ∈ items, IsItem item := by
  cases present with
  | true =>
      refine readItem_items.map.mono ?_
      rintro written result ⟨value, item, rfl⟩
      exact ⟨[written], by simp, rfl, by simpa using item⟩
  | false =>
      refine (Exact.pure none).mono ?_
      rintro written result ⟨rfl, rfl⟩
      exact ⟨[], rfl, rfl, by simp⟩

theorem counted_fields {count : UInt64} (least : 2 ≤ count) (most : count ≤ 4) :
    2 + (decide (count ≥ 3)).toNat + (decide (count ≥ 4)).toNat = count.toNat := by
  have lower : 2 ≤ count.toNat := UInt64.le_iff_toNat_le.mp least
  have upper : count.toNat ≤ 4 := UInt64.le_iff_toNat_le.mp most
  have three : count ≥ 3 ↔ 3 ≤ count.toNat := UInt64.le_iff_toNat_le
  have four : count ≥ 4 ↔ 4 ≤ count.toNat := UInt64.le_iff_toNat_le
  simp only [three, four]
  by_cases atLeast3 : 3 ≤ count.toNat
  · by_cases atLeast4 : 4 ≤ count.toNat
    · simp only [atLeast3, atLeast4, decide_true, Bool.toNat_true]
      omega
    · simp only [atLeast3, atLeast4, decide_true, decide_false, Bool.toNat_true, Bool.toNat_false]
      omega
  · have not4 : ¬ 4 ≤ count.toNat := by omega
    simp only [atLeast3, not4, decide_false, Bool.toNat_false]
    omega

theorem decodeBabbageTxOutFields_exact (count : UInt64) :
    Exact (fun _ data => decodeBabbageTxOutFields data count) fun written _ =>
      ∃ items : List Bytes, written = items.flatten ∧ items.length = count.toNat ∧
        ∀ item ∈ items, IsItem item := by
  refine .ite (fun within => ?_) fun _ => ?_
  · refine (Exact.bind readBytes_items fun address => Exact.bind decodeValue_items fun value =>
      Exact.bind (readItemIf_exact (count ≥ 3)) fun datum =>
        Exact.bind (readItemIf_exact (count ≥ 4)) fun script => Exact.pure _).mono ?_
    rintro written result ⟨one, _, -, rfl, item, two, _, -, rfl, item', _, _, -, rfl,
      ⟨data, rfl, dataSize, dataItems⟩, _, _, -, rfl, ⟨scripts, rfl, scriptSize, scriptItems⟩, rfl, -⟩
    refine ⟨one :: two :: (data ++ scripts), ?_, ?_, ?_⟩
    · simp
    · rw [List.length_cons, List.length_cons, List.length_append, dataSize, scriptSize,
        ← counted_fields within.1 within.2]
      omega
    · intro part member
      rcases List.mem_cons.mp member with rfl | member
      · exact item
      rcases List.mem_cons.mp member with rfl | member
      · exact item'
      rcases List.mem_append.mp member with member | member
      · exact dataItems part member
      · exact scriptItems part member
  · exact Exact.thrownHere fun _ offset => CodecError.invalidCborStructure offset
      "Babbage tx output array must have 2-4 elements"

theorem decodeBabbageTxOutArray_items : Items decodeBabbageTxOutArray := by
  refine (Exact.bind readArrayHeader_exact
    (expectDefinite_exact _ decodeBabbageTxOutFields_exact)).mono ?_
  rintro written result ⟨header, rest, encoding, rfl, seen, count, width, rfl, items, rfl, counted,
    each⟩
  exact isItem_array seen counted each

theorem decodeBabbageTxOut_items : Items decodeBabbageTxOut :=
  peek_exact (fun major => .ite (fun _ => decodeBabbageTxOutMap_items) fun _ =>
    .ite (fun _ => decodeBabbageTxOutArray_items) fun _ => Exact.thrownHere fun _ offset =>
      CodecError.unexpectedCborType offset "array or map for Babbage tx output" major)
    fun _ _ item => item.ne_nil

/-! ## The entries of a body -/

/-- An array of outputs: the bytes of each, and what they decode to. -/
def IsOutputs (value : Bytes) (chunks : List Bytes) (outputs : List BabbageTxOut) : Prop :=
  ∃ header tail, value = header ++ (chunks.flatten ++ tail) ∧ IsArray header chunks tail ∧
    List.Forall₂ (fun chunk out => Reads decodeBabbageTxOut chunk out ∧ IsItem chunk) chunks outputs

theorem decodeConwayOutputs_exact : Exact (fun _ => decodeConwayOutputs) fun written outputs =>
    ∃ chunks, IsOutputs written chunks outputs := by
  refine (readArray_exact decodeBabbageTxOut_items fun _ _ item => item).mono ?_
  rintro written outputs ⟨header, chunks, tail, rfl, array, listed⟩
  exact ⟨chunks, header, tail, rfl, array, listed⟩

theorem IsOutputs.isItem {value : Bytes} {chunks : List Bytes} {outputs : List BabbageTxOut}
    (shape : IsOutputs value chunks outputs) : IsItem value := by
  obtain ⟨header, tail, rfl, array, listed⟩ := shape
  exact isItem_of_readArray (fun _ _ item => item) array listed

section
variable {Procedure : Type} {decodeProposalProcedures : Bytes → Except CodecError (List Procedure)}

/-- What the value of an entry changes, of the outputs and the certificates. -/
structure ValueRead (body : PartialTxBody Procedure) (key : UInt64) (value : Bytes)
    (next : PartialTxBody Procedure) : Prop where
  item : IsItem value
  outputs : key = 1 → ∃ chunks outputs, IsOutputs value chunks outputs ∧ next.outputs = some outputs
  otherOutputs : key ≠ 1 → next.outputs = body.outputs
  certs : key = 4 → next.certs = some value
  otherCerts : key ≠ 4 → next.certs = body.certs

/-- A value that is neither the outputs nor the certificates. -/
theorem valueRead_other {α : Type} {read : Bytes → Read α} {body : PartialTxBody Procedure}
    {key : UInt64} (items : Items read) (notOutputs : key ≠ 1) (notCerts : key ≠ 4)
    (update : α → PartialTxBody Procedure) (keepsOutputs : ∀ value, (update value).outputs = body.outputs)
    (keepsCerts : ∀ value, (update value).certs = body.certs) :
    Exact (fun _ data => read data >>= fun value => pure (update value)) (ValueRead body key) := by
  refine (Exact.bind items fun value => Exact.pure (update value)).mono ?_
  rintro written result ⟨head, tail, value, rfl, item, rfl, rfl⟩
  rw [List.append_nil]
  exact ⟨item, fun same => absurd same notOutputs, fun _ => keepsOutputs value,
    fun same => absurd same notCerts, fun _ => keepsCerts value⟩

theorem readProcedures_items : Items (readProcedures decodeProposalProcedures) :=
  readItem_items.bind_except decodeProposalProcedures

theorem tagged_items {α : Type} {read : Bytes → Read α} (items : Items read) :
    Items fun data => skipOptionalTag data >>= fun _ => read data :=
  optionalTag_exact items

theorem decodeBodyValue_exact (body : PartialTxBody Procedure) (key : UInt64) :
    Exact (fun _ data => decodeBodyValue decodeProposalProcedures data body key)
      (ValueRead body key) := by
  have other : ∀ {α : Type} {read : Bytes → Read α} {at_ : UInt64} (update : α → PartialTxBody Procedure),
      Items read → at_ ≠ 1 ∧ at_ ≠ 4 → key = at_ →
      (∀ value, (update value).outputs = body.outputs ∧ (update value).certs = body.certs) →
      Exact (fun _ data => read data >>= fun value => pure (update value)) (ValueRead body key) := by
    rintro α read at_ update items ⟨notOutputs, notCerts⟩ rfl keeps
    exact valueRead_other items notOutputs notCerts update (fun value => (keeps value).1)
      fun value => (keeps value).2
  have keeps : body.outputs = body.outputs ∧ body.certs = body.certs := ⟨rfl, rfl⟩
  have inputs : Items fun data => skipOptionalTag data >>= fun _ => decodeTxInputs data :=
    tagged_items decodeTxInputs_items
  have signers : Items fun data => skipOptionalTag data >>= fun _ => decodeRequiredSigners data :=
    tagged_items decodeRequiredSigners_items
  unfold decodeBodyValue
  simp only [← bind_assoc]
  refine .ite (fun here => other _ inputs (by decide) here fun _ => keeps) fun _ => ?_
  refine .ite (fun here => ?_) fun notOutputs => ?_
  · subst here
    refine (Exact.bind decodeConwayOutputs_exact fun outputs => Exact.pure _).mono ?_
    rintro written result ⟨head, tail, outputs, rfl, ⟨chunks, shape⟩, rfl, rfl⟩
    rw [List.append_nil]
    exact ⟨shape.isItem, fun _ => ⟨chunks, outputs, shape, rfl⟩, fun same => absurd rfl same,
      fun same => absurd same (by decide), fun _ => rfl⟩
  refine .ite (fun here => other _ readCoin_items (by decide) here fun _ => keeps) fun _ => ?_
  refine .ite (fun here => other _ readCoin_items (by decide) here fun _ => keeps) fun _ => ?_
  refine .ite (fun here => ?_) fun notCerts => ?_
  · subst here
    refine (Exact.bind readItem_exact fun certs => Exact.pure _).mono ?_
    rintro written result ⟨head, tail, certs, rfl, ⟨rfl, item⟩, rfl, rfl⟩
    rw [List.append_nil]
    exact ⟨item, fun same => absurd same (by decide), fun _ => rfl, fun _ => rfl,
      fun same => absurd rfl same⟩
  refine .ite (fun here => other _ readItem_items (by decide) here fun _ => keeps) fun _ => ?_
  refine .ite (fun here => other _ (readHash_items 32 _) (by decide) here fun _ => keeps) fun _ => ?_
  refine .ite (fun here => other _ readCoin_items (by decide) here fun _ => keeps) fun _ => ?_
  refine .ite (fun here => other _ readItem_items (by decide) here fun _ => keeps) fun _ => ?_
  refine .ite (fun here => other _ (readHash_items 32 _) (by decide) here fun _ => keeps) fun _ => ?_
  refine .ite (fun here => other _ inputs (by decide) here fun _ => keeps) fun _ => ?_
  refine .ite (fun here => other _ signers (by decide) here fun _ => keeps) fun _ => ?_
  refine .ite (fun here => other _ readCoin_items (by decide) here fun _ => keeps) fun _ => ?_
  refine .ite (fun here => other _ decodeBabbageTxOut_items (by decide) here fun _ => keeps) fun _ => ?_
  refine .ite (fun here => other _ readCoin_items (by decide) here fun _ => keeps) fun _ => ?_
  refine .ite (fun here => other _ inputs (by decide) here fun _ => keeps) fun _ => ?_
  refine .ite (fun here => other _ readItem_items (by decide) here fun _ => keeps) fun _ => ?_
  refine .ite (fun here => other _ readProcedures_items (by decide) here fun _ => keeps) fun _ => ?_
  refine .ite (fun here => other _ readCoin_items (by decide) here fun _ => keeps) fun _ => ?_
  refine .ite (fun here => other _ readCoin_items (by decide) here fun _ => keeps) fun _ => ?_
  refine (skipped_exact body).mono ?_
  rintro written result ⟨rfl, item⟩
  exact ⟨item, fun same => absurd same notOutputs, fun _ => rfl, fun same => absurd same notCerts,
    fun _ => rfl⟩

/-- An entry: its key and its value. -/
structure Field where
  key : UInt64
  keyBytes : Bytes
  value : Bytes

def Field.bytes (field : Field) : Bytes := field.keyBytes ++ field.value

def Field.WellFormed (field : Field) : Prop :=
  (∃ width, Reads readUint field.keyBytes (field.key, width)) ∧ IsItem field.value

theorem decodeBodyEntry_exact (body : PartialTxBody Procedure) :
    Exact (fun _ data => decodeBodyEntry decodeProposalProcedures data body) fun written next =>
      ∃ field : Field, written = field.bytes ∧ field.WellFormed ∧
        ValueRead body field.key field.value next := by
  refine (Exact.bind (Exact.reads readUint_exact) fun key => decodeBodyValue_exact body key.1).mono ?_
  rintro written next ⟨keyBytes, value, ⟨key, width⟩, rfl, ⟨reads, -⟩, read⟩
  exact ⟨⟨key, keyBytes, value⟩, rfl, ⟨⟨width, reads⟩, read.item⟩, read⟩

theorem require_exact {α : Type} (detail : String) (found : Option α) :
    Exact (fun _ (_ : Bytes) => require detail found) fun written value =>
      written = [] ∧ found = some value := by
  cases found with
  | some value => exact (Exact.pure value).mono fun _ _ known => ⟨known.1, by rw [known.2]⟩
  | none => exact Exact.thrownHere fun _ offset => CodecError.invalidCborStructure offset detail

def complete (body : ConwayTxBody Procedure) : PartialTxBody Procedure :=
  { body with inputs := some body.inputs, outputs := some body.outputs, fee := some body.fee }

theorem requireFields_exact (partial_ : PartialTxBody Procedure) :
    Exact (fun _ (_ : Bytes) => requireFields partial_) fun written body =>
      written = [] ∧ partial_ = complete body := by
  refine (Exact.bind (require_exact _ partial_.inputs) fun inputs =>
    Exact.bind (require_exact _ partial_.outputs) fun outputs =>
      Exact.bind (require_exact _ partial_.fee) fun fee => Exact.pure _).mono ?_
  rintro written body ⟨_, _, inputs, rfl, ⟨rfl, hasInputs⟩, _, _, outputs, rfl, ⟨rfl, hasOutputs⟩, _, _, fee,
    rfl, ⟨rfl, hasFee⟩, rfl, rfl⟩
  refine ⟨rfl, ?_⟩
  rw [complete, ← hasInputs, ← hasOutputs, ← hasFee]

end

end Ade.Proof.Codec
