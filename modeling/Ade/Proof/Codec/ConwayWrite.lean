import Ade.Codec.ConwayWrite
import Ade.Proof.Codec.Governance

/-! The transaction body that is written is the one that is read. -/

namespace Ade.Proof.Codec
open Std (ExtTreeSet)
open Library Cursor Ade.Codec
open Ade.Ledger (TxIn)

/-! ## Entries of a map -/

section
variable {σ : Type} {read : Bytes → σ → Read σ}

theorem iterate_add {ε : Type} (body : σ → Cursor ε σ) (first second : Nat) (state : σ) :
    Cursor.iterate body (first + second) state =
      Cursor.iterate body first state >>= Cursor.iterate body second := by
  induction first generalizing state with
  | zero => rw [Nat.zero_add, Cursor.iterate, pure_bind]
  | succ first ih =>
      rw [Nat.succ_add, Cursor.iterate, Cursor.iterate, bind_assoc]
      exact congrArg (body state >>= ·) (funext ih)

/-- So many entries, and the states before and after them. -/
def Entries (read : Bytes → σ → Read σ) (count : Nat) (written : Bytes) (first last : σ) : Prop :=
  Writes (count * 2) (fun data => Cursor.iterate (read data) count first) written last

theorem Entries.one {written : Bytes} {first last : σ}
    (writes : Writes 2 (fun data => read data first) written last) : Entries read 1 written first last :=
  writes.last (Writes.pure last)

theorem Entries.append {count count' : Nat} {written written' : Bytes} {first middle last : σ}
    (head : Entries read count written first middle) (tail : Entries read count' written' middle last) :
    Entries read (count + count') (written ++ written') first last := by
  unfold Entries
  simp only [iterate_add, Nat.add_mul]
  exact ⟨head.reads.bind tail.reads, head.skips.add tail.skips⟩

/-- The state is set from the value in either case. -/
theorem Entries.optional {α : Type} {key : UInt64} {write : α → Bytes} {first : σ} (set : Option α → σ)
    (absent : set none = first) (value : Option α)
    (present : ∀ some_, value = some some_ →
      Writes 2 (fun data => read data first) (writeUintCanonical key ++ write some_) (set (some some_))) :
    Entries read value.isSome.toNat (optionalEntry key write value) first (set value) := by
  cases value with
  | none =>
      rw [absent]
      exact Writes.pure first
  | some value => exact Entries.one (present value rfl)

end

/-! ## Inputs -/

section
variable {α : Type} {written : Bytes} {value : α}

theorem expectPair_writes {next : Bytes → Read α} (detail : String) (body : Writes 2 next written value) :
    Writes 1 (fun data => readArrayHeader data >>= expectPair detail (next data))
      (writeArrayHeader (.definite 2 .inline) ++ written) value :=
  @writes_array _ (fun encoding data => expectPair detail (next data) encoding) _ _ 2 body

theorem readArray_writes {element : Bytes → Read α} {encode : α → Bytes} {values : List α}
    (small : values.length < 2 ^ 64) (each : ∀ value ∈ values, Writes 1 element (encode value) value) :
    Writes 1 (fun data => readArray data (element data))
      (writeCountedArray (UInt64.ofNat values.length) ++ (values.map encode).flatten) values := by
  have elements := Writes.times_map each
  rw [Nat.mul_one] at elements
  apply writes_array
  simp only [toNat_ofNat_of_lt small]
  exact elements

end

theorem readHash_writes {size : Nat} (small : size < 2 ^ 64) (detail : String) (hash : Vector UInt8 size) :
    Writes 1 (readHash size detail) (writeBytesCanonical hash.toList) hash := by
  have short : hash.toList.length < 2 ^ 64 := by rwa [Vector.length_toList]
  have sized : hash.toList.toArray.size = size := by simp
  have same : (⟨hash.toList.toArray, sized⟩ : Vector UInt8 size) = hash := by
    apply Vector.toArray_inj.mp
    simp [Vector.toList]
  have bytes := writes_bytes short
  refine ⟨bytes.reads.last ?_, bytes.skips⟩
  simp only [dif_pos sized, same]
  exact Reads.pure hash

theorem readHash32_writes (hash : Hash32) : Writes 1 readHash32 (writeBytesCanonical hash.toList) hash :=
  readHash_writes (by decide) _ hash

theorem readHash28_writes (hash : Hash28) : Writes 1 readHash28 (writeBytesCanonical hash.toList) hash :=
  readHash_writes (by decide) _ hash

theorem decodeTxIn_writes (input : TxIn) : Writes 1 decodeTxIn (encodeTxIn input) input := by
  have narrowed : UInt16.ofNat input.index.toUInt64.toNat = input.index := by
    rw [UInt16.toNat_toUInt64, UInt16.ofNat_toNat]
  have fields : Writes 2 (fun data => (do
      let txHash ← readHash32 data
      let index ← readUint data
      return { txHash, index := UInt16.ofNat index.1.toNat } : Read TxIn))
      (writeBytesCanonical input.txHash.toList ++ writeUintCanonical input.index.toUInt64) input := by
    refine (readHash32_writes input.txHash).bind ((writes_uint input.index.toUInt64).last ?_)
    simp only [narrowed]
    exact Writes.pure input
  rw [encodeTxIn, List.append_assoc]
  exact expectPair_writes _ fields

theorem decodeTxInputs_writes {inputs : BTreeSet TxIn} (small : inputs.size < 2 ^ 64) :
    Writes 1 decodeTxInputs (encodeTxInputs inputs) inputs := by
  have listed : inputs.toList.length = inputs.size := ExtTreeSet.length_toList
  have array := readArray_writes (listed ▸ small) fun input _ => decodeTxIn_writes input
  rw [listed] at array
  refine array.last ?_
  rw [BTreeSet.ofList_toList]
  exact Writes.pure inputs

theorem taggedInputs_writes {inputs : BTreeSet TxIn} (small : inputs.size < 2 ^ 64) :
    Writes 1 (fun data => skipOptionalTag data >>= fun _ => decodeTxInputs data) (encodeTxInputs inputs)
      inputs :=
  untagged_writes (startsWith_array _ _) (by decide) (decodeTxInputs_writes small)

theorem decodeRequiredSigners_writes {signers : BTreeSet Hash28} (small : signers.size < 2 ^ 64) :
    Writes 1 decodeRequiredSigners (encodeRequiredSigners signers) signers := by
  have listed : signers.toList.length = signers.size := ExtTreeSet.length_toList
  have array := readArray_writes (listed ▸ small) fun signer _ => readHash28_writes signer
  rw [listed] at array
  refine untagged_writes (startsWith_array _ _) (by decide) (array.last ?_)
  rw [BTreeSet.ofList_toList]
  exact Writes.pure signers

/-! ## Outputs -/

/-- The opaque fields are single items, and the address is shorter than 2 ^ 64 bytes. -/
structure WellFormedOutput (output : BabbageTxOut) : Prop where
  address : output.address.length < 2 ^ 64
  multiAsset : ∀ assets, output.multiAsset = some assets → SingleItem assets
  datumOption : ∀ datum, output.datumOption = some datum → SingleItem datum
  scriptRef : ∀ script, output.scriptRef = some script → SingleItem script

theorem decodeValue_writes {output : BabbageTxOut} (valid : WellFormedOutput output) :
    Writes 1 decodeValue (encodeValue output) (output.coin, output.multiAsset) := by
  unfold encodeValue
  cases assetsAre : output.multiAsset with
  | none =>
      have coin : Writes 1 (fun data => (do
          let coin ← readUint data
          return (coin.1, none) : Read (Coin × Option Bytes))) (writeUintCanonical output.coin)
          (output.coin, none) := (writes_uint output.coin).last (Writes.pure _)
      have starts : StartsWith majorUnsigned (writeUintCanonical output.coin) :=
        startsWith_writeArgument (by decide) _
      exact ⟨peekMajor_reads starts coin.reads, coin.skips⟩
  | some assets =>
      have item := singleItem_iff.mp (valid.multiAsset assets assetsAre)
      have fields : Writes 2 (fun data => (do
          let coin ← readUint data
          let multiAsset ← readItem data
          return (coin.1, some multiAsset) : Read (Coin × Option Bytes)))
          (writeUintCanonical output.coin ++ assets) (output.coin, some assets) :=
        (writes_uint output.coin).bind ((writes_item item).last (Writes.pure _))
      have pair := expectPair_writes "Babbage value array must be array(2)" fields
      rw [← List.append_assoc] at pair
      have starts : StartsWith majorArray (writeArrayHeader (.definite 2 .inline) ++
          writeUintCanonical output.coin ++ assets) := by
        rw [List.append_assoc]
        exact startsWith_array 2 _
      exact ⟨peekMajor_reads starts pair.reads, pair.skips⟩

theorem outputCount_toNat (output : BabbageTxOut) :
    (outputCount output).toNat =
      2 + output.datumOption.isSome.toNat + output.scriptRef.isSome.toNat := by
  have datum := Bool.toNat_le output.datumOption.isSome
  have script := Bool.toNat_le output.scriptRef.isSome
  exact toNat_ofNat_of_lt (by omega)

theorem canonicalWidth_outputCount (output : BabbageTxOut) :
    canonicalWidth (outputCount output) = .inline := by
  have datum := Bool.toNat_le output.datumOption.isSome
  have script := Bool.toNat_le output.scriptRef.isSome
  exact if_pos (by rw [outputCount_toNat]; omega)

theorem encodeBabbageTxOutMap_writes {output : BabbageTxOut} (valid : WellFormedOutput output) :
    Writes 1 decodeBabbageTxOut (encodeBabbageTxOutMap output) output := by
  let none_ : PartialTxOut := ⟨none, 0, none, none, none⟩
  let addressed : PartialTxOut := { none_ with address := some output.address }
  let valued : PartialTxOut := { addressed with coin := output.coin, multiAsset := output.multiAsset }
  have address : Entries decodeTxOutEntry 1
      (writeUintCanonical 0 ++ writeBytesCanonical output.address) none_ addressed :=
    Entries.one ((writes_uint 0).bind ((writes_bytes valid.address).last (Writes.pure addressed)))
  have value : Entries decodeTxOutEntry 1 (writeUintCanonical 1 ++ encodeValue output) addressed valued := by
    refine Entries.one ((writes_uint 1).bind ((decodeValue_writes valid).last ?_))
    dsimp only [addressed, none_]
    rw [Option.or_none]
    exact Writes.pure valued
  have datum : Entries decodeTxOutEntry output.datumOption.isSome.toNat
      (optionalEntry 2 id output.datumOption) valued { valued with datumOption := output.datumOption } :=
    Entries.optional (fun datum => { valued with datumOption := datum }) rfl _ fun bytes present =>
      (writes_uint 2).bind ((writes_item (singleItem_iff.mp (valid.datumOption bytes present))).last
        (Writes.pure _))
  have script : Entries decodeTxOutEntry output.scriptRef.isSome.toNat
      (optionalEntry 3 id output.scriptRef) { valued with datumOption := output.datumOption }
      ⟨some output.address, output.coin, output.multiAsset, output.datumOption, output.scriptRef⟩ :=
    Entries.optional
      (fun script => { valued with datumOption := output.datumOption, scriptRef := script }) rfl _
      fun bytes present =>
        (writes_uint 3).bind ((writes_item (singleItem_iff.mp (valid.scriptRef bytes present))).last
          (Writes.pure _))
  have entries := address.append (value.append (datum.append script))
  have counted : 1 + (1 + (output.datumOption.isSome.toNat + output.scriptRef.isSome.toNat)) =
      (outputCount output).toNat := by
    rw [outputCount_toNat]
    omega
  rw [counted] at entries
  have map : Writes 1 decodeBabbageTxOutMap
      (writeMapHeader (.definite (outputCount output) (canonicalWidth (outputCount output))) ++
        (writeUintCanonical 0 ++ writeBytesCanonical output.address ++
          (writeUintCanonical 1 ++ encodeValue output ++
            (optionalEntry 2 id output.datumOption ++ optionalEntry 3 id output.scriptRef)))) output :=
    expectDefinite_map _ (entries.last (Writes.pure output))
  rw [canonicalWidth_outputCount] at map
  have starts : StartsWith majorMap (encodeBabbageTxOutMap output) := by
    have header := @startsWith_writeArgument majorMap (by decide) (outputCount output)
    rw [canonicalWidth_outputCount] at header
    exact header.append _
  exact ⟨peekMajor_reads starts map.reads, map.skips⟩

theorem readItemIf_writes {item : Option Bytes} (valid : ∀ bytes, item = some bytes → SingleItem bytes) :
    Writes item.isSome.toNat (readItemIf item.isSome) (item.getD []) item := by
  cases item with
  | none => exact Writes.pure none
  | some bytes => exact (writes_item (singleItem_iff.mp (valid bytes rfl))).map some

/-- The items after the value are read in their order, whichever fields they were written from. -/
theorem arrayFields_writes {output : BabbageTxOut} (valid : WellFormedOutput output) {count : UInt64}
    {third fourth : Option Bytes} (counted : count.toNat = 2 + third.isSome.toNat + fourth.isSome.toNat)
    (inOrder : fourth.isSome → third.isSome) (thirdItem : ∀ bytes, third = some bytes → SingleItem bytes)
    (fourthItem : ∀ bytes, fourth = some bytes → SingleItem bytes) :
    Writes count.toNat (fun data => decodeBabbageTxOutFields data count)
      (writeBytesCanonical output.address ++ (encodeValue output ++ (third.getD [] ++ fourth.getD [])))
      { output with datumOption := third, scriptRef := fourth } := by
  have within : 2 ≤ count ∧ count ≤ 4 := by
    rw [UInt64.le_iff_toNat_le, UInt64.le_iff_toNat_le, counted]
    have := Bool.toNat_le third.isSome
    have := Bool.toNat_le fourth.isSome
    exact ⟨by show 2 ≤ _; omega, by show _ ≤ 4; omega⟩
  have sized : ∀ least : UInt64, decide (count ≥ least) = decide (least.toNat ≤ count.toNat) :=
    fun least => decide_eq_decide.mpr UInt64.le_iff_toNat_le
  have isThird : decide (count ≥ 3) = third.isSome ∧ decide (count ≥ 4) = fourth.isSome := by
    rw [sized, sized, counted]
    cases third <;> cases fourth <;> first | exact ⟨rfl, rfl⟩ | cases inOrder rfl
  have items := (readItemIf_writes thirdItem).skips.add (readItemIf_writes fourthItem).skips
  have rest : Writes (third.isSome.toNat + fourth.isSome.toNat) (fun data => (do
      let datumOption ← readItemIf third.isSome data
      let scriptRef ← readItemIf fourth.isSome data
      return { output with datumOption, scriptRef } : Read BabbageTxOut))
      (third.getD [] ++ fourth.getD []) { output with datumOption := third, scriptRef := fourth } :=
    ⟨(readItemIf_writes thirdItem).reads.bind ((readItemIf_writes fourthItem).reads.last (Reads.pure _)),
      items⟩
  have fields : Writes (third.isSome.toNat + fourth.isSome.toNat + 1 + 1) (fun data => (do
      let address ← readBytes data
      let value ← decodeValue data
      let datumOption ← readItemIf third.isSome data
      let scriptRef ← readItemIf fourth.isSome data
      return ⟨address.1, value.1, value.2, datumOption, scriptRef⟩ : Read BabbageTxOut)) _ _ :=
    (writes_bytes valid.address).bind ((decodeValue_writes valid).bind rest)
  unfold decodeBabbageTxOutFields
  simp only [if_pos within, isThird.1, isThird.2]
  have total : count.toNat = third.isSome.toNat + fourth.isSome.toNat + 1 + 1 := by omega
  rw [total]
  exact fields

/-- The script goes where the datum is read when there is no datum. -/
def readInOrder (output : BabbageTxOut) : BabbageTxOut :=
  { output with
    datumOption := output.datumOption.or output.scriptRef
    scriptRef := output.datumOption.bind fun _ => output.scriptRef }

theorem encodeBabbageTxOutArray_writes {output : BabbageTxOut} (valid : WellFormedOutput output) :
    Writes 1 decodeBabbageTxOut (encodeBabbageTxOutArray output) (readInOrder output) := by
  have third : ∀ bytes, (readInOrder output).datumOption = some bytes → SingleItem bytes := by
    intro bytes present
    rcases Option.or_eq_some_iff.mp present with datum | ⟨-, script⟩
    · exact valid.datumOption bytes datum
    · exact valid.scriptRef bytes script
  have fourth : ∀ bytes, (readInOrder output).scriptRef = some bytes → SingleItem bytes := by
    intro bytes present
    obtain ⟨-, -, script⟩ := Option.bind_eq_some_iff.mp present
    exact valid.scriptRef bytes script
  have shape : (readInOrder output).datumOption.isSome.toNat + (readInOrder output).scriptRef.isSome.toNat =
        output.datumOption.isSome.toNat + output.scriptRef.isSome.toNat ∧
      (readInOrder output).datumOption.getD [] ++ (readInOrder output).scriptRef.getD [] =
        output.datumOption.getD [] ++ output.scriptRef.getD [] ∧
      ((readInOrder output).scriptRef.isSome → (readInOrder output).datumOption.isSome) := by
    obtain ⟨address, coin, assets, datum, script⟩ := output
    cases datum <;> cases script <;> simp [readInOrder]
  obtain ⟨counts, bytes, inOrder⟩ := shape
  have counted : (outputCount output).toNat = 2 + (readInOrder output).datumOption.isSome.toNat +
      (readInOrder output).scriptRef.isSome.toNat := by
    rw [outputCount_toNat]
    omega
  have fields := arrayFields_writes valid counted inOrder third fourth
  rw [bytes] at fields
  have array : Writes 1 decodeBabbageTxOutArray
      (writeArrayHeader (.definite (outputCount output) (canonicalWidth (outputCount output))) ++
        (writeBytesCanonical output.address ++ (encodeValue output ++
          (output.datumOption.getD [] ++ output.scriptRef.getD [])))) (readInOrder output) :=
    expectDefinite_array _ fields
  rw [canonicalWidth_outputCount] at array
  have starts : StartsWith majorArray (encodeBabbageTxOutArray output) := by
    have header := @startsWith_writeArgument majorArray (by decide) (outputCount output)
    rw [canonicalWidth_outputCount] at header
    exact header.append _
  exact ⟨peekMajor_reads starts array.reads, array.skips⟩

theorem decodeConwayOutputs_writes {outputs : List BabbageTxOut} (small : outputs.length < 2 ^ 64)
    (valid : ∀ output ∈ outputs, WellFormedOutput output) :
    Writes 1 decodeConwayOutputs (encodeConwayOutputs outputs) outputs :=
  readArray_writes small fun output member => encodeBabbageTxOutMap_writes (valid output member)

/-! ## The body -/

theorem readCoin_writes (value : UInt64) : Writes 1 readCoin (writeUintCanonical value) value :=
  (writes_uint value).last (Writes.pure value)

theorem readProcedures_writes {procs : List ProposalProcedure} (nonempty : procs ≠ [])
    (small : procs.length < 2 ^ 64) (valid : ∀ procedure ∈ procs, WellFormed procedure) :
    Writes 1 (readProcedures decodeProposalProcedures) (encodeProposalProcedures procs) procs := by
  have set := decodeProposalSet_writes nonempty small valid
  refine (writes_item set.skips).last ?_
  rw [decodeProposalProcedures_of_reads set.reads]
  exact Writes.pure procs

theorem networkId_writes (id : UInt8) :
    Writes 1 (fun data => do return UInt8.ofNat (← readCoin data).toNat)
      (writeUintCanonical id.toUInt64) id := by
  have narrowed : UInt8.ofNat id.toUInt64.toNat = id := by rw [UInt8.toNat_toUInt64, UInt8.ofNat_toNat]
  refine (readCoin_writes id.toUInt64).last ?_
  rw [narrowed]
  exact Writes.pure id

/-- The opaque fields are single items, and the proposals are some. Rust's vectors and sets are shorter
than 2 ^ 64. -/
structure WellFormedBody (body : ConwayTxBody ProposalProcedure) : Prop where
  items : ∀ field ∈ [body.certs, body.withdrawals, body.mint, body.votingProcedures],
    ∀ bytes, field = some bytes → SingleItem bytes
  outputs : ∀ output ∈ body.outputs, WellFormedOutput output
  collateralReturn : ∀ output, body.collateralReturn = some output → WellFormedOutput output
  procedures : ∀ procs, body.proposalProcedures = some procs →
    procs ≠ [] ∧ procs.length < 2 ^ 64 ∧ ∀ procedure ∈ procs, WellFormed procedure
  inputSizes : ∀ field ∈ [some body.inputs, body.collateralInputs, body.referenceInputs],
    ∀ inputs, field = some inputs → inputs.size < 2 ^ 64
  outputSize : body.outputs.length < 2 ^ 64
  signerSize : ∀ signers, body.requiredSigners = some signers → signers.size < 2 ^ 64

theorem bodyCount_toNat (body : ConwayTxBody ProposalProcedure) :
    (bodyCount body).toNat =
      3 + body.ttl.isSome.toNat + body.certs.isSome.toNat + body.withdrawals.isSome.toNat +
      body.metadataHash.isSome.toNat + body.validityIntervalStart.isSome.toNat + body.mint.isSome.toNat +
      body.scriptDataHash.isSome.toNat + body.collateralInputs.isSome.toNat +
      body.requiredSigners.isSome.toNat + body.networkId.isSome.toNat +
      body.collateralReturn.isSome.toNat + body.totalCollateral.isSome.toNat +
      body.referenceInputs.isSome.toNat + body.votingProcedures.isSome.toNat +
      body.proposalProcedures.isSome.toNat + body.treasuryValue.isSome.toNat +
      body.donation.isSome.toNat := by
  have atMost := fun present : Bool => Bool.toNat_le present
  apply toNat_ofNat_of_lt
  have := atMost body.ttl.isSome
  have := atMost body.certs.isSome
  have := atMost body.withdrawals.isSome
  have := atMost body.metadataHash.isSome
  have := atMost body.validityIntervalStart.isSome
  have := atMost body.mint.isSome
  have := atMost body.scriptDataHash.isSome
  have := atMost body.collateralInputs.isSome
  have := atMost body.requiredSigners.isSome
  have := atMost body.networkId.isSome
  have := atMost body.collateralReturn.isSome
  have := atMost body.totalCollateral.isSome
  have := atMost body.referenceInputs.isSome
  have := atMost body.votingProcedures.isSome
  have := atMost body.proposalProcedures.isSome
  have := atMost body.treasuryValue.isSome
  have := atMost body.donation.isSome
  omega

/-- An entry of the body: a value that is read sets its field. -/
theorem bodyEntry_writes {α : Type} {key : UInt64} {read : Bytes → Read α} {written : Bytes} {value : α}
    {state : PartialTxBody ProposalProcedure} (set : α → PartialTxBody ProposalProcedure)
    (selects : ∀ data, decodeBodyValue decodeProposalProcedures data state key =
      read data >>= fun value => pure (set value))
    (writes : Writes 1 read written value) :
    Writes 2 (fun data => decodeBodyEntry decodeProposalProcedures data state)
      (writeUintCanonical key ++ written) (set value) := by
  refine (writes_uint key).bind ?_
  simp only [selects]
  exact writes.last (Writes.pure (set value))

theorem optionalBodyEntry_writes {α : Type} (key : UInt64) {read : Bytes → Read α} {write : α → Bytes}
    {state : PartialTxBody ProposalProcedure} (set : Option α → PartialTxBody ProposalProcedure)
    (absent : set none = state)
    (selects : ∀ data, decodeBodyValue decodeProposalProcedures data state key =
      read data >>= fun value => pure (set (some value)))
    (value : Option α) (writes : ∀ some_, value = some some_ → Writes 1 read (write some_) some_) :
    Entries (decodeBodyEntry decodeProposalProcedures) value.isSome.toNat (optionalEntry key write value) state
      (set value) :=
  Entries.optional set absent value fun some_ present =>
    bodyEntry_writes (fun value => set (some value)) selects (writes some_ present)

theorem encodeConwayTxBody_writes {body : ConwayTxBody ProposalProcedure} (valid : WellFormedBody body) :
    Writes 1 (decodeConwayTxBody decodeProposalProcedures) (encodeConwayTxBody body) body := by
  have item : ∀ field ∈ [body.certs, body.withdrawals, body.mint, body.votingProcedures],
      ∀ bytes, field = some bytes → Writes 1 readItem (id bytes) bytes := fun field member bytes present =>
    writes_item (singleItem_iff.mp (valid.items field member bytes present))
  have inputs : ∀ field ∈ [some body.inputs, body.collateralInputs, body.referenceInputs], ∀ inputs,
      field = some inputs → Writes 1 (fun data => skipOptionalTag data >>= fun _ => decodeTxInputs data)
        (encodeTxInputs inputs) inputs := fun field member inputs present =>
    taggedInputs_writes (valid.inputSizes field member inputs present)
  have signers : ∀ signers, body.requiredSigners = some signers →
      Writes 1 (fun data => skipOptionalTag data >>= fun _ => decodeRequiredSigners data)
        (encodeRequiredSigners signers) signers := fun signers present =>
    untagged_writes (startsWith_array _ _) (by decide)
      (decodeRequiredSigners_writes (valid.signerSize signers present))
  have procedures : ∀ procs, body.proposalProcedures = some procs →
      Writes 1 (readProcedures decodeProposalProcedures) (encodeProposalProcedures procs) procs :=
    fun procs present =>
      have known := valid.procedures procs present
      readProcedures_writes known.1 known.2.1 known.2.2
  let read0 : PartialTxBody ProposalProcedure := { PartialTxBody.empty with inputs := some body.inputs }
  let read1 := { read0 with outputs := some body.outputs }
  let read2 := { read1 with fee := some body.fee }
  let read3 := { read2 with ttl := body.ttl }
  let read4 := { read3 with certs := body.certs }
  let read5 := { read4 with withdrawals := body.withdrawals }
  let read7 := { read5 with metadataHash := body.metadataHash }
  let read8 := { read7 with validityIntervalStart := body.validityIntervalStart }
  let read9 := { read8 with mint := body.mint }
  let read11 := { read9 with scriptDataHash := body.scriptDataHash }
  let read13 := { read11 with collateralInputs := body.collateralInputs }
  let read14 := { read13 with requiredSigners := body.requiredSigners }
  let read15 := { read14 with networkId := body.networkId }
  let read16 := { read15 with collateralReturn := body.collateralReturn }
  let read17 := { read16 with totalCollateral := body.totalCollateral }
  let read18 := { read17 with referenceInputs := body.referenceInputs }
  let read19 := { read18 with votingProcedures := body.votingProcedures }
  let read20 := { read19 with proposalProcedures := body.proposalProcedures }
  let read21 := { read20 with treasuryValue := body.treasuryValue }
  let read22 := { read21 with donation := body.donation }
  have key0 : Entries (decodeBodyEntry decodeProposalProcedures) 1
      (writeUintCanonical 0 ++ encodeTxInputs body.inputs) .empty read0 :=
    Entries.one (bodyEntry_writes (fun inputs => { PartialTxBody.empty with inputs := some inputs })
      (fun _ => (bind_assoc ..).symm) (inputs _ (by simp) _ rfl))
  have key1 : Entries (decodeBodyEntry decodeProposalProcedures) 1
      (writeUintCanonical 1 ++ encodeConwayOutputs body.outputs) read0 read1 :=
    Entries.one (bodyEntry_writes (fun outputs => { read0 with outputs := some outputs }) (fun _ => rfl)
      (decodeConwayOutputs_writes valid.outputSize valid.outputs))
  have key2 : Entries (decodeBodyEntry decodeProposalProcedures) 1
      (writeUintCanonical 2 ++ writeUintCanonical body.fee) read1 read2 :=
    Entries.one (bodyEntry_writes (fun fee => { read1 with fee := some fee }) (fun _ => rfl)
      (readCoin_writes body.fee))
  have key3 := optionalBodyEntry_writes 3 (fun ttl => { read2 with ttl }) rfl
    (fun _ => rfl) body.ttl fun slot _ => readCoin_writes slot
  have key4 := optionalBodyEntry_writes 4 (fun certs => { read3 with certs }) rfl
    (fun _ => rfl) body.certs (item _ (by simp))
  have key5 := optionalBodyEntry_writes 5 (fun withdrawals => { read4 with withdrawals }) rfl
    (fun _ => rfl) body.withdrawals (item _ (by simp))
  have key7 := optionalBodyEntry_writes 7 (fun metadataHash => { read5 with metadataHash }) rfl
    (fun _ => rfl) body.metadataHash fun hash _ => readHash32_writes hash
  have key8 := optionalBodyEntry_writes 8 (fun validityIntervalStart => { read7 with validityIntervalStart }) rfl
    (fun _ => rfl) body.validityIntervalStart fun slot _ => readCoin_writes slot
  have key9 := optionalBodyEntry_writes 9 (fun mint => { read8 with mint }) rfl
    (fun _ => rfl) body.mint (item _ (by simp))
  have key11 := optionalBodyEntry_writes 11 (fun scriptDataHash => { read9 with scriptDataHash }) rfl
    (fun _ => rfl) body.scriptDataHash fun hash _ => readHash32_writes hash
  have key13 := optionalBodyEntry_writes 13 (fun collateralInputs => { read11 with collateralInputs }) rfl
    (fun _ => (bind_assoc ..).symm) body.collateralInputs (inputs _ (by simp))
  have key14 := optionalBodyEntry_writes 14 (fun requiredSigners => { read13 with requiredSigners }) rfl
    (fun _ => (bind_assoc ..).symm) body.requiredSigners signers
  have key15 := optionalBodyEntry_writes 15 (fun networkId => { read14 with networkId }) rfl
    (fun _ => by rw [bind_assoc]; rfl) body.networkId fun id _ => networkId_writes id
  have key16 := optionalBodyEntry_writes 16 (fun collateralReturn => { read15 with collateralReturn }) rfl
    (fun _ => rfl) body.collateralReturn
    fun output present => encodeBabbageTxOutMap_writes (valid.collateralReturn output present)
  have key17 := optionalBodyEntry_writes 17 (fun totalCollateral => { read16 with totalCollateral }) rfl
    (fun _ => rfl) body.totalCollateral fun coin _ => readCoin_writes coin
  have key18 := optionalBodyEntry_writes 18 (fun referenceInputs => { read17 with referenceInputs }) rfl
    (fun _ => (bind_assoc ..).symm) body.referenceInputs (inputs _ (by simp))
  have key19 := optionalBodyEntry_writes 19 (fun votingProcedures => { read18 with votingProcedures }) rfl
    (fun _ => rfl) body.votingProcedures (item _ (by simp))
  have key20 := optionalBodyEntry_writes 20 (fun proposalProcedures => { read19 with proposalProcedures }) rfl
    (fun _ => rfl) body.proposalProcedures procedures
  have key21 := optionalBodyEntry_writes 21 (fun treasuryValue => { read20 with treasuryValue }) rfl
    (fun _ => rfl) body.treasuryValue fun coin _ => readCoin_writes coin
  have key22 := optionalBodyEntry_writes 22 (fun donation => { read21 with donation }) rfl
    (fun _ => rfl) body.donation fun coin _ => readCoin_writes coin
  have entries := key0.append (key1.append (key2.append (key3.append (key4.append (key5.append
    (key7.append (key8.append (key9.append (key11.append (key13.append (key14.append (key15.append
      (key16.append (key17.append (key18.append (key19.append (key20.append
        (key21.append key22))))))))))))))))))
  have counted : 1 + (1 + (1 + (body.ttl.isSome.toNat + (body.certs.isSome.toNat +
      (body.withdrawals.isSome.toNat + (body.metadataHash.isSome.toNat +
      (body.validityIntervalStart.isSome.toNat + (body.mint.isSome.toNat +
      (body.scriptDataHash.isSome.toNat + (body.collateralInputs.isSome.toNat +
      (body.requiredSigners.isSome.toNat + (body.networkId.isSome.toNat +
      (body.collateralReturn.isSome.toNat + (body.totalCollateral.isSome.toNat +
      (body.referenceInputs.isSome.toNat + (body.votingProcedures.isSome.toNat +
      (body.proposalProcedures.isSome.toNat + (body.treasuryValue.isSome.toNat +
      body.donation.isSome.toNat)))))))))))))))))) = (bodyCount body).toNat := by
    rw [bodyCount_toNat]
    omega
  rw [counted] at entries
  exact expectDefinite_map _ (entries.last (Writes.pure body))

end Ade.Proof.Codec
