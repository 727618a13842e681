import Ade.Codec.Governance
import Ade.Proof.Codec.Writes

/-! The proposal procedures that are written are the ones that are read. -/

namespace Ade.Proof.Codec
open Std Library Cursor Ade.Codec
open Ade.Ledger (GovAction GovActionId StakeCredential)

/-! ## Fields -/

theorem readExactly_reads {size : Nat} (small : size < 2 ^ 64) (detail : String) (hash : Vector UInt8 size) :
    Writes 1 (readExactly size detail) (writeBytesCanonical hash.toList) hash := by
  have short : hash.toList.length < 2 ^ 64 := by rwa [Vector.length_toList]
  have sized : hash.toList.toArray.size = size := by simp
  have same : (⟨hash.toList.toArray, sized⟩ : Vector UInt8 size) = hash := by
    apply Vector.toArray_inj.mp
    simp [Vector.toList]
  have bytes := writes_bytes short
  refine ⟨Reads.get_bind fun start => bytes.reads.last ?_, bytes.skips⟩
  simp only [dif_pos sized, same]
  exact Reads.pure hash

theorem readGovHash28_writes (hash : Hash28) : Writes 1 readGovHash28 (writeBytesCanonical hash.toList) hash :=
  readExactly_reads (by decide) _ hash

theorem readGovHash32_writes (hash : Hash32) : Writes 1 readGovHash32 (writeBytesCanonical hash.toList) hash :=
  readExactly_reads (by decide) _ hash

/-- The segment has an initial byte of the major type. -/
def StartsWith (major : Nat) (written : Bytes) : Prop := ∃ byte rest, written = byte :: rest ∧ byte.toNat / 32 = major

theorem StartsWith.append {major : Nat} {written : Bytes} (starts : StartsWith major written) (more : Bytes) :
    StartsWith major (written ++ more) := by
  obtain ⟨byte, rest, rfl, same⟩ := starts
  exact ⟨byte, rest ++ more, rfl, same⟩

theorem startsWith_writeArgument {major : Nat} (valid : major < 8) (value : UInt64) :
    StartsWith major (writeArgument major value (canonicalWidth value)) := by
  obtain ⟨ai, argument, form, small, -⟩ := writeArgument_reads (fits_canonicalWidth value) major
  refine ⟨initialByte major ai, argument, form, ?_⟩
  rw [toNat_initialByte valid (by omega)]
  omega

theorem startsWith_bytes (bytes : Bytes) : StartsWith majorBytes (writeBytesCanonical bytes) :=
  (startsWith_writeArgument (by decide) _).append bytes

theorem startsWith_array (count : UInt64) (rest : Bytes) :
    StartsWith majorArray (writeArrayHeader (.definite count (canonicalWidth count)) ++ rest) :=
  (startsWith_writeArgument (by decide) count).append rest

section
variable {α : Type} {written : Bytes} {value : α}

theorem peekMajor_reads {next : Nat → Bytes → Read α} {major : Nat} (starts : StartsWith major written)
    (reads : Reads (next major) written value) :
    Reads (fun data => peekMajor data >>= fun major => next major data) written value := by
  obtain ⟨byte, rest, rfl, rfl⟩ := starts
  intro before after
  have peeked := peekMajor_cons before (rest ++ after) byte
  rw [← List.cons_append, ← List.append_assoc] at peeked
  rw [runAt_bind_ok peeked]
  exact reads before after

/-- Nothing is passed over in front of what has no tag. -/
theorem untagged_writes {next : Bytes → Read α} {major : Nat} (starts : StartsWith major written)
    (untagged : major ≠ majorTag) (writes : Writes 1 next written value) :
    Writes 1 (fun data => skipOptionalTag data >>= fun _ => next data) written value := by
  refine ⟨?_, writes.skips⟩
  obtain ⟨byte, rest, rfl, rfl⟩ := starts
  intro before after
  have skipped := skipOptionalTag_cons before (rest ++ after) byte
  rw [if_neg untagged, ← List.cons_append, ← List.append_assoc] at skipped
  rw [runAt_bind_ok skipped]
  exact writes.reads before after

theorem tagged_writes {next : Bytes → Read α} (tag : UInt64) (writes : Writes 1 next written value) :
    Writes 1 (fun data => skipOptionalTag data >>= fun _ => next data)
      (writeTag tag (canonicalWidth tag) ++ written) value := by
  have tagged := writes_tag tag writes
  refine ⟨?_, tagged.skips⟩
  have starts : StartsWith majorTag (writeTag tag (canonicalWidth tag) ++ written) :=
    (startsWith_writeArgument (by decide) tag).append written
  intro before after
  have read := tagged.reads before after
  obtain ⟨byte, rest, form, same⟩ := starts
  rw [form] at read ⊢
  have skipped := skipOptionalTag_cons before (rest ++ after) byte
  rw [if_pos same, ← List.cons_append, ← List.append_assoc] at skipped
  obtain ⟨seen, middle, tagRan, read⟩ := of_runAt_bind_ok read
  rw [runAt_map, tagRan] at skipped
  rw [runAt_bind_ok skipped]
  exact read

theorem peekNull_reads {next : Bool → Bytes → Read α} {byte : UInt8} {rest : Bytes}
    (reads : Reads (next (decide (byte = nullByte))) (byte :: rest) value) :
    Reads (fun data => peekNull data >>= fun null => next null data) (byte :: rest) value := by
  intro before after
  have peeked : (peekNull (before ++ byte :: rest ++ after)).runAt before.length =
      (.ok (decide (byte = nullByte)), before.length) := by
    rw [List.append_assoc, List.cons_append]
    simp [peekNull, runAt_bind, peekByte_cons, Except.map]
  rw [runAt_bind_ok peeked]
  exact reads before after

theorem isItem_null : IsItem writeNull := by
  have leaf : Reads readHead [initialByte majorSimple 22] .leaf :=
    Reads.get_bind fun start => (decodeInitial_reads (by decide) (by decide)).last (Reads.pure _)
  exact isItem_leaf leaf

theorem optional_none (next : Bytes → Read α) : Writes 1 (readOptional next) writeNull none :=
  ⟨peekNull_reads fun _ _ => rfl, isItem_null⟩

theorem optional_some {next : Bytes → Read α} {major : Nat} (starts : StartsWith major written)
    (notSimple : major ≠ majorSimple) (writes : Writes 1 next written value) :
    Writes 1 (readOptional next) written (some value) := by
  refine ⟨?_, writes.skips⟩
  obtain ⟨byte, rest, rfl, rfl⟩ := starts
  have notNull : byte ≠ nullByte := by
    rintro rfl
    exact notSimple rfl
  refine peekNull_reads ?_
  simp only [notNull, decide_false]
  exact writes.reads.map some

/-- An array whose header fits in its initial byte. -/
theorem expectCount_writes {next : Bytes → Read α} {count : UInt64} (detail : String)
    (body : Writes count.toNat next written value) :
    Writes 1 (fun data => readArrayHeader data >>= expectCount count detail (next data))
      (writeArrayHeader (.definite count (canonicalWidth count)) ++ written) value := by
  apply writes_array
  simpa only [expectCount, if_true] using body

theorem expectDefinite_array {next : UInt64 → Bytes → Read α} {count : UInt64} (detail : String)
    (body : Writes count.toNat (next count) written value) :
    Writes 1 (fun data => readArrayHeader data >>= expectDefinite detail fun count => next count data)
      (writeArrayHeader (.definite count (canonicalWidth count)) ++ written) value :=
  writes_array body

theorem expectDefinite_map {next : UInt64 → Bytes → Read α} {count : UInt64} (detail : String)
    (body : Writes (count.toNat * 2) (next count) written value) :
    Writes 1 (fun data => readMapHeader data >>= expectDefinite detail fun count => next count data)
      (writeMapHeader (.definite count (canonicalWidth count)) ++ written) value :=
  writes_map body

end

theorem decodeGovActionIdOpt_writes (id : Option GovActionId) :
    Writes 1 decodeGovActionIdOpt (encodeGovActionIdOpt id) id := by
  cases id with
  | none => exact optional_none _
  | some id =>
      have narrowed : UInt32.ofNat id.index.toUInt64.toNat = id.index := by
        rw [UInt32.toNat_toUInt64, UInt32.ofNat_toNat]
      have fields : Writes 2 (fun data => (do
          let txHash ← readGovHash32 data
          let index ← readUint data
          return { txHash, index := UInt32.ofNat index.1.toNat } : Read GovActionId))
          (writeBytesCanonical id.txHash.toList ++ writeUintCanonical id.index.toUInt64) id := by
        refine (readGovHash32_writes id.txHash).bind ((writes_uint id.index.toUInt64).last ?_)
        simp only [narrowed]
        exact Writes.pure id
      rw [encodeGovActionIdOpt, List.append_assoc]
      exact optional_some (startsWith_array 2 _) (by decide) (expectCount_writes _ fields)

theorem decodeHash28Opt_writes (hash : Option Hash28) :
    Writes 1 decodeHash28Opt (encodeHash28Opt hash) hash := by
  cases hash with
  | none => exact optional_none _
  | some hash => exact optional_some (startsWith_bytes _) (by decide) (readGovHash28_writes hash)

theorem decodeAnchor_writes {anchor : Anchor} (item : IsItem anchor.raw) :
    Writes 1 decodeAnchor (encodeAnchor anchor) anchor :=
  (writes_item item).last (Writes.pure anchor)

theorem decodeStakeCredential_writes (credential : StakeCredential) :
    Writes 1 decodeStakeCredential (encodeStakeCredential credential) credential := by
  have fields : ∀ (credType : UInt64) (hash : Hash28) (credential : StakeCredential),
      (∀ offset, (if credType = 0 then pure (.keyHash hash)
        else if credType = 1 then pure (.scriptHash hash)
        else throw (.invalidCborStructure offset "unknown stake credential type") : Read StakeCredential) =
          pure credential) →
      Writes 1 decodeStakeCredential
        (writeArrayHeader (.definite 2 .inline) ++ writeUintCanonical credType ++
          writeBytesCanonical hash.toList) credential := by
    intro credType hash credential known
    rw [List.append_assoc]
    have written := (writes_uint credType).skips.add (readGovHash28_writes hash).skips
    have reads := (writes_uint credType).reads
    have reads' := (readGovHash28_writes hash).reads
    refine expectCount_writes _ ⟨Reads.get_bind fun start => reads.bind (reads'.last ?_), written⟩
    rw [known]
    exact Reads.pure credential
  cases credential with
  | keyHash hash => exact fields 0 hash _ fun _ => rfl
  | scriptHash hash => exact fields 1 hash _ fun _ => rfl

theorem toNat_ofNat_of_lt {n : Nat} (small : n < 2 ^ 64) : (UInt64.ofNat n).toNat = n := by
  simpa using Nat.mod_eq_of_lt small

theorem decodeColdCredentialSet_writes {set : BTreeSet StakeCredential} (small : set.size < 2 ^ 64) :
    Writes 1 decodeColdCredentialSet (encodeColdCredentialSet set) set := by
  have listed : set.toList.length = set.size := ExtTreeSet.length_toList
  have counted : (UInt64.ofNat set.size).toNat = set.toList.length := by
    rw [toNat_ofNat_of_lt small, listed]
  have elements : Writes (UInt64.ofNat set.size).toNat
      (fun data => Cursor.times (decodeStakeCredential data) (UInt64.ofNat set.size).toNat)
      (set.toList.map encodeStakeCredential).flatten set.toList := by
    have each := @Writes.times_map _ (fun data => decodeStakeCredential data) 1 encodeStakeCredential
      set.toList fun credential _ => decodeStakeCredential_writes credential
    rwa [Nat.mul_one, ← counted] at each
  have collected : Writes 0 (fun _ => (pure (ExtTreeSet.ofList set.toList) : Read (BTreeSet StakeCredential)))
      [] set := by
    rw [BTreeSet.ofList_toList]
    exact Writes.pure set
  rw [encodeColdCredentialSet, List.append_assoc]
  exact tagged_writes 258 (expectDefinite_array _ (elements.last collected))

theorem decodeColdCredentialEpochMap_writes {map : BTreeMap StakeCredential UInt64}
    (small : map.size < 2 ^ 64) :
    Writes 1 decodeColdCredentialEpochMap (encodeColdCredentialEpochMap map) map := by
  have listed : map.toList.length = map.size := ExtTreeMap.length_toList
  have counted : (UInt64.ofNat map.size).toNat = map.toList.length := by
    rw [toNat_ofNat_of_lt small, listed]
  have entry : ∀ entry : StakeCredential × UInt64, Writes 2 decodeColdCredentialEpoch
      (encodeStakeCredential entry.1 ++ writeUintCanonical entry.2) entry := fun entry =>
    (decodeStakeCredential_writes entry.1).bind ((writes_uint entry.2).last (Writes.pure entry))
  have entries : Writes ((UInt64.ofNat map.size).toNat * 2)
      (fun data => Cursor.times (decodeColdCredentialEpoch data) (UInt64.ofNat map.size).toNat)
      (map.toList.map fun entry => encodeStakeCredential entry.1 ++ writeUintCanonical entry.2).flatten
      map.toList := by
    rw [counted]
    exact Writes.times_map fun credential _ => entry credential
  have collected : Writes 0
      (fun _ => (pure (ExtTreeMap.ofList map.toList) : Read (BTreeMap StakeCredential UInt64))) [] map := by
    rw [BTreeMap.ofList_toList]
    exact Writes.pure map
  exact expectDefinite_map _ (entries.last collected)

/-- Two integers in an array. -/
theorem pair_writes (detail : String) (first second : UInt64) :
    Writes 1 (fun data => readArrayHeader data >>= expectCount 2 detail (do
        let (first, _) ← readUint data
        let (second, _) ← readUint data
        return (first, second)))
      (writeArrayHeader (.definite 2 .inline) ++ writeUintCanonical first ++ writeUintCanonical second)
      (first, second) := by
  have fields : Writes 2 (fun data => (do
      let (first, _) ← readUint data
      let (second, _) ← readUint data
      return (first, second) : Read (UInt64 × UInt64)))
      (writeUintCanonical first ++ writeUintCanonical second) (first, second) :=
    (writes_uint first).bind ((writes_uint second).last (Writes.pure _))
  rw [List.append_assoc]
  exact expectCount_writes detail fields

theorem decodeProtocolVersion_writes (major minor : UInt64) :
    Writes 1 decodeProtocolVersion
      (writeArrayHeader (.definite 2 .inline) ++ writeUintCanonical major ++ writeUintCanonical minor)
      (major, minor) :=
  pair_writes _ major minor

theorem decodeUnitInterval_writes (interval : UInt64 × UInt64) :
    Writes 1 decodeUnitInterval (encodeUnitInterval interval) interval := by
  have tagged := writes_tag 30 (pair_writes "unit_interval must be array(2) [numerator, denominator]"
    interval.1 interval.2)
  have starts : StartsWith majorTag (encodeUnitInterval interval) := by
    rw [encodeUnitInterval, List.append_assoc, List.append_assoc]
    exact (startsWith_writeArgument (by decide) 30).append _
  have written : encodeUnitInterval interval = writeTag 30 (canonicalWidth 30) ++
      (writeArrayHeader (.definite 2 .inline) ++ writeUintCanonical interval.1 ++
        writeUintCanonical interval.2) := by
    simp only [encodeUnitInterval, List.append_assoc]
  rw [← written] at tagged
  refine ⟨peekMajor_reads starts ?_, tagged.skips⟩
  simpa using tagged.reads

theorem decodeTreasuryWithdrawals_writes {withdrawals : List (Bytes × Coin)}
    (small : withdrawals.length < 2 ^ 64) (addrs : ∀ entry ∈ withdrawals, entry.1.length < 2 ^ 64) :
    Writes 1 decodeTreasuryWithdrawals (encodeTreasuryWithdrawals withdrawals) withdrawals := by
  have entry : ∀ entry ∈ withdrawals, Writes 2 decodeWithdrawal
      (writeBytesCanonical entry.1 ++ writeUintCanonical entry.2) entry := fun entry member =>
    (writes_bytes (addrs entry member)).bind ((writes_uint entry.2).last (Writes.pure entry))
  have entries : Writes ((UInt64.ofNat withdrawals.length).toNat * 2)
      (fun data => Cursor.times (decodeWithdrawal data) (UInt64.ofNat withdrawals.length).toNat)
      (withdrawals.map fun entry => writeBytesCanonical entry.1 ++ writeUintCanonical entry.2).flatten
      withdrawals := by
    rw [toNat_ofNat_of_lt small]
    exact Writes.times_map entry
  exact expectDefinite_map _ entries

/-! ## Actions -/

theorem action_writes {tag arrLen : UInt64} {count : Nat} {written : Bytes} {action : GovAction}
    (counted : arrLen.toNat = count + 1)
    (body : ∀ start, Writes count (fun data => decodeTaggedAction data start tag arrLen) written action) :
    Writes 1 decodeGovAction
      (writeArrayHeader (.definite arrLen (canonicalWidth arrLen)) ++ writeUintCanonical tag ++ written)
      action := by
  have some_ : arrLen ≥ 1 := by
    rw [ge_iff_le, UInt64.le_iff_toNat_le, counted]
    exact Nat.le_add_left 1 count
  have tagged : Writes arrLen.toNat (fun data => if arrLen ≥ 1 then decodeGovActionBody data arrLen
      else do throw (.invalidCborStructure (← get) govActionDetail))
      (writeUintCanonical tag ++ written) action := by
    rw [counted]
    simp only [if_pos some_]
    have read : ∀ start, Writes (count + 1) (fun data => (do
        let (tag, _) ← readUint data
        decodeTaggedAction data start tag arrLen : Read GovAction))
        (writeUintCanonical tag ++ written) action := fun start => (writes_uint tag).bind (body start)
    exact ⟨Reads.get_bind fun start => (read start).reads, (read 0).skips⟩
  rw [List.append_assoc]
  exact expectDefinite_array govActionDetail tagged

def opaqueParts : GovAction → List Bytes
  | .parameterChange _ update _ => [update]
  | .newConstitution _ raw => [raw]
  | _ => []

def sizes : GovAction → List Nat
  | .treasuryWithdrawals withdrawals _ => withdrawals.length :: withdrawals.map (·.1.length)
  | .updateCommittee _ removed added _ => [removed.size, added.size]
  | _ => []

theorem decodeGovAction_writes {action : GovAction} (items : ∀ part ∈ opaqueParts action, IsItem part)
    (small : ∀ size ∈ sizes action, size < 2 ^ 64) :
    Writes 1 decodeGovAction (encodeGovAction action) action := by
  cases action with
  | parameterChange prevAction update policyHash =>
      have item : IsItem update := items update (List.mem_singleton_self update)
      rw [encodeGovAction, List.append_assoc (encodeGovActionIdOpt prevAction)]
      exact action_writes rfl fun start => (decodeGovActionIdOpt_writes prevAction).bind
        ((writes_item item).bind ((decodeHash28Opt_writes policyHash).last (Writes.pure _)))
  | hardForkInitiation prevAction protocolVersion =>
      exact action_writes rfl fun start => (decodeGovActionIdOpt_writes prevAction).bind
        ((decodeProtocolVersion_writes protocolVersion.1 protocolVersion.2).last (Writes.pure _))
  | treasuryWithdrawals withdrawals policyHash =>
      obtain ⟨length, addrs⟩ := List.forall_mem_cons.mp small
      have listed := decodeTreasuryWithdrawals_writes length (List.forall_mem_map.mp addrs)
      exact action_writes rfl fun start =>
        listed.bind ((decodeHash28Opt_writes policyHash).last (Writes.pure _))
  | noConfidence prevAction =>
      exact action_writes rfl fun start => (decodeGovActionIdOpt_writes prevAction).last (Writes.pure _)
  | updateCommittee prevAction removed added threshold =>
      have removedSmall : removed.size < 2 ^ 64 := small _ (List.mem_cons_self ..)
      have addedSmall : added.size < 2 ^ 64 := small _ (List.mem_cons_of_mem _ (List.mem_singleton_self _))
      rw [encodeGovAction, List.append_assoc (encodeGovActionIdOpt prevAction),
        List.append_assoc (encodeGovActionIdOpt prevAction), List.append_assoc (encodeColdCredentialSet removed)]
      exact action_writes rfl fun start => (decodeGovActionIdOpt_writes prevAction).bind
        ((decodeColdCredentialSet_writes removedSmall).bind
          ((decodeColdCredentialEpochMap_writes addedSmall).bind
            ((decodeUnitInterval_writes threshold).last (Writes.pure _))))
  | newConstitution prevAction raw =>
      have item : IsItem raw := items raw (List.mem_singleton_self raw)
      exact action_writes rfl fun start =>
        (decodeGovActionIdOpt_writes prevAction).bind ((writes_item item).last (Writes.pure _))
  | infoAction =>
      have tagged := @action_writes 6 1 0 [] .infoAction rfl fun start => Writes.pure _
      rwa [List.append_nil] at tagged

/-! ## Procedures -/

/-- The opaque fields are single items. Rust's vectors, sets and maps are shorter than 2 ^ 64. -/
structure WellFormed (procedure : ProposalProcedure) : Prop where
  opaqueParts : ∀ part ∈ procedure.anchor.raw :: opaqueParts procedure.govAction, SingleItem part
  sizes : ∀ size ∈ procedure.returnAddr.length :: sizes procedure.govAction, size < 2 ^ 64

theorem decodeProposalProcedure_writes {procedure : ProposalProcedure} (valid : WellFormed procedure) :
    Writes 1 decodeProposalProcedure (encodeProposalProcedure procedure) procedure := by
  obtain ⟨anchor, parts⟩ := List.forall_mem_cons.mp valid.opaqueParts
  obtain ⟨addr, small⟩ := List.forall_mem_cons.mp valid.sizes
  have action := decodeGovAction_writes (fun part member => singleItem_iff.mp (parts part member)) small
  have fields : Writes 4 (fun data => (do
      let deposit ← readUint data
      let returnAddr ← readBytes data
      let govAction ← decodeGovAction data
      let anchor ← decodeAnchor data
      return ⟨deposit.1, returnAddr.1, govAction, anchor⟩ : Read ProposalProcedure))
      (writeUintCanonical procedure.deposit ++ (writeBytesCanonical procedure.returnAddr ++
        (encodeGovAction procedure.govAction ++ encodeAnchor procedure.anchor))) procedure :=
    (writes_uint procedure.deposit).bind ((writes_bytes addr).bind (action.bind
      ((decodeAnchor_writes (singleItem_iff.mp anchor)).last (Writes.pure procedure))))
  simp only [encodeProposalProcedure, List.append_assoc]
  exact expectCount_writes _ fields

theorem decodeProposalSet_writes {procs : List ProposalProcedure} (nonempty : procs ≠ [])
    (small : procs.length < 2 ^ 64) (valid : ∀ procedure ∈ procs, WellFormed procedure) :
    Writes 1 decodeProposalSet (encodeProposalProcedures procs) procs := by
  have length := toNat_ofNat_of_lt small
  have some_ : UInt64.ofNat procs.length ≠ 0 := by
    intro none
    rw [none] at length
    exact nonempty (List.eq_nil_of_length_eq_zero length.symm)
  have each := @Writes.times_map _ decodeProposalProcedure 1 encodeProposalProcedure procs
    fun procedure member => decodeProposalProcedure_writes (valid procedure member)
  have elements : Writes (UInt64.ofNat procs.length).toNat (fun data => do
      if UInt64.ofNat procs.length = 0 then throw (.invalidCborStructure (← get) nonEmptyDetail)
      Cursor.times (decodeProposalProcedure data) (UInt64.ofNat procs.length).toNat)
      (procs.map encodeProposalProcedure).flatten procs := by
    simp only [if_neg some_, length]
    rwa [Nat.mul_one] at each
  exact untagged_writes (startsWith_array _ _) (by decide) (writes_array elements)

/-- A set that fills the bytes is all that is decoded. -/
theorem decodeProposalProcedures_of_reads {written : Bytes} {procs : List ProposalProcedure}
    (reads : Reads decodeProposalSet written procs) : decodeProposalProcedures written = .ok procs := by
  have ran := reads [] []
  rw [List.nil_append, List.append_nil, List.length_nil, Nat.zero_add] at ran
  unfold decodeProposalProcedures
  rw [ran]
  exact if_pos rfl

theorem proposal_procedures_round_trip {procs : List ProposalProcedure} (nonempty : procs ≠ [])
    (small : procs.length < 2 ^ 64) (valid : ∀ procedure ∈ procs, WellFormed procedure) :
    decodeProposalProcedures (encodeProposalProcedures procs) = .ok procs :=
  decodeProposalProcedures_of_reads (decodeProposalSet_writes nonempty small valid).reads

def sampleHash : Hash28 := Vector.replicate 28 7

/-- Two members with the same bytes, one of whom joins again. -/
def sampleUpdate : GovAction :=
  let removed : List StakeCredential := [.scriptHash sampleHash, .keyHash sampleHash]
  .updateCommittee (some ⟨Vector.replicate 32 9, 300⟩) (ExtTreeSet.ofList removed)
    (ExtTreeMap.ofList [(StakeCredential.keyHash sampleHash, (500 : UInt64))]) (2, 3)

def sampleProposals : List ProposalProcedure :=
  [⟨100, [0xe0], sampleUpdate, ⟨[0x80]⟩⟩,
    ⟨100, [0xe0], .parameterChange none [0xa0] (some sampleHash), ⟨[0x80]⟩⟩]

theorem singleItem_emptyArray : SingleItem [0x80] :=
  singleItem_iff.mpr (@writes_array Unit (fun _ _ => pure ()) [] () 0 (Writes.pure ())).skips

theorem sampleProposals_wellFormed : ∀ procedure ∈ sampleProposals, WellFormed procedure := by
  have update : SingleItem [0xa0] :=
    singleItem_iff.mpr (@writes_map Unit (fun _ _ => pure ()) [] () 0 (Writes.pure ())).skips
  have sets : ∀ size ∈ sizes sampleUpdate, size < 2 ^ 64 := by decide
  refine List.forall_mem_cons.mpr ⟨⟨?_, ?_⟩, List.forall_mem_singleton.mpr ⟨?_, ?_⟩⟩
  · exact List.forall_mem_singleton.mpr singleItem_emptyArray
  · exact List.forall_mem_cons.mpr ⟨(by decide : 1 < 2 ^ 64), sets⟩
  · exact List.forall_mem_cons.mpr ⟨singleItem_emptyArray, List.forall_mem_singleton.mpr update⟩
  · exact List.forall_mem_singleton.mpr (by decide : 1 < 2 ^ 64)

theorem proposal_procedures_round_trip_sample :
    decodeProposalProcedures (encodeProposalProcedures sampleProposals) = .ok sampleProposals :=
  proposal_procedures_round_trip (List.cons_ne_nil _ _) (by decide : 2 < 2 ^ 64) sampleProposals_wellFormed

end Ade.Proof.Codec
