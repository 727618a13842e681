import Ade.Network.LocalMessages
import Ade.Proof.Network.Messages

/-! The messages of the other mini-protocols are read back as they were written. -/

namespace Ade.Proof.Network
open Library Cursor Ade.Codec Ade.Network Proof.Codec
open Std (ExtTreeMap)

/-! ## Byte strings and counted lists -/

theorem readBytes_short : Exact (fun _ => readBytes) fun _ value => value.1.length < 2 ^ 64 := by
  refine Exact.get_bind ((Exact.bind decodeInitial_exact fun initial => exact_check fun _ =>
    exact_check fun _ => Exact.bind (decodeArgument_exact initial.2) fun argument =>
      Exact.bind (readPayload_exact argument.1.toNat) fun raw =>
        Exact.pure (raw, argument.2)).mono ?_)
  rintro written value ⟨head, tail, initial, rfl, -, first, rest, argument, rfl, -, payload, nothing,
    raw, rfl, ⟨-, sized⟩, -, rfl⟩
  exact sized ▸ argument.1.toNat_lt

theorem takes_string : Takes 1 decodeBytes fun bytes => bytes.length < 2 ^ 64 := by
  have inner : Takes 1 (fun data => wrapped (readBytes data)) fun value => value.1.length < 2 ^ 64 :=
    (wrapped_exact (Exact.reads readBytes_items)).mono fun _ _ known =>
      ⟨known.2, fun _ => Exact.fact_of_reads readBytes_short known.1⟩
  exact inner.bind fun _ => takes_pure fun short => short

theorem decodeBytes_reads {bytes : Bytes} (short : bytes.length < 2 ^ 64) :
    Reads decodeBytes (encodeBytes bytes) bytes :=
  (wrapped_reads (readBytes_reads bytes short)).last (Reads.pure _)

section
variable {α : Type} {item : Bytes → Decode α} {valid : α → Prop}

theorem takes_counted (each : Takes 1 item valid) :
    Takes 1 (fun data => decodeCounted data (item data))
      fun values => values.length < 2 ^ 64 ∧ ∀ value ∈ values, valid value := by
  refine takes_array fun len => ?_
  have listed := takes_times each len.toNat
  rw [Nat.mul_one] at listed
  exact listed.mono fun values known => ⟨known.1 ▸ len.toNat_lt, known.2⟩

theorem counted_length {values : List α} (short : values.length < 2 ^ 64) :
    (UInt64.ofNat values.length).toNat = values.length := by
  simpa using Nat.mod_eq_of_lt short

theorem decodeCounted_reads {encode : α → Bytes} {values : List α} (short : values.length < 2 ^ 64)
    (each : ∀ value ∈ values, Reads item (encode value) value) :
    Reads (fun data => decodeCounted data (item data))
      (encodeArrayHeader (UInt64.ofNat values.length) ++ (values.map encode).flatten) values := by
  have listed : List.Forall₂ (Reads item) (values.map encode) values := by
    rw [List.forall₂_map_left_iff, List.forall₂_same]
    exact each
  have times := Reads.times listed
  rw [List.length_map, ← counted_length short] at times
  exact (decodeArrayHeader_reads _).bind times

end

/-- A message that carries nothing opaque. -/
def noOpaques {μ : Type} (_ : μ) : List Bytes := []

theorem valid_of_lengths {μ : Type} {lengths : μ → List Nat} {message : μ}
    (short : ∀ length ∈ lengths message, length < 2 ^ 64) : Valid noOpaques lengths message :=
  ⟨fun _ member => absurd member List.not_mem_nil, short⟩

/-! ## Keep-alive -/

theorem decodeKeepAlive_takes : Takes 1 (decodeTagged decodeKeepAliveBody)
    (Valid noOpaques noLengths) := by
  refine takes_tagged "empty outer array" fun tag arrLen => ?_
  refine takes_branch ((takes_u16 _).bind fun cookie => takes_pure fun _ => valid_of_nothing rfl rfl) rfl ?_
  refine takes_branch ((takes_u16 _).bind fun cookie => takes_pure fun _ => valid_of_nothing rfl rfl) rfl ?_
  exact takes_branch (takes_pure (valid_of_nothing rfl rfl)) rfl (takes_thrown _)

theorem decodeKeepAlive_reads (message : KeepAliveMessage) :
    Reads (decodeTagged decodeKeepAliveBody) (encodeKeepAliveMessage message) message := by
  cases message with
  | keepAlive cookie =>
      exact tagged_reads (by simp) ((decodeU16_reads "cookie" cookie).last (Reads.pure _))
  | responseKeepAlive cookie =>
      exact tagged_reads (by simp) ((decodeU16_reads "cookie" cookie).last (Reads.pure _))
  | done => exact bare_reads (by simp) (Reads.pure _)

/-! ## Peer-sharing -/

def PeerSharingMessage.lengths : PeerSharingMessage → List Nat
  | .sharePeers peers => [peers.length]
  | .shareRequest _ | .done => []

theorem takes_ipv6Address : TakesItem decodeIpv6Address := by
  have checked : ∀ raw : Bytes, Takes 0 (fun _ =>
      if sized : raw.toArray.size = 16 then (pure ⟨raw.toArray, sized⟩ : Decode (Vector UInt8 16))
      else throw (.invalidProtocolMessage "ipv6 address not 16 bytes")) fun _ => True → True := by
    intro raw
    by_cases sized : raw.toArray.size = 16
    · simp only [dif_pos sized]
      exact takes_pure fun _ => trivial
    · simp only [dif_neg sized]
      exact takes_thrown _
  exact takes_bytes.bind checked

theorem decodeIpv6Address_reads (addr : Vector UInt8 16) :
    Reads decodeIpv6Address (encodeBytes addr.toList) addr := by
  have short : addr.toList.length < 2 ^ 64 := by
    rw [Vector.length_toList]
    omega
  refine (decodeBytes_reads short).last ?_
  have sized : addr.toList.toArray.size = 16 := by simp
  have same : (⟨addr.toList.toArray, sized⟩ : Vector UInt8 16) = addr := by
    apply Vector.toArray_inj.mp
    simp [Vector.toList]
  simp only [dif_pos sized, same]
  exact Reads.pure addr

theorem takes_peerAddress : TakesItem decodePeerAddress := by
  refine takes_tagged "empty peer address array" fun tag arrLen => ?_
  refine takes_branch ((takes_u32 _).bind fun addr => (takes_u16 _).bind fun port =>
    takes_pure fun _ _ => trivial) rfl ?_
  exact takes_branch (takes_ipv6Address.bind fun addr => (takes_u16 _).bind fun port =>
    (takes_u32 _).bind fun flowinfo => (takes_u32 _).bind fun scope =>
      takes_pure fun _ _ _ _ => trivial) rfl (takes_thrown _)

theorem address_reads {arrLen tag : UInt64} {written : Bytes} {address : PeerAddress}
    (some_ : ¬ arrLen < 1)
    (reads : Reads (fun data => decodePeerAddressBody data tag arrLen) written address) :
    Reads decodePeerAddress (encodeArrayHeader arrLen ++ encodeU64 tag ++ written) address := by
  rw [List.append_assoc]
  refine (decodeArrayHeader_reads arrLen).bind ?_
  simp only [if_neg some_]
  exact (decodeU64_reads tag).bind reads

theorem decodePeerAddress_reads (address : PeerAddress) :
    Reads decodePeerAddress (encodePeerAddress address) address := by
  cases address with
  | v4 addr port =>
      exact address_reads (by simp) ((decodeU32_reads _ addr).bind
        ((decodeU16_reads _ port).last (Reads.pure _)))
  | v6 addr port flowinfo scope =>
      exact address_reads (by simp) ((decodeIpv6Address_reads addr).bind
        ((decodeU16_reads _ port).bind ((decodeU32_reads _ flowinfo).bind
          ((decodeU32_reads _ scope).last (Reads.pure _)))))

theorem takes_amount : TakesItem decodeAmount :=
  takes_u64.bind fun _ => takes_check fun _ => takes_pure fun _ => trivial

theorem decodeAmount_reads (amount : UInt8) :
    Reads decodeAmount (encodeU64 amount.toUInt64) amount := by
  have small := amount.toNat_lt
  have narrow : ¬ amount.toUInt64.toNat ≥ 2 ^ 8 := by
    rw [UInt8.toNat_toUInt64]
    omega
  have word : amount.toUInt64.toUInt8 = amount := by simp
  refine (decodeU64_reads _).last ?_
  simp only [if_neg narrow, word]
  exact Reads.pure _

theorem decodePeerSharing_takes : Takes 1 (decodeTagged decodePeerSharingBody)
    (Valid noOpaques PeerSharingMessage.lengths) := by
  refine takes_tagged "empty outer array" fun tag arrLen => ?_
  refine takes_branch (takes_amount.bind fun amount => takes_pure fun _ => valid_of_nothing rfl rfl) rfl ?_
  refine takes_branch (Takes.bind (takes_counted takes_peerAddress) fun peers => takes_pure fun known =>
    valid_of_lengths (by simpa [PeerSharingMessage.lengths] using known.1)) rfl ?_
  exact takes_branch (takes_pure (valid_of_nothing rfl rfl)) rfl (takes_thrown _)

theorem decodePeerSharing_reads {message : PeerSharingMessage}
    (valid : Valid noOpaques PeerSharingMessage.lengths message) :
    Reads (decodeTagged decodePeerSharingBody) (encodePeerSharingMessage message) message := by
  cases message with
  | shareRequest amount =>
      exact tagged_reads (by simp) ((decodeAmount_reads amount).last (Reads.pure _))
  | sharePeers peers =>
      have short : peers.length < 2 ^ 64 := valid.2 peers.length (List.mem_singleton_self _)
      exact tagged_reads (by simp) ((decodeCounted_reads short fun peer _ =>
        decodePeerAddress_reads peer).last (Reads.pure _))
  | done => exact bare_reads (by simp) (Reads.pure _)

/-! ## Local chain-sync -/

def LocalChainSyncMessage.lengths : LocalChainSyncMessage → List Nat
  | .rollForward block _ => [block.length]
  | .findIntersect points => [points.length]
  | .requestNext | .awaitReply | .rollBackward _ _ | .intersectFound _ _ | .intersectNotFound _
  | .done => []

theorem decodeLocalChainSync_takes : Takes 1 (decodeTagged decodeLocalChainSyncBody)
    (Valid noOpaques LocalChainSyncMessage.lengths) := by
  refine takes_tagged "empty outer array" fun tag arrLen => ?_
  refine takes_branch (takes_pure (valid_of_nothing rfl rfl)) rfl ?_
  refine takes_branch (takes_pure (valid_of_nothing rfl rfl)) rfl ?_
  refine takes_branch (takes_string.bind fun block => takes_tip.bind fun tip => takes_pure
    fun _ short => valid_of_lengths (by simpa [LocalChainSyncMessage.lengths] using short)) rfl ?_
  refine takes_branch (takes_point.bind fun point => takes_tip.bind fun tip => takes_pure fun _ _ =>
    valid_of_nothing rfl rfl) rfl ?_
  refine takes_branch (Takes.bind (takes_counted takes_point) fun points => takes_pure fun known =>
    valid_of_lengths (by simpa [LocalChainSyncMessage.lengths] using known.1)) rfl ?_
  refine takes_branch (takes_point.bind fun point => takes_tip.bind fun tip => takes_pure fun _ _ =>
    valid_of_nothing rfl rfl) rfl ?_
  refine takes_branch (takes_tip.bind fun tip => takes_pure fun _ => valid_of_nothing rfl rfl) rfl ?_
  exact takes_branch (takes_pure (valid_of_nothing rfl rfl)) rfl (takes_thrown _)

theorem decodeLocalChainSync_reads {message : LocalChainSyncMessage}
    (valid : Valid noOpaques LocalChainSyncMessage.lengths message) :
    Reads (decodeTagged decodeLocalChainSyncBody) (encodeLocalChainSyncMessage message) message := by
  cases message with
  | requestNext => exact bare_reads (by simp) (Reads.pure _)
  | awaitReply => exact bare_reads (by simp) (Reads.pure _)
  | rollForward block tip =>
      have short : block.length < 2 ^ 64 := valid.2 block.length (List.mem_singleton_self _)
      exact tagged_reads (by simp)
        ((decodeBytes_reads short).bind ((decodeTip_reads tip).last (Reads.pure _)))
  | rollBackward point tip =>
      exact tagged_reads (by simp)
        ((decodePoint_reads point).bind ((decodeTip_reads tip).last (Reads.pure _)))
  | findIntersect points =>
      have short : points.length < 2 ^ 64 := valid.2 points.length (List.mem_singleton_self _)
      exact tagged_reads (by simp) ((decodeCounted_reads short fun point _ =>
        decodePoint_reads point).last (Reads.pure _))
  | intersectFound point tip =>
      exact tagged_reads (by simp)
        ((decodePoint_reads point).bind ((decodeTip_reads tip).last (Reads.pure _)))
  | intersectNotFound tip => exact tagged_reads (by simp) ((decodeTip_reads tip).last (Reads.pure _))
  | done => exact bare_reads (by simp) (Reads.pure _)

/-! ## Local state-query -/

def LocalStateQueryMessage.lengths : LocalStateQueryMessage → List Nat
  | .query payload | .result payload => [payload.length]
  | .acquire _ | .acquireNoPoint | .acquired | .failure _ | .release | .reAcquire _
  | .reAcquireNoPoint | .done => []

theorem takes_acquireFailure : TakesItem decodeAcquireFailure :=
  takes_u64.bind fun _ => .ite (fun _ => takes_pure fun _ => trivial) fun _ =>
    .ite (fun _ => takes_pure fun _ => trivial) fun _ => takes_thrown _

theorem decodeAcquireFailure_reads (reason : AcquireFailure) :
    Reads decodeAcquireFailure (encodeU64 reason.code) reason := by
  cases reason <;> exact (decodeU64_reads _).last (Reads.pure _)

theorem decodeLocalStateQuery_takes : Takes 1 (decodeTagged decodeLocalStateQueryBody)
    (Valid noOpaques LocalStateQueryMessage.lengths) := by
  refine takes_tagged "empty outer array" fun tag arrLen => ?_
  refine takes_branch (takes_point.bind fun point => takes_pure fun _ => valid_of_nothing rfl rfl) rfl ?_
  refine takes_branch (takes_pure (valid_of_nothing rfl rfl)) rfl ?_
  refine takes_branch (takes_acquireFailure.bind fun reason => takes_pure fun _ =>
    valid_of_nothing rfl rfl) rfl ?_
  refine takes_branch (takes_string.bind fun payload => takes_pure fun short =>
    valid_of_lengths (by simpa [LocalStateQueryMessage.lengths] using short)) rfl ?_
  refine takes_branch (takes_string.bind fun payload => takes_pure fun short =>
    valid_of_lengths (by simpa [LocalStateQueryMessage.lengths] using short)) rfl ?_
  refine takes_branch (takes_pure (valid_of_nothing rfl rfl)) rfl ?_
  refine takes_branch (takes_point.bind fun point => takes_pure fun _ => valid_of_nothing rfl rfl) rfl ?_
  refine takes_branch (takes_pure (valid_of_nothing rfl rfl)) rfl ?_
  refine takes_branch (takes_pure (valid_of_nothing rfl rfl)) rfl ?_
  exact takes_branch (takes_pure (valid_of_nothing rfl rfl)) rfl (takes_thrown _)

theorem decodeLocalStateQuery_reads {message : LocalStateQueryMessage}
    (valid : Valid noOpaques LocalStateQueryMessage.lengths message) :
    Reads (decodeTagged decodeLocalStateQueryBody) (encodeLocalStateQueryMessage message) message := by
  cases message with
  | acquire point => exact tagged_reads (by simp) ((decodePoint_reads point).last (Reads.pure _))
  | acquireNoPoint => exact bare_reads (by simp) (Reads.pure _)
  | acquired => exact bare_reads (by simp) (Reads.pure _)
  | failure reason =>
      exact tagged_reads (by simp) ((decodeAcquireFailure_reads reason).last (Reads.pure _))
  | query payload =>
      have short : payload.length < 2 ^ 64 := valid.2 payload.length (List.mem_singleton_self _)
      exact tagged_reads (by simp) ((decodeBytes_reads short).last (Reads.pure _))
  | result payload =>
      have short : payload.length < 2 ^ 64 := valid.2 payload.length (List.mem_singleton_self _)
      exact tagged_reads (by simp) ((decodeBytes_reads short).last (Reads.pure _))
  | release => exact bare_reads (by simp) (Reads.pure _)
  | reAcquire point => exact tagged_reads (by simp) ((decodePoint_reads point).last (Reads.pure _))
  | reAcquireNoPoint => exact bare_reads (by simp) (Reads.pure _)
  | done => exact bare_reads (by simp) (Reads.pure _)

/-! ## Local tx-submission -/

def LocalTxSubmissionMessage.opaques : LocalTxSubmissionMessage → List Bytes
  | .submitTx txBytes => [txBytes]
  | .rejectTx rejection => [rejection]
  | .acceptTx | .done => []

theorem decodeLocalTxSubmission_takes : Takes 1 (decodeTagged decodeLocalTxSubmissionBody)
    (Valid LocalTxSubmissionMessage.opaques noLengths) := by
  refine takes_tagged "empty outer array" fun tag arrLen => ?_
  refine takes_branch (takes_verbatim.bind fun tx => takes_pure fun item => valid_of_one rfl rfl item) rfl ?_
  refine takes_branch (takes_pure (valid_of_nothing rfl rfl)) rfl ?_
  refine takes_branch (takes_verbatim.bind fun reason => takes_pure fun item =>
    valid_of_one rfl rfl item) rfl ?_
  exact takes_branch (takes_pure (valid_of_nothing rfl rfl)) rfl (takes_thrown _)

theorem decodeLocalTxSubmission_reads {message : LocalTxSubmissionMessage}
    (valid : Valid LocalTxSubmissionMessage.opaques noLengths message) :
    Reads (decodeTagged decodeLocalTxSubmissionBody) (encodeLocalTxSubmissionMessage message)
      message := by
  cases message with
  | submitTx txBytes =>
      have item : IsItem txBytes := valid.1 txBytes (List.mem_singleton_self _)
      exact tagged_reads (by simp) ((decodeOpaque_reads item).last (Reads.pure _))
  | acceptTx => exact bare_reads (by simp) (Reads.pure _)
  | rejectTx rejection =>
      have item : IsItem rejection := valid.1 rejection (List.mem_singleton_self _)
      exact tagged_reads (by simp) ((decodeOpaque_reads item).last (Reads.pure _))
  | done => exact bare_reads (by simp) (Reads.pure _)

/-! ## Local tx-monitor -/

def nameLength (measure : String × MeasureSizeAndCapacity) : Nat := measure.1.toUTF8.data.toList.length

def LocalTxMonitorMessage.lengths : LocalTxMonitorMessage → List Nat
  | .replyNextTx (some tx) => [tx.length]
  | .replyGetMeasures measures =>
      measures.measures.size :: measures.measures.toList.map nameLength
  | .replyNextTx none | .done | .acquire | .acquired _ | .release | .nextTx | .hasTx _
  | .replyHasTx _ | .getSizes | .replyGetSizes _ | .getMeasures => []

section
variable {α : Type} {valid : α → Prop} {expected : UInt64} {next : Bytes → Decode α}

theorem takes_arrayOfLen (body : Takes expected.toNat next valid) :
    Takes 1 (fun data => decodeArrayOfLen expected data (next data)) valid := by
  refine takes_array fun len => takes_check fun same => ?_
  rw [not_not] at same
  rwa [same]

theorem arrayOfLen_reads {written : Bytes} {value : α} (reads : Reads next written value) :
    Reads (fun data => decodeArrayOfLen expected data (next data))
      (encodeArrayHeader expected ++ written) value := by
  refine (decodeArrayHeader_reads expected).bind ?_
  simpa using reads

end

theorem takes_sizes : TakesItem decodeSizes :=
  takes_arrayOfLen ((takes_u32 _).bind fun _ => (takes_u32 _).bind fun _ =>
    (takes_u32 _).bind fun _ => takes_pure fun _ _ _ => trivial)

theorem decodeSizes_reads (sizes : MempoolSizeAndCapacity) :
    Reads decodeSizes (encodeSizes sizes) sizes := by
  rw [encodeSizes, List.append_assoc]
  exact arrayOfLen_reads ((decodeU32_reads _ _).bind ((decodeU32_reads _ _).bind
    ((decodeU32_reads _ _).last (Reads.pure _))))

theorem takes_measure : Takes 2 decodeMeasure fun measure => nameLength measure < 2 ^ 64 := by
  refine @Takes.bind _ _ 1 1 _ _ _ _ (takes_text "measure name") fun name => ?_
  refine @takes_arrayOfLen _ _ 2 _ ?_
  exact takes_u64.bind fun _ => takes_u64.bind fun _ => takes_pure fun _ _ short => short

theorem decodeMeasure_reads {measure : String × MeasureSizeAndCapacity}
    (short : nameLength measure < 2 ^ 64) :
    Reads decodeMeasure (encodeMeasure measure) measure := by
  unfold encodeMeasure
  rw [List.append_assoc]
  exact (decodeText_reads _ _ short).bind (arrayOfLen_reads ((decodeU64_reads _).bind
    ((decodeU64_reads _).last (Reads.pure _))))

def MeasuresShort (measures : MempoolMeasures) : Prop :=
  measures.measures.size < 2 ^ 64 ∧
    ∀ measure ∈ measures.measures.toList, nameLength measure < 2 ^ 64

/-- The names of the map are those that were read. -/
theorem measures_short {entries : List (String × MeasureSizeAndCapacity)} (txCount : UInt32)
    (count : entries.length < 2 ^ 64) (names : ∀ entry ∈ entries, nameLength entry < 2 ^ 64) :
    MeasuresShort ⟨txCount, ExtTreeMap.ofList entries compare⟩ := by
  refine ⟨Nat.lt_of_le_of_lt ExtTreeMap.size_ofList_le count, ?_⟩
  rintro ⟨name, measure⟩ member
  have present : name ∈ ExtTreeMap.ofList entries compare := by
    rw [ExtTreeMap.mem_iff_isSome_getElem?, BTreeMap.mem_toList.mp member]
    rfl
  rw [ExtTreeMap.mem_ofList, List.contains_iff_mem, List.mem_map] at present
  obtain ⟨entry, listed, rfl⟩ := present
  exact names entry listed

theorem takes_measures : Takes 2 decodeMeasures MeasuresShort := by
  refine @Takes.bind _ _ 1 1 _ _ _ _ (takes_u32 "txCount") fun txCount => ?_
  refine Takes.mono (takes_map "indefinite-length measure map not allowed" fun len => ?_)
    fun _ known _ => known
  have listed := takes_times takes_measure len.toNat
  refine @Takes.bind _ _ _ 0 _ _ _ _ listed fun entries => takes_pure fun known => ?_
  exact measures_short txCount (known.1 ▸ len.toNat_lt) known.2

theorem decodeMeasures_reads {measures : MempoolMeasures} (short : MeasuresShort measures) :
    Reads decodeMeasures (encodeMeasures measures) measures := by
  have counted : (UInt64.ofNat measures.measures.size).toNat = measures.measures.toList.length := by
    rw [ExtTreeMap.length_toList]
    simpa using Nat.mod_eq_of_lt short.1
  have each : List.Forall₂ (Reads decodeMeasure) (measures.measures.toList.map encodeMeasure)
      measures.measures.toList := by
    rw [List.forall₂_map_left_iff, List.forall₂_same]
    exact fun measure member => decodeMeasure_reads (short.2 measure member)
  have times := Reads.times each
  rw [List.length_map, ← counted] at times
  have whole : Reads (fun _ : Bytes => (pure ⟨measures.txCount,
      ExtTreeMap.ofList measures.measures.toList compare⟩ : Decode MempoolMeasures)) [] measures := by
    rw [BTreeMap.ofList_toList]
    exact Reads.pure measures
  exact (decodeU32_reads "txCount" measures.txCount).bind
    (((readMapHeader_reads _).adapt MessageError.malformedCbor).bind (times.last whole))

theorem valid_measures {measures : MempoolMeasures} :
    Valid noOpaques LocalTxMonitorMessage.lengths (.replyGetMeasures measures) ↔
      MeasuresShort measures := by
  unfold Valid MeasuresShort LocalTxMonitorMessage.lengths noOpaques
  rw [List.forall_mem_cons, List.forall_mem_map]
  simp only [List.not_mem_nil, false_implies, implies_true, true_and]

theorem decodeLocalTxMonitor_takes : Takes 1 (decodeTagged decodeLocalTxMonitorBody)
    (Valid noOpaques LocalTxMonitorMessage.lengths) := by
  refine takes_tagged "empty outer array" fun tag arrLen => ?_
  refine takes_branch (takes_pure (valid_of_nothing rfl rfl)) rfl ?_
  refine takes_branch (takes_pure (valid_of_nothing rfl rfl)) rfl ?_
  refine takes_branch (takes_u64.bind fun slot => takes_pure fun _ => valid_of_nothing rfl rfl) rfl ?_
  refine takes_branch (takes_pure (valid_of_nothing rfl rfl)) rfl ?_
  refine takes_branch (takes_pure (valid_of_nothing rfl rfl)) rfl ?_
  refine takes_branch (takes_pure (valid_of_nothing rfl rfl)) rfl ?_
  refine takes_branch (takes_string.bind fun tx => takes_pure fun short =>
    valid_of_lengths (by simpa [LocalTxMonitorMessage.lengths] using short)) rfl ?_
  refine takes_branch ((takes_hash32 _).bind fun txId => takes_pure fun _ =>
    valid_of_nothing rfl rfl) rfl ?_
  refine takes_branch (takes_bool.bind fun present => takes_pure fun _ => valid_of_nothing rfl rfl) rfl ?_
  refine takes_branch (takes_pure (valid_of_nothing rfl rfl)) rfl ?_
  refine takes_branch (takes_sizes.bind fun sizes => takes_pure fun _ => valid_of_nothing rfl rfl) rfl ?_
  refine takes_branch (takes_pure (valid_of_nothing rfl rfl)) rfl ?_
  exact takes_branch (takes_measures.bind fun measures => takes_pure fun short =>
    valid_measures.mpr short) rfl (takes_thrown _)

theorem decodeLocalTxMonitor_reads {message : LocalTxMonitorMessage}
    (valid : Valid noOpaques LocalTxMonitorMessage.lengths message) :
    Reads (decodeTagged decodeLocalTxMonitorBody) (encodeLocalTxMonitorMessage message) message := by
  cases message with
  | done => exact bare_reads (by simp) (Reads.pure _)
  | acquire => exact bare_reads (by simp) (Reads.pure _)
  | acquired slot => exact tagged_reads (by simp) ((decodeU64_reads slot).last (Reads.pure _))
  | release => exact bare_reads (by simp) (Reads.pure _)
  | nextTx => exact bare_reads (by simp) (Reads.pure _)
  | replyNextTx txBytes =>
      cases txBytes with
      | none => exact bare_reads (by simp) (Reads.pure _)
      | some tx =>
          have short : tx.length < 2 ^ 64 := valid.2 tx.length (List.mem_singleton_self _)
          exact tagged_reads (by simp) ((decodeBytes_reads short).last (Reads.pure _))
  | hasTx txId => exact tagged_reads (by simp) ((decodeHash32_reads _ txId).last (Reads.pure _))
  | replyHasTx present => exact tagged_reads (by simp) ((decodeBool_reads present).last (Reads.pure _))
  | getSizes => exact bare_reads (by simp) (Reads.pure _)
  | replyGetSizes sizes =>
      exact tagged_reads (by simp) ((decodeSizes_reads sizes).last (Reads.pure _))
  | getMeasures => exact bare_reads (by simp) (Reads.pure _)
  | replyGetMeasures measures =>
      exact tagged_reads (by simp)
        ((decodeMeasures_reads (valid_measures.mp valid)).last (Reads.pure _))

/-! ## The statement -/

/-- Each codec reads every message back as it was written and writes one item, and of all that it
accepts it writes what it reads back as the same message. -/
theorem local_messages_round_trip :
    RoundTrips encodeKeepAliveMessage decodeKeepAliveMessage noOpaques noLengths ∧
      RoundTrips encodePeerSharingMessage decodePeerSharingMessage noOpaques
        PeerSharingMessage.lengths ∧
      RoundTrips encodeLocalChainSyncMessage decodeLocalChainSyncMessage noOpaques
        LocalChainSyncMessage.lengths ∧
      RoundTrips encodeLocalStateQueryMessage decodeLocalStateQueryMessage noOpaques
        LocalStateQueryMessage.lengths ∧
      RoundTrips encodeLocalTxSubmissionMessage decodeLocalTxSubmissionMessage
        LocalTxSubmissionMessage.opaques noLengths ∧
      RoundTrips encodeLocalTxMonitorMessage decodeLocalTxMonitorMessage noOpaques
        LocalTxMonitorMessage.lengths :=
  ⟨roundTrips_of_reads decodeKeepAlive_takes fun message _ => decodeKeepAlive_reads message,
    roundTrips_of_reads decodePeerSharing_takes fun _ => decodePeerSharing_reads,
    roundTrips_of_reads decodeLocalChainSync_takes fun _ => decodeLocalChainSync_reads,
    roundTrips_of_reads decodeLocalStateQuery_takes fun _ => decodeLocalStateQuery_reads,
    roundTrips_of_reads decodeLocalTxSubmission_takes fun _ => decodeLocalTxSubmission_reads,
    roundTrips_of_reads decodeLocalTxMonitor_takes fun _ => decodeLocalTxMonitor_reads⟩

end Ade.Proof.Network
