import Ade.Proof.Codec.Cbor
import Ade.Wal.Entry

namespace Ade.Proof.Wal
open Library Cursor Ade.Codec Ade.Wal Proof.Codec

theorem decodeUint_reads (value : UInt64) : Reads decodeUint (writeUintCanonical value) value :=
  ((readUint_reads value).adapt WalError.decode).last (Reads.pure value)

theorem expectDefiniteArray_reads (count : UInt64) (label : String) :
    Reads (expectDefiniteArray count label) (writeDefiniteArray count) () := by
  refine ((readArrayHeader_reads count).adapt WalError.decode).last ?_
  simpa using Reads.pure ()

theorem readHash32_reads (hash : Hash32) : Reads Wal.readHash32 (writeHash32 hash) hash := by
  refine ((readBytes_reads hash.toList (by simp)).adapt WalError.decode).last ?_
  have same : (⟨hash.toList.toArray, by simp⟩ : Hash32) = hash := rfl
  simpa [same] using Reads.pure hash

theorem okOr_reads {α : Type} (value : α) (reason : String) :
    Reads (fun _ : Bytes => okOr (some value) reason) [] value :=
  Reads.pure value

theorem readRollbackPoint_reads (p : RollbackPoint) :
    Reads readRollbackPoint (writeRollbackPoint p) p := by
  rw [writeRollbackPoint, List.append_assoc]
  refine (decodeUint_reads p.slot).bind ?_
  refine (readHash32_reads p.hash).bind ?_
  exact (decodeUint_reads p.blockNo).last (Reads.pure p)

theorem blockVerdictTag_roundTrip (verdict : BlockVerdictTag) :
    BlockVerdictTag.fromWireCode verdict.wireCode = some verdict := by
  cases verdict <;> rfl

theorem rollbackReason_roundTrip (reason : RollbackReason) :
    RollbackReason.fromWireCode reason.wireCode = some reason := by
  cases reason <;> rfl

theorem snapshotPhase_roundTrip (phase : SnapshotPhase) :
    snapshotPhaseFromWire (snapshotPhaseWire phase) = some phase := by
  cases phase <;> rfl

theorem cardanoEra_roundTrip (era : CardanoEra) :
    CardanoEra.all.find? (fun other => other.asU64 = era.asU64) = some era := by
  cases era <;> decide

theorem decodeAdmitBlock_reads (priorFp blockHash : Hash32) (slot : SlotNo)
    (verdict : BlockVerdictTag) (postFp : Hash32) :
    Reads decodeAdmitBlock
      (writeDefiniteArray 5 ++ (writeHash32 priorFp ++ (writeHash32 blockHash ++
        (writeUintCanonical slot ++ (writeUintCanonical verdict.wireCode ++ writeHash32 postFp)))))
      (.admitBlock priorFp blockHash slot verdict postFp) := by
  refine (expectDefiniteArray_reads 5 _).bind ?_
  refine (readHash32_reads priorFp).bind ?_
  refine (readHash32_reads blockHash).bind ?_
  refine (decodeUint_reads slot).bind ?_
  refine (decodeUint_reads verdict.wireCode).bind ?_
  rw [blockVerdictTag_roundTrip]
  refine (okOr_reads verdict _).skip ?_
  exact (readHash32_reads postFp).last (Reads.pure _)

theorem decodeSeedEpochConsensusInputsImported_reads (anchorFp sidecarHash : Hash32)
    (epochNo : EpochNo) :
    Reads decodeSeedEpochConsensusInputsImported
      (writeDefiniteArray 3 ++ (writeHash32 anchorFp ++ (writeHash32 sidecarHash ++
        writeUintCanonical epochNo)))
      (.seedEpochConsensusInputsImported anchorFp sidecarHash epochNo) := by
  refine (expectDefiniteArray_reads 3 _).bind ?_
  refine (readHash32_reads anchorFp).bind ?_
  refine (readHash32_reads sidecarHash).bind ?_
  exact (decodeUint_reads epochNo).last (Reads.pure _)

theorem decodeRollBack_reads (toPoint : RollbackPoint) (reason : RollbackReason)
    (priorTip selectedTip : RollbackPoint) :
    Reads decodeRollBack
      (writeDefiniteArray 10 ++ (writeRollbackPoint toPoint ++ (writeUintCanonical reason.wireCode ++
        (writeRollbackPoint priorTip ++ writeRollbackPoint selectedTip))))
      (.rollBack toPoint reason priorTip selectedTip) := by
  refine (expectDefiniteArray_reads 10 _).bind ?_
  refine (readRollbackPoint_reads toPoint).bind ?_
  refine (decodeUint_reads reason.wireCode).bind ?_
  rw [rollbackReason_roundTrip]
  refine (okOr_reads reason _).skip ?_
  refine (readRollbackPoint_reads priorTip).bind ?_
  exact (readRollbackPoint_reads selectedTip).last (Reads.pure _)

theorem decodeEpochConsensusViewActivated_reads (targetEpoch : EpochNo) (networkMagic : UInt32)
    (era : CardanoEra) (transitionPoint : Point) (sourceCheckpointCommitment : Hash32)
    (snapshotPhase : SnapshotPhase)
    (nonceCommitment stakeViewCanonicalHash viewCanonicalHash : Hash32) :
    Reads decodeEpochConsensusViewActivated
      (writeDefiniteArray 10 ++ (writeUintCanonical targetEpoch ++
        (writeUintCanonical networkMagic.toUInt64 ++ (writeUintCanonical era.asU64 ++
        (writeUintCanonical transitionPoint.slot ++ (writeHash32 transitionPoint.hash ++
        (writeHash32 sourceCheckpointCommitment ++
        (writeUintCanonical (snapshotPhaseWire snapshotPhase) ++ (writeHash32 nonceCommitment ++
        (writeHash32 stakeViewCanonicalHash ++ writeHash32 viewCanonicalHash))))))))))
      (.epochConsensusViewActivated targetEpoch networkMagic era transitionPoint
        sourceCheckpointCommitment snapshotPhase nonceCommitment stakeViewCanonicalHash
        viewCanonicalHash) := by
  have inRange : ¬ networkMagic.toUInt64.toNat > 0xffffffff := by
    have bound := networkMagic.toNat_lt
    simp only [UInt32.toNat_toUInt64]
    omega
  refine (expectDefiniteArray_reads 10 _).bind ?_
  refine (decodeUint_reads targetEpoch).bind ?_
  refine (decodeUint_reads networkMagic.toUInt64).bind ?_
  simp only [inRange, if_false]
  refine (decodeUint_reads era.asU64).bind ?_
  rw [cardanoEra_roundTrip]
  refine (okOr_reads era _).skip ?_
  refine (decodeUint_reads transitionPoint.slot).bind ?_
  refine (readHash32_reads transitionPoint.hash).bind ?_
  refine (readHash32_reads sourceCheckpointCommitment).bind ?_
  refine (decodeUint_reads (snapshotPhaseWire snapshotPhase)).bind ?_
  rw [snapshotPhase_roundTrip]
  refine (okOr_reads snapshotPhase _).skip ?_
  refine (readHash32_reads nonceCommitment).bind ?_
  refine (readHash32_reads stakeViewCanonicalHash).bind ?_
  refine (readHash32_reads viewCanonicalHash).last ?_
  simpa using Reads.pure _

theorem decodeWalEntryAt_reads (entry : WalEntry) :
    Reads decodeWalEntryAt (encodeWalEntry entry) entry := by
  cases entry with
  | admitBlock priorFp blockHash slot verdict postFp =>
      simp only [encodeWalEntry, List.append_assoc]
      refine (expectDefiniteArray_reads 2 _).bind ?_
      refine (decodeUint_reads tagAdmitBlock).bind ?_
      exact decodeAdmitBlock_reads priorFp blockHash slot verdict postFp
  | seedEpochConsensusInputsImported anchorFp sidecarHash epochNo =>
      simp only [encodeWalEntry, List.append_assoc]
      refine (expectDefiniteArray_reads 2 _).bind ?_
      refine (decodeUint_reads tagSeedEpochConsensusInputsImported).bind ?_
      exact decodeSeedEpochConsensusInputsImported_reads anchorFp sidecarHash epochNo
  | rollBack toPoint reason priorTip selectedTip =>
      simp only [encodeWalEntry, List.append_assoc]
      refine (expectDefiniteArray_reads 2 _).bind ?_
      refine (decodeUint_reads tagRollback).bind ?_
      exact decodeRollBack_reads toPoint reason priorTip selectedTip
  | epochConsensusViewActivated targetEpoch networkMagic era transitionPoint
      sourceCheckpointCommitment snapshotPhase nonceCommitment stakeViewCanonicalHash
      viewCanonicalHash =>
      simp only [encodeWalEntry, List.append_assoc]
      refine (expectDefiniteArray_reads 2 _).bind ?_
      refine (decodeUint_reads tagEpochConsensusViewActivated).bind ?_
      exact decodeEpochConsensusViewActivated_reads targetEpoch networkMagic era transitionPoint
        sourceCheckpointCommitment snapshotPhase nonceCommitment stakeViewCanonicalHash
        viewCanonicalHash

theorem decodeWalEntry_encodeWalEntry (entry : WalEntry) :
    decodeWalEntry (encodeWalEntry entry) = .ok (entry, (encodeWalEntry entry).length) := by
  have read := decodeWalEntryAt_reads entry [] []
  simp only [List.nil_append, List.append_nil, List.length_nil, Nat.zero_add] at read
  rw [decodeWalEntry, read]
  rfl

/-! ## Frames have a length that fits the header -/

theorem length_writeArgument (major : Nat) (value : UInt64) (width : IntWidth) :
    (writeArgument major value width).length ≤ 9 := by
  cases width <;> simp [writeArgument]

theorem length_writeHash32 (hash : Hash32) : (writeHash32 hash).length ≤ 41 := by
  have header := length_writeArgument majorBytes (UInt64.ofNat hash.toList.length)
    (canonicalWidth (UInt64.ofNat hash.toList.length))
  have payload : hash.toList.length = 32 := hash.length_toList
  simp only [writeHash32, writeBytesCanonical, List.length_append]
  omega

theorem length_encodeWalEntry (entry : WalEntry) : (encodeWalEntry entry).length < 256 ^ 4 := by
  have uint : ∀ value, (writeUintCanonical value).length ≤ 9 :=
    fun value => length_writeArgument _ _ _
  have array : ∀ count, (writeDefiniteArray count).length ≤ 9 :=
    fun count => length_writeArgument _ _ _
  have point : ∀ p : RollbackPoint, (writeRollbackPoint p).length ≤ 59 := by
    intro p
    have slot := uint p.slot
    have hash := length_writeHash32 p.hash
    have blockNo := uint p.blockNo
    simp only [writeRollbackPoint, List.length_append]
    omega
  cases entry <;> simp only [encodeWalEntry, List.length_append]
  all_goals grind [length_writeHash32]

end Ade.Proof.Wal
