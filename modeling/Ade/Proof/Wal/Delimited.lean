import Ade.Proof.Codec.Conway
import Ade.Proof.Wal.Entry

/-! Entries of the log are told apart without an end mark. -/

namespace Ade.Proof.Wal
open Library Cursor Ade.Codec Ade.Wal Proof.Codec

theorem decodeUint_local : Local decodeUint :=
  .bind (.adapt WalError.decode (.of_exact readUint_exact)) fun _ => .pure _

theorem expectDefiniteArray_local (expectedLen : UInt64) (label : String) :
    Local (expectDefiniteArray expectedLen label) := by
  refine .bind (.adapt WalError.decode (.of_exact readArrayHeader_exact)) fun encoding => ?_
  cases encoding with
  | definite count width => exact .ite (.throw _) (.pure _)
  | indefinite => exact .throw _

theorem readHash32_local : Local Wal.readHash32 := by
  refine .bind (.adapt WalError.decode (.of_exact readBytes_exact)) fun value => ?_
  by_cases sized : value.1.length = 32
  · simp only [dif_pos sized]
    exact .pure _
  · simp only [dif_neg sized]
    exact .throw _

theorem readRollbackPoint_local : Local readRollbackPoint :=
  .bind decodeUint_local fun _ => .bind readHash32_local fun _ => .bind decodeUint_local fun _ => .pure _

theorem okOr_local {α : Type} (value : Option α) (reason : String) :
    Local fun _ : Bytes => okOr value reason := by
  cases value with
  | none => exact .throw _
  | some value => exact .pure value

theorem decodeAdmitBlock_local : Local decodeAdmitBlock :=
  .bind (expectDefiniteArray_local _ _) fun _ =>
  .bind readHash32_local fun _ =>
  .bind readHash32_local fun _ =>
  .bind decodeUint_local fun _ =>
  .bind decodeUint_local fun _ =>
  .bind (okOr_local _ _) fun _ =>
  .bind readHash32_local fun _ => .pure _

theorem decodeSeedEpochConsensusInputsImported_local :
    Local decodeSeedEpochConsensusInputsImported :=
  .bind (expectDefiniteArray_local _ _) fun _ =>
  .bind readHash32_local fun _ =>
  .bind readHash32_local fun _ =>
  .bind decodeUint_local fun _ => .pure _

theorem decodeRollBack_local : Local decodeRollBack :=
  .bind (expectDefiniteArray_local _ _) fun _ =>
  .bind readRollbackPoint_local fun _ =>
  .bind decodeUint_local fun _ =>
  .bind (okOr_local _ _) fun _ =>
  .bind readRollbackPoint_local fun _ =>
  .bind readRollbackPoint_local fun _ => .pure _

theorem decodeEpochConsensusViewActivated_local : Local decodeEpochConsensusViewActivated := by
  refine .bind (expectDefiniteArray_local _ _) fun _ => .bind decodeUint_local fun _ =>
    .bind decodeUint_local fun networkMagic => .ite (.bind (.throw _) fun _ => ?_) ?_ <;>
  exact
    .bind decodeUint_local fun _ =>
    .bind (okOr_local _ _) fun _ =>
    .bind decodeUint_local fun _ =>
    .bind readHash32_local fun _ =>
    .bind readHash32_local fun _ =>
    .bind decodeUint_local fun _ =>
    .bind (okOr_local _ _) fun _ =>
    .bind readHash32_local fun _ =>
    .bind readHash32_local fun _ =>
    .bind readHash32_local fun _ => .pure _

theorem decodeWalEntryAt_local : Local decodeWalEntryAt :=
  .bind (expectDefiniteArray_local _ _) fun _ =>
  .bind decodeUint_local fun _ =>
    .ite decodeAdmitBlock_local <|
    .ite decodeSeedEpochConsensusInputsImported_local <|
    .ite decodeRollBack_local <|
    .ite decodeEpochConsensusViewActivated_local (.throw _)

/-- An entry is decoded from the front of any bytes, and no strict prefix of it is decoded. -/
theorem wal_entries_self_delimiting : SelfDelimiting encodeWalEntry decodeWalEntry :=
  selfDelimiting decodeWalEntryAt_reads decodeWalEntryAt_local

end Ade.Proof.Wal
