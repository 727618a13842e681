import Ade.Codec.Cbor

namespace Ade.Proof.Codec
open Library Cursor Ade.Codec

theorem peekByte_append (before after : Bytes) (byte : UInt8) :
    peekByte (before ++ byte :: after) before.length = .ok byte := by
  simp [peekByte]

theorem readByte_reads (byte : UInt8) : Reads readByte [byte] byte := by
  intro before after
  simp [readByte, runAt_bind, peekByte_append, Except.map]

theorem readFixed_reads (bytes : Bytes) :
    Reads (fun data => readFixed data bytes.length) bytes (UInt64.ofNat (fromBeBytes bytes)) := by
  intro before after
  simp [readFixed, runAt_bind, Except.map]

theorem readPayload_reads (bytes : Bytes) :
    Reads (fun data => readPayload data bytes.length) bytes bytes := by
  intro before after
  simp [readPayload, runAt_bind, Except.map]

theorem toNat_initialByte {major ai : Nat} (validMajor : major < 8) (validAi : ai < 32) :
    (initialByte major ai).toNat = major * 32 + ai := by
  have disjoint : 2 ^ 5 * major + ai = 2 ^ 5 * major ||| ai :=
    Nat.two_pow_add_eq_or_of_lt (by omega) major
  have high : (UInt8.ofNat (major * 32)).toNat = major * 32 := by
    simp only [UInt8.toNat_ofNat']
    omega
  have low : (UInt8.ofNat ai).toNat = ai := by
    simp only [UInt8.toNat_ofNat']
    omega
  rw [initialByte, UInt8.toNat_or, high, low, Nat.mul_comm major]
  exact disjoint.symm

theorem decodeInitial_reads {major ai : Nat} (validMajor : major < 8) (validAi : ai < 32) :
    Reads decodeInitial [initialByte major ai] (major, ai) := by
  refine (readByte_reads _).last ?_
  have value := toNat_initialByte validMajor validAi
  have majorBits : (initialByte major ai).toNat / 32 = major := by omega
  have lowBits : (initialByte major ai).toNat % 32 = ai := by omega
  rw [majorBits, lowBits]
  exact Reads.pure _

/-- The value can be written in the width. -/
def Fits (value : UInt64) : IntWidth → Prop
  | .inline => value.toNat ≤ 23
  | .i8 => value.toNat < 256 ^ 1
  | .i16 => value.toNat < 256 ^ 2
  | .i32 => value.toNat < 256 ^ 4
  | .i64 => value.toNat < 256 ^ 8

theorem fits_canonicalWidth (value : UInt64) : Fits value (canonicalWidth value) := by
  have bound := value.toNat_lt
  unfold canonicalWidth
  split_ifs <;> simp only [Fits] <;> omega

private theorem readFixed_toBeBytes {value : UInt64} {width : Nat}
    (fits : value.toNat < 256 ^ width) :
    Reads (fun data => readFixed data width) (toBeBytes width value.toNat) value := by
  have read := readFixed_reads (toBeBytes width value.toNat)
  rw [fromBeBytes_toBeBytes, Nat.mod_eq_of_lt fits, length_toBeBytes] at read
  simpa using read

theorem writeArgument_reads {value : UInt64} {width : IntWidth} (fits : Fits value width)
    (major : Nat) :
    ∃ ai argument, writeArgument major value width = initialByte major ai :: argument ∧ ai < 28 ∧
      ∀ start, Reads (fun data => decodeArgument data ai start) argument (value, width) := by
  cases width with
  | inline =>
      have small : value.toNat ≤ 23 := fits
      refine ⟨value.toNat, [], rfl, by omega, fun start => ?_⟩
      simpa [decodeArgument, small] using Reads.pure (value, IntWidth.inline)
  | i8 =>
      refine ⟨24, _, rfl, by omega, fun start => ?_⟩
      have same : UInt64.ofNat (UInt8.ofNat value.toNat).toNat = value := by
        have small : value.toNat < 256 := fits
        simp [Nat.mod_eq_of_lt small]
      have read := (readByte_reads (UInt8.ofNat value.toNat)).map
        (fun byte => (UInt64.ofNat byte.toNat, IntWidth.i8))
      rw [same] at read
      simpa [decodeArgument, toBeBytes] using read
  | i16 =>
      refine ⟨25, _, rfl, by omega, fun start => ?_⟩
      simpa [decodeArgument] using (readFixed_toBeBytes fits).map (·, IntWidth.i16)
  | i32 =>
      refine ⟨26, _, rfl, by omega, fun start => ?_⟩
      simpa [decodeArgument] using (readFixed_toBeBytes fits).map (·, IntWidth.i32)
  | i64 =>
      refine ⟨27, _, rfl, by omega, fun start => ?_⟩
      simpa [decodeArgument] using (readFixed_toBeBytes fits).map (·, IntWidth.i64)

theorem readUint_reads (value : UInt64) :
    Reads readUint (writeUintCanonical value) (value, canonicalWidth value) := by
  obtain ⟨ai, argument, written, small, read⟩ :=
    writeArgument_reads (fits_canonicalWidth value) majorUnsigned
  rw [writeUintCanonical, written, ← List.singleton_append]
  refine Reads.get_bind fun start => ?_
  refine (decodeInitial_reads (by decide) (by omega)).bind ?_
  simpa using read start

theorem readContainerHeader_reads {major : Nat} (valid : major < 8) (expected : String)
    (count : UInt64) :
    Reads (readContainerHeader major expected) (writeArgument major count (canonicalWidth count))
      (.definite count (canonicalWidth count)) := by
  obtain ⟨ai, argument, written, small, read⟩ :=
    writeArgument_reads (fits_canonicalWidth count) major
  rw [written, ← List.singleton_append]
  refine Reads.get_bind fun start => ?_
  refine (decodeInitial_reads valid (by omega)).bind ?_
  have definite : ¬ ai = 31 := by omega
  simpa [definite] using (read start).map
    (fun argument => ContainerEncoding.definite argument.1 argument.2)

theorem readArrayHeader_reads (count : UInt64) :
    Reads readArrayHeader (writeArrayHeader (.definite count (canonicalWidth count)))
      (.definite count (canonicalWidth count)) :=
  readContainerHeader_reads (by decide) "array" count

theorem readMapHeader_reads (count : UInt64) :
    Reads readMapHeader (writeMapHeader (.definite count (canonicalWidth count)))
      (.definite count (canonicalWidth count)) :=
  readContainerHeader_reads (by decide) "map" count

theorem readBytes_reads (bytes : Bytes) (short : bytes.length < 2 ^ 64) :
    Reads readBytes (writeBytesCanonical bytes)
      (bytes, canonicalWidth (UInt64.ofNat bytes.length)) := by
  obtain ⟨ai, argument, written, small, read⟩ :=
    writeArgument_reads (fits_canonicalWidth (UInt64.ofNat bytes.length)) majorBytes
  rw [writeBytesCanonical, written, ← List.singleton_append, List.append_assoc]
  refine Reads.get_bind fun start => ?_
  refine (decodeInitial_reads (by decide) (by omega)).bind ?_
  have definite : ¬ ai = 31 := by omega
  have length : (UInt64.ofNat bytes.length).toNat = bytes.length := by
    simpa using Nat.mod_eq_of_lt short
  have payload : Reads (fun data => readPayload data (UInt64.ofNat bytes.length).toNat) bytes bytes := by
    rw [length]
    exact readPayload_reads bytes
  have rest : Reads (fun data => (·, canonicalWidth (UInt64.ofNat bytes.length)) <$>
      readPayload data (UInt64.ofNat bytes.length).toNat) bytes
      (bytes, canonicalWidth (UInt64.ofNat bytes.length)) := payload.map _
  have all : Reads (fun data => decodeArgument data ai start >>= fun argument =>
      (·, argument.2) <$> readPayload data argument.1.toNat) (argument ++ bytes)
      (bytes, canonicalWidth (UInt64.ofNat bytes.length)) := (read start).bind rest
  simpa [definite] using all

theorem fromUTF8_toUTF8 (text : String) :
    String.fromUTF8? text.toUTF8.data.toList.toByteArray = some text := by
  have same : text.toUTF8.data.toList.toByteArray = text.toUTF8 := by
    apply ByteArray.ext
    rw [List.data_toByteArray]
  rw [same, String.fromUTF8?]
  exact dif_pos text.isValidUTF8

theorem readText_reads (text : String) (short : text.toUTF8.data.toList.length < 2 ^ 64) :
    Reads readText (writeTextCanonical text)
      (text, canonicalWidth (UInt64.ofNat text.toUTF8.data.toList.length)) := by
  have decoded := fromUTF8_toUTF8 text
  unfold writeTextCanonical
  generalize text.toUTF8.data.toList = bytes at short decoded ⊢
  obtain ⟨ai, argument, written, small, read⟩ :=
    writeArgument_reads (fits_canonicalWidth (UInt64.ofNat bytes.length)) majorText
  dsimp only
  rw [written, ← List.singleton_append, List.append_assoc]
  refine Reads.get_bind fun start => ?_
  refine (decodeInitial_reads (by decide) (by omega)).bind ?_
  have definite : ¬ ai = 31 := by omega
  have length : (UInt64.ofNat bytes.length).toNat = bytes.length := by
    simpa using Nat.mod_eq_of_lt short
  have payload := readPayload_reads bytes
  rw [← length] at payload
  simp only [ne_eq, not_true_eq_false, definite, if_false]
  refine (read start).bind (payload.last ?_)
  simp only [decoded]
  exact Reads.pure _

end Ade.Proof.Codec
