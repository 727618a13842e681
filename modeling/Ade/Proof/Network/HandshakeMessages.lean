import Ade.Network.Handshake
import Ade.Proof.Codec.Conway

/-! Handshake messages are read back as they were written. -/

namespace Ade.Proof.Network
open Library Cursor Ade.Codec Ade.Network Proof.Codec

/-! ## Integers and headers -/

theorem decodeU64_reads (value : UInt64) : Reads decodeU64 (encodeU64 value) value :=
  ((readUint_reads value).adapt MessageError.malformedCbor).last (Reads.pure value)

theorem decodeArrayHeader_reads (len : UInt64) :
    Reads decodeArrayHeader (encodeArrayHeader len) len :=
  ((readArrayHeader_reads len).adapt MessageError.malformedCbor).last (Reads.pure len)

theorem decodeVersion_reads (version : UInt16) :
    Reads decodeVersion (encodeU64 version.toUInt64) version := by
  have small := version.toNat_lt
  have narrow : ¬ version.toUInt64.toNat ≥ 2 ^ 32 := by
    rw [UInt16.toNat_toUInt64]
    omega
  have narrower : ¬ version.toUInt64.toUInt32.toNat ≥ 2 ^ 16 := by
    rw [UInt64.toNat_toUInt32, UInt16.toNat_toUInt64]
    omega
  have word : version.toUInt64.toUInt32.toUInt16 = version := by
    apply UInt16.toNat_inj.mp
    rw [UInt32.toNat_toUInt16, UInt64.toNat_toUInt32, UInt16.toNat_toUInt64]
    omega
  have wide : Reads (decodeU32 "version number") (encodeU64 version.toUInt64)
      version.toUInt64.toUInt32 := by
    refine (decodeU64_reads _).last ?_
    simp only [if_neg narrow]
    exact Reads.pure _
  refine wide.last ?_
  simp only [if_neg narrower, word]
  exact Reads.pure _

/-! ## Version parameters are one item -/

theorem isItem_encodeU64 (value : UInt64) : IsItem (encodeU64 value) :=
  isItem_leaf (Exact.fact_of_reads readUint_exact (readUint_reads value))

theorem isItem_writeBool (b : Bool) : IsItem (writeBool b) := by
  have ran : (readHead (writeBool b)).runAt 0 = (.ok .leaf, (writeBool b).length) := by
    cases b <;> rfl
  exact isItem_leaf (readHead_exact.reads_of_run ran).1

theorem readHead_encodeArrayHeader (len : UInt64) :
    Reads readHead (encodeArrayHeader len) (.array len) :=
  readHead_of_readArrayHeader (readArrayHeader_reads len)

theorem isItem_encodeN2nVersionParams (version : UInt16) (networkMagic : UInt32) :
    IsItem (encodeN2nVersionParams version networkMagic) := by
  let fields := [encodeU64 networkMagic.toUInt64, writeBool true, encodeU64 0, writeBool false]
  have each : ∀ field ∈ fields, IsItem field := by
    simp only [fields, List.forall_mem_cons]
    exact ⟨isItem_encodeU64 _, isItem_writeBool _, isItem_encodeU64 _, isItem_writeBool _, by simp⟩
  by_cases late : version ≥ 16
  · have item : IsItem (encodeArrayHeader 5 ++ (fields ++ [writeBool false]).flatten) := by
      apply isItem_array (readHead_encodeArrayHeader 5) rfl
      simp only [List.forall_mem_append, List.forall_mem_cons]
      exact ⟨each, isItem_writeBool _, by simp⟩
    simpa [encodeN2nVersionParams, late, fields] using item
  · have item : IsItem (encodeArrayHeader 4 ++ fields.flatten) :=
      isItem_array (readHead_encodeArrayHeader 4) rfl each
    simpa [encodeN2nVersionParams, late, fields] using item

theorem decodeParams_reads {params : VersionParams} (item : IsItem params) :
    Reads decodeParams params params :=
  (readItem_reads item).adapt MessageError.malformedCbor

/-! ## Messages -/

def encodeEntry (entry : UInt16 × VersionParams) : Bytes := encodeU64 entry.1.toUInt64 ++ entry.2

theorem decodeVersionTable_reads {table : VersionTable} (short : table.length < 2 ^ 64)
    (items : ∀ entry ∈ table, IsItem entry.2) :
    Reads decodeVersionTable (encodeVersionTable table) table := by
  have each : List.Forall₂ (Reads decodeVersionEntry) (table.map encodeEntry) table := by
    rw [List.forall₂_map_left_iff, List.forall₂_same]
    intro entry member
    exact (decodeVersion_reads entry.1).bind
      ((decodeParams_reads (items entry member)).last (Reads.pure entry))
  have counted : (UInt64.ofNat table.length).toNat = table.length := by
    simpa using Nat.mod_eq_of_lt short
  have entries := Reads.times each
  rw [List.length_map, ← counted] at entries
  exact ((readMapHeader_reads _).adapt MessageError.malformedCbor).bind entries

theorem decodeMessage_reads {arrLen tag : UInt64} {body : Bytes} {message : HandshakeMessage}
    (some_ : ¬ arrLen < 1) (reads : Reads (fun data => decodeMessageBody data tag arrLen) body message) :
    Reads decodeMessage (encodeArrayHeader arrLen ++ encodeU64 tag ++ body) message := by
  rw [List.append_assoc]
  refine (decodeArrayHeader_reads arrLen).bind ?_
  simp only [if_neg some_]
  exact (decodeU64_reads tag).bind reads

theorem decodeHandshakeMessage_of_reads {bytes : Bytes} {message : HandshakeMessage}
    (some_ : bytes ≠ []) (reads : Reads decodeMessage bytes message) :
    decodeHandshakeMessage bytes = .ok message := by
  have ran := reads [] []
  rw [List.nil_append, List.append_nil, List.length_nil, Nat.zero_add] at ran
  simp [decodeHandshakeMessage, some_, ran]

/-- Parameters are one item each, and lengths can be written. -/
def Writable : HandshakeMessage → Prop
  | .proposeVersions table | .queryReply table =>
      table.length < 2 ^ 64 ∧ ∀ entry ∈ table, IsItem entry.2
  | .acceptVersion _ params => IsItem params
  | .refuse (.versionMismatch versions) => versions.length < 2 ^ 64
  | .refuse (.handshakeDecodeError _ reason) | .refuse (.refused _ reason) =>
      reason.toUTF8.data.toList.length < 2 ^ 64

theorem encodeArrayHeader_ne_nil (len : UInt64) : encodeArrayHeader len ≠ [] :=
  Exact.fact_of_reads readHead_exact (readHead_encodeArrayHeader len)

theorem decodeText_reads (field text : String) (short : text.toUTF8.data.toList.length < 2 ^ 64) :
    Reads (decodeText field) (writeTextCanonical text) text :=
  ((readText_reads text short).adapt (textError field)).last (Reads.pure text)

theorem decodeRefuseReason_reads {reason : RefuseReason} (writable : Writable (.refuse reason)) :
    Reads decodeRefuseReason (encodeRefuseReason reason) reason := by
  cases reason with
  | versionMismatch versions =>
      have each : List.Forall₂ (Reads decodeVersion)
          (versions.map fun version => encodeU64 version.toUInt64) versions := by
        rw [List.forall₂_map_left_iff, List.forall₂_same]
        exact fun version _ => decodeVersion_reads version
      have counted : (UInt64.ofNat versions.length).toNat = versions.length := by
        simpa using Nat.mod_eq_of_lt writable
      have entries := Reads.times each
      rw [List.length_map, ← counted] at entries
      rw [encodeRefuseReason, List.append_assoc, List.append_assoc]
      refine (decodeArrayHeader_reads 2).bind ((decodeU64_reads 0).bind ?_)
      exact (decodeArrayHeader_reads _).bind (entries.last (Reads.pure _))
  | handshakeDecodeError version reason =>
      rw [encodeRefuseReason, List.append_assoc, List.append_assoc]
      refine (decodeArrayHeader_reads 3).bind ((decodeU64_reads 1).bind ?_)
      exact (decodeVersion_reads version).bind
        ((decodeText_reads _ reason writable).last (Reads.pure _))
  | refused version reason =>
      rw [encodeRefuseReason, List.append_assoc, List.append_assoc]
      refine (decodeArrayHeader_reads 3).bind ((decodeU64_reads 2).bind ?_)
      exact (decodeVersion_reads version).bind
        ((decodeText_reads _ reason writable).last (Reads.pure _))

theorem decodeMessage_encode_reads {message : HandshakeMessage} (writable : Writable message) :
    Reads decodeMessage (encodeHandshakeMessage message) message := by
  cases message with
  | proposeVersions table =>
      exact decodeMessage_reads (by decide)
        ((decodeVersionTable_reads writable.1 writable.2).last (Reads.pure _))
  | acceptVersion version params =>
      rw [encodeHandshakeMessage, List.append_assoc]
      exact decodeMessage_reads (by decide)
        ((decodeVersion_reads version).bind ((decodeParams_reads writable).last (Reads.pure _)))
  | refuse reason =>
      exact decodeMessage_reads (by decide)
        ((decodeRefuseReason_reads writable).last (Reads.pure _))
  | queryReply table =>
      exact decodeMessage_reads (by decide)
        ((decodeVersionTable_reads writable.1 writable.2).last (Reads.pure _))

theorem decodeHandshakeMessage_encode {message : HandshakeMessage} (writable : Writable message) :
    decodeHandshakeMessage (encodeHandshakeMessage message) = .ok message := by
  refine decodeHandshakeMessage_of_reads ?_ (decodeMessage_encode_reads writable)
  cases message <;> simp [encodeHandshakeMessage, encodeArrayHeader_ne_nil]

end Ade.Proof.Network
