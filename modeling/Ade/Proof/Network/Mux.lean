import Ade.Network.Mux

/-! Frames are read back as they were written, whatever follows them. -/

namespace Ade.Proof.Network
open Library Ade.Network

/-! ## Headers -/

theorem fromBeBytes_word (word : UInt16) :
    UInt16.ofNat (fromBeBytes (toBeBytes 2 word.toNat)) = word := by
  rw [fromBeBytes_toBeBytes, show 256 ^ 2 = 2 ^ 16 from rfl, Nat.mod_eq_of_lt word.toNat_lt,
    UInt16.ofNat_toNat]

theorem fromBeBytes_timestamp (timestamp : UInt32) :
    UInt32.ofNat (fromBeBytes (toBeBytes 4 timestamp.toNat)) = timestamp := by
  rw [fromBeBytes_toBeBytes, show 256 ^ 4 = 2 ^ 32 from rfl,
    Nat.mod_eq_of_lt timestamp.toNat_lt, UInt32.ofNat_toNat]

@[simp] theorem length_encodeHeader (header : MuxHeader) : (encodeHeader header).length = headerLen := by
  simp [encodeHeader, headerLen]

section
variable (header : MuxHeader)

theorem toNat_masked : (header.miniProtocolId.get &&& idMask).toNat = header.miniProtocolId.get.toNat := by
  have small : header.miniProtocolId.get.toNat ≤ 2 ^ 15 - 1 :=
    UInt16.le_iff_toNat_le.mp header.miniProtocolId.small
  rw [UInt16.toNat_and, show idMask.toNat = 2 ^ 15 - 1 from rfl, Nat.and_two_pow_sub_one_eq_mod]
  exact Nat.mod_eq_of_lt (by omega)

theorem toNat_idWord : (idWord header).toNat =
    (if header.mode = .responder then 2 ^ 15 else 0) + header.miniProtocolId.get.toNat := by
  have small : header.miniProtocolId.get.toNat ≤ 2 ^ 15 - 1 :=
    UInt16.le_iff_toNat_le.mp header.miniProtocolId.small
  rw [idWord, UInt16.toNat_or, toNat_masked]
  cases header.mode with
  | initiator => simp [MuxMode.bit]
  | responder =>
      have disjoint := Nat.two_pow_add_eq_or_of_lt (i := 15)
        (b := header.miniProtocolId.get.toNat) (by omega) 1
      rw [Nat.mul_one] at disjoint
      rw [if_pos rfl, disjoint]
      rfl

theorem idWord_mask : idWord header &&& idMask = header.miniProtocolId.get := by
  have small : header.miniProtocolId.get.toNat ≤ 2 ^ 15 - 1 :=
    UInt16.le_iff_toNat_le.mp header.miniProtocolId.small
  apply UInt16.toNat_inj.mp
  rw [UInt16.toNat_and, toNat_idWord, show idMask.toNat = 2 ^ 15 - 1 from rfl,
    Nat.and_two_pow_sub_one_eq_mod]
  split <;> omega

theorem idWord_mode : (if idWord header &&& modeBit ≠ 0 then MuxMode.responder else .initiator) =
    header.mode := by
  have small : header.miniProtocolId.get.toNat ≤ 2 ^ 15 - 1 :=
    UInt16.le_iff_toNat_le.mp header.miniProtocolId.small
  have masked : (idWord header &&& modeBit).toNat = ((idWord header).toNat.testBit 15).toNat * 2 ^ 15 := by
    rw [UInt16.toNat_and, show modeBit.toNat = 2 ^ 15 from rfl, Nat.and_two_pow]
  have bit := Nat.testBit_eq_decide_div_mod_eq (x := (idWord header).toNat) (i := 15)
  rw [toNat_idWord] at bit masked
  cases mode : header.mode with
  | initiator =>
      simp only [mode, reduceCtorEq, if_false, Nat.zero_add] at bit masked
      have clear_ : header.miniProtocolId.get.toNat / 2 ^ 15 % 2 = 0 := by omega
      rw [clear_] at bit
      rw [bit] at masked
      have zero : idWord header &&& modeBit = 0 := UInt16.toNat_inj.mp masked
      simp [zero]
  | responder =>
      simp only [mode, if_true] at bit masked
      have set_ : (2 ^ 15 + header.miniProtocolId.get.toNat) / 2 ^ 15 % 2 = 1 := by omega
      rw [set_] at bit
      rw [bit] at masked
      have nonzero : idWord header &&& modeBit ≠ 0 := by
        intro zero
        rw [zero] at masked
        cases masked
      simp [nonzero]

theorem decodeHeader_encode (rest : Bytes) : decodeHeader (encodeHeader header ++ rest) = header := by
  have word : ((encodeHeader header ++ rest).drop 4).take 2 = toBeBytes 2 (idWord header).toNat := by
    simp [encodeHeader]
  have length : ((encodeHeader header ++ rest).drop 6).take 2 =
      toBeBytes 2 header.length.toNat := by
    have before : (toBeBytes 4 header.timestamp.toNat ++ toBeBytes 2 (idWord header).toNat).length = 6 := by
      simp
    rw [encodeHeader, List.append_assoc, List.drop_left' before]
    simp
  have timestamp : (encodeHeader header ++ rest).take 4 = toBeBytes 4 header.timestamp.toNat := by
    simp [encodeHeader]
  unfold decodeHeader
  rw [word, length, timestamp, fromBeBytes_word, fromBeBytes_word, fromBeBytes_timestamp]
  simp only [idWord_mask, idWord_mode]

end

theorem decodeHeader_append {bytes : Bytes} (enough : headerLen ≤ bytes.length) (more : Bytes) :
    decodeHeader (bytes ++ more) = decodeHeader bytes := by
  have inside : ∀ first count, first + count ≤ headerLen →
      ((bytes ++ more).drop first).take count = (bytes.drop first).take count := by
    intro first count within
    rw [List.drop_append_of_le_length (by omega),
      List.take_append_of_le_length (by rw [List.length_drop]; omega)]
  have start := inside 0 4 (by decide)
  rw [List.drop_zero, List.drop_zero] at start
  unfold decodeHeader
  rw [start, inside 4 2 (by decide), inside 6 2 (by decide)]

/-! ## Frames -/

theorem encodeFrame_eq (frame : MuxFrame)
    (sized : frame.header.length.toNat = frame.payload.length) :
    encodeFrame frame = .ok (encodeHeader frame.header ++ frame.payload) := by
  have fits : ¬ frame.payload.length > maxPayload := by
    have bound := frame.header.length.toNat_lt
    unfold maxPayload
    omega
  rw [encodeFrame, if_neg fits, if_neg (not_not.mpr sized)]

theorem decodeFrame_eq {bytes : Bytes} (enough : headerLen ≤ bytes.length)
    (whole : headerLen + (decodeHeader bytes).length.toNat ≤ bytes.length) :
    decodeFrame bytes = .ok (⟨decodeHeader bytes,
      (bytes.drop headerLen).take (decodeHeader bytes).length.toNat⟩,
        bytes.drop (headerLen + (decodeHeader bytes).length.toNat)) := by
  rw [decodeFrame, if_neg (Nat.not_lt.mpr enough)]
  dsimp only
  rw [if_neg (Nat.not_lt.mpr whole)]

theorem decodeFrame_ok {bytes rest : Bytes} {frame : MuxFrame}
    (ok : decodeFrame bytes = .ok (frame, rest)) :
    headerLen ≤ bytes.length ∧ headerLen + (decodeHeader bytes).length.toNat ≤ bytes.length ∧
      frame = ⟨decodeHeader bytes, (bytes.drop headerLen).take (decodeHeader bytes).length.toNat⟩ ∧
      rest = bytes.drop (headerLen + (decodeHeader bytes).length.toNat) := by
  unfold decodeFrame at ok
  by_cases short : bytes.length < headerLen
  · rw [if_pos short] at ok
    cases ok
  · rw [if_neg short] at ok
    dsimp only at ok
    by_cases cut : bytes.length < headerLen + (decodeHeader bytes).length.toNat
    · rw [if_pos cut] at ok
      cases ok
    · rw [if_neg cut] at ok
      cases ok
      exact ⟨Nat.not_lt.mp short, Nat.not_lt.mp cut, rfl, rfl⟩

theorem decodeFrame_append {bytes rest : Bytes} {frame : MuxFrame}
    (ok : decodeFrame bytes = .ok (frame, rest)) (more : Bytes) :
    decodeFrame (bytes ++ more) = .ok (frame, rest ++ more) := by
  obtain ⟨enough, whole, rfl, rfl⟩ := decodeFrame_ok ok
  have same := decodeHeader_append enough more
  rw [decodeFrame_eq (by rw [List.length_append]; omega)
    (by rw [same, List.length_append]; omega), same,
    List.drop_append_of_le_length enough, List.drop_append_of_le_length whole,
    List.take_append_of_le_length (by rw [List.length_drop]; omega)]

theorem decodeFrame_encode (frame : MuxFrame)
    (sized : frame.header.length.toNat = frame.payload.length) (rest : Bytes) :
    decodeFrame (encodeHeader frame.header ++ frame.payload ++ rest) = .ok (frame, rest) := by
  have header := decodeHeader_encode frame.header (frame.payload ++ rest)
  rw [← List.append_assoc] at header
  have length := length_encodeHeader frame.header
  rw [decodeFrame_eq (by simp only [List.length_append]; omega)
    (by rw [header]; simp only [List.length_append]; omega), header, sized]
  rw [List.append_assoc, List.drop_left' length, List.take_left, ← List.append_assoc,
    List.drop_left' (by rw [List.length_append, length])]

end Ade.Proof.Network
