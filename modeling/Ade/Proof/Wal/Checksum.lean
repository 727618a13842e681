import Ade.Library.ShiftRegister
import Ade.Proof.Wal.FileStore

/-! The checksum of sealed files: a shift register over the bits of the file. -/

namespace Ade.Proof.Wal
open Library ShiftRegister Ade.Wal

def castagnoli : BitVec 32 := 0x82F63B78#32

/-- The bits in the order in which the loop takes them. -/
def bitsOfByte (byte : UInt8) : List Bool := (List.range 8).map byte.toBitVec.getLsbD

def bitsOf (bytes : Bytes) : List Bool := bytes.flatMap bitsOfByte

theorem castagnoli_top : castagnoli.getLsbD (32 - 1) = true := by decide

/-! ## One bit, one byte, all bytes -/

theorem lowest_set_iff (word : UInt32) : word &&& 1 ≠ 0 ↔ word.toBitVec.getLsbD 0 = true := by
  have masked : (word &&& 1).toBitVec =
      BitVec.setWidth 32 (BitVec.ofBool (word.toBitVec.getLsbD 0)) := by
    rw [UInt32.toBitVec_and]
    exact BitVec.and_one_eq_setWidth_ofBool_getLsbD
  rw [← UInt32.toBitVec_inj.ne, masked]
  cases word.toBitVec.getLsbD 0 <;> decide

theorem crcBit_feed (crc byte : UInt32) :
    (crcBit (crc, byte)).1.toBitVec = feed castagnoli crc.toBitVec (byte.toBitVec.getLsbD 0) := by
  have lowest : (crc.toBitVec.getLsbD 0 ^^ byte.toBitVec.getLsbD 0) =
      (crc ^^^ byte).toBitVec.getLsbD 0 := by
    rw [UInt32.toBitVec_xor, BitVec.getLsbD_xor]
  rw [feed_eq (by decide), lowest, crcBit]
  dsimp only
  by_cases odd : (crc ^^^ byte) &&& 1 ≠ 0
  · rw [if_pos odd, (lowest_set_iff _).mp odd, UInt32.toBitVec_xor, UInt32.toBitVec_shiftRight]
    rfl
  · rw [if_neg odd, Bool.eq_false_iff.mpr fun set_ => odd ((lowest_set_iff _).mpr set_),
      UInt32.toBitVec_shiftRight, feedback, if_neg Bool.false_ne_true, BitVec.xor_zero]
    rfl

/-- After each bit the byte has moved down by one. -/
theorem crcBits_run (count : Nat) (crc byte : UInt32) :
    (crcBit^[count] (crc, byte)).1.toBitVec =
      run castagnoli crc.toBitVec ((List.range count).map byte.toBitVec.getLsbD) := by
  induction count generalizing crc byte with
  | zero => rfl
  | succ count ih =>
      have next : crcBit (crc, byte) = ((crcBit (crc, byte)).1, byte >>> 1) := rfl
      have shifted : (List.range count).map (byte >>> 1).toBitVec.getLsbD =
          (List.range count).map fun i => byte.toBitVec.getLsbD (i + 1) := by
        apply List.map_congr_left
        intro i _
        rw [UInt32.toBitVec_shiftRight]
        show (byte.toBitVec >>> 1).getLsbD i = _
        rw [BitVec.getLsbD_ushiftRight, Nat.add_comm]
      rw [Function.iterate_succ_apply, next, ih, crcBit_feed, shifted, List.range_succ_eq_map,
        List.map_cons, List.map_map]
      rfl

theorem crcByte_run (crc : UInt32) (byte : UInt8) :
    (crcByte crc byte).toBitVec = run castagnoli crc.toBitVec (bitsOfByte byte) := by
  rw [crcByte, crcBits_run]
  rfl

theorem foldl_crcByte_run (bytes : Bytes) (crc : UInt32) :
    (bytes.foldl crcByte crc).toBitVec = run castagnoli crc.toBitVec (bitsOf bytes) := by
  induction bytes generalizing crc with
  | nil => rfl
  | cons byte bytes ih =>
      rw [List.foldl_cons, ih, crcByte_run, bitsOf, bitsOf, List.flatMap_cons, run_append]

theorem crc32c_run (bytes : Bytes) :
    (crc32c bytes).toBitVec =
      run castagnoli (BitVec.allOnes 32) (bitsOf bytes) ^^^ BitVec.allOnes 32 := by
  rw [crc32c, UInt32.toBitVec_xor, foldl_crcByte_run]
  rfl

/-! ## Linearity -/

def xorBytes (a b : Bytes) : Bytes := List.zipWith (· ^^^ ·) a b

theorem bitsOfByte_xor (a b : UInt8) :
    bitsOfByte (a ^^^ b) = List.zipWith xor (bitsOfByte a) (bitsOfByte b) := by
  rw [bitsOfByte, bitsOfByte, bitsOfByte, List.zipWith_map, List.zipWith_self]
  apply List.map_congr_left
  intro i _
  rw [UInt8.toBitVec_xor, BitVec.getLsbD_xor]

theorem length_bitsOfByte (byte : UInt8) : (bitsOfByte byte).length = 8 := by
  rw [bitsOfByte, List.length_map, List.length_range]

theorem length_bitsOf (bytes : Bytes) : (bitsOf bytes).length = 8 * bytes.length := by
  induction bytes with
  | nil => rfl
  | cons byte bytes ih =>
      rw [bitsOf, List.flatMap_cons, List.length_append, length_bitsOfByte, ← bitsOf, ih,
        List.length_cons]
      omega

theorem length_xorBytes {a b : Bytes} (sameLength : a.length = b.length) :
    (xorBytes a b).length = a.length := by
  rw [xorBytes, List.length_zipWith, sameLength, Nat.min_self]

theorem bitsOf_xor {a b : Bytes} (sameLength : a.length = b.length) :
    bitsOf (xorBytes a b) = List.zipWith xor (bitsOf a) (bitsOf b) := by
  induction a generalizing b with
  | nil => rfl
  | cons x a ih =>
      cases b with
      | nil => cases sameLength
      | cons y b =>
          have rest := ih (Nat.succ.inj sameLength)
          have lengths : (bitsOfByte x).length = (bitsOfByte y).length := by
            rw [length_bitsOfByte, length_bitsOfByte]
          rw [xorBytes, List.zipWith_cons_cons, bitsOf, bitsOf, bitsOf, List.flatMap_cons,
            List.flatMap_cons, List.flatMap_cons, List.zipWith_append lengths, bitsOfByte_xor]
          exact congrArg _ rest

theorem crc32c_affine {a b c : Bytes} (sameLength : a.length = b.length)
    (sameLength' : b.length = c.length) :
    crc32c (xorBytes a (xorBytes b c)) = crc32c a ^^^ crc32c b ^^^ crc32c c := by
  have inner := length_xorBytes sameLength'
  have lengths : (bitsOf b).length = (bitsOf c).length := by
    rw [length_bitsOf, length_bitsOf, sameLength']
  have lengths' : (bitsOf a).length = (List.zipWith xor (bitsOf b) (bitsOf c)).length := by
    rw [← bitsOf_xor sameLength', length_bitsOf, length_bitsOf, inner, sameLength]
  have three : BitVec.allOnes 32 =
      BitVec.allOnes 32 ^^^ (BitVec.allOnes 32 ^^^ BitVec.allOnes 32) := by decide
  apply UInt32.toBitVec_inj.mp
  rw [UInt32.toBitVec_xor, UInt32.toBitVec_xor, crc32c_run, crc32c_run, crc32c_run, crc32c_run,
    bitsOf_xor (sameLength.trans inner.symm), bitsOf_xor sameLength']
  nth_rewrite 1 [three]
  rw [run_xor lengths', run_xor lengths]
  nth_rewrite 4 [three]
  ac_rfl

theorem crcBit_injective (byte : UInt32) : Function.Injective fun crc => (crcBit (crc, byte)).1 := by
  intro crc other same
  have fed := congrArg UInt32.toBitVec same
  dsimp only at fed
  rw [crcBit_feed, crcBit_feed] at fed
  exact UInt32.toBitVec_inj.mp (feed_injective castagnoli_top _ fed)

/-! ## Damaged files -/

theorem crc32c_ne_of_burst {body changed : Bytes} (burst : Burst 32 (bitsOf body) (bitsOf changed)) :
    crc32c body ≠ crc32c changed := by
  intro same
  have runs := congrArg UInt32.toBitVec same
  rw [crc32c_run, crc32c_run, BitVec.xor_left_inj] at runs
  exact run_burst castagnoli_top burst _ runs

theorem verifySealedCrc_eq {files : Files} {index : UInt32} {body trailer : Bytes}
    (present : files[index]? = some (body ++ trailer)) (sized : trailer.length = 4) :
    verifySealedCrc files index =
      if (crc32c body).toNat ≠ fromBeBytes trailer then .error (.corruptCrc index) else .ok () := by
  have long : ¬ (body ++ trailer).length < 4 := by
    rw [List.length_append]
    omega
  have bodyLen : (body ++ trailer).length - 4 = body.length := by
    rw [List.length_append]
    omega
  unfold verifySealedCrc readFile
  rw [present]
  show (if (body ++ trailer).length < 4 then _ else _) = _
  rw [if_neg long]
  show (if _ then _ else _) = _
  rw [bodyLen, List.take_left, List.drop_left]
  rfl

/-- The checksum is affine, its step is injective, and a file damaged within 32 consecutive bits of
its data is rejected. -/
theorem sealed_burst_rejected :
    (∀ a b c : Bytes, a.length = b.length → b.length = c.length →
      crc32c (xorBytes a (xorBytes b c)) = crc32c a ^^^ crc32c b ^^^ crc32c c) ∧
    (∀ byte, Function.Injective fun crc => (crcBit (crc, byte)).1) ∧
    ∀ (files damaged : Files) (index : UInt32) (body changed trailer : Bytes),
      files[index]? = some (body ++ trailer) → trailer.length = 4 →
      verifySealedCrc files index = .ok () →
      Burst 32 (bitsOf body) (bitsOf changed) →
      damaged[index]? = some (changed ++ trailer) →
        verifySealedCrc damaged index = .error (.corruptCrc index) := by
  refine ⟨fun a b c => crc32c_affine, crcBit_injective, ?_⟩
  intro files damaged index body changed trailer present sized verified burst replaced
  rw [verifySealedCrc_eq present sized] at verified
  rw [verifySealedCrc_eq replaced sized]
  split_ifs at verified with mismatch
  apply if_pos
  intro same
  apply crc32c_ne_of_burst burst
  exact UInt32.toNat_inj.mp ((not_not.mp mismatch).trans same.symm)

def sampleBody : Bytes := [1, 2, 3, 4, 5, 6]

/-- Four bytes of the data are overwritten. -/
theorem sealed_burst_rejected_sample :
    verifySealedCrc ((∅ : Files).insert 7 (sampleBody ++ crcSuffix sampleBody)) 7 = .ok () ∧
      verifySealedCrc ((∅ : Files).insert 7 ([1, 9, 255, 0, 128, 6] ++ crcSuffix sampleBody)) 7 =
        .error (.corruptCrc 7) := by
  have verified :
      verifySealedCrc ((∅ : Files).insert 7 (sampleBody ++ crcSuffix sampleBody)) 7 = .ok () := by
    decide +kernel
  have burst : Burst 32 (bitsOf sampleBody) (bitsOf [1, 9, 255, 0, 128, 6]) :=
    ⟨bitsOf [1], bitsOf [2, 3, 4, 5], bitsOf [9, 255, 0, 128], bitsOf [6], rfl, rfl, rfl, by decide,
      by decide⟩
  refine ⟨verified, sealed_burst_rejected.2.2 _ _ 7 sampleBody [1, 9, 255, 0, 128, 6]
    (crcSuffix sampleBody) ?_ (length_crcSuffix _) verified burst ?_⟩
  · exact Std.ExtTreeMap.getElem?_insert_self
  · exact Std.ExtTreeMap.getElem?_insert_self

end Ade.Proof.Wal
