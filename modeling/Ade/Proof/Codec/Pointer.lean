import Ade.Codec.Pointer
import Ade.Library.Except
import Ade.Library.Varint

/-! Which tails of a pointer address each era accepts, and what it reads there. -/

namespace Ade.Proof.Codec
open Library Ade.Codec

/-! ## Groups -/

theorem pushGroup_toNat (result : UInt64) (byte : UInt8) :
    (pushGroup result byte).toNat = (result.toNat * 128 + byte.toNat % 128) % 2 ^ 64 := by
  have group : (byte &&& 0x7f).toUInt64.toNat = byte.toNat % 128 := by
    rw [UInt8.toNat_toUInt64, UInt8.toNat_and]
    exact Nat.and_two_pow_sub_one_eq_mod _ 7
  have shifted : (result <<< 7).toNat = 2 ^ 7 * (result.toNat % 2 ^ 57) := by
    rw [UInt64.toNat_shiftLeft, Nat.shiftLeft_eq]
    have seven : (7 : UInt64).toNat % 64 = 7 := rfl
    rw [seven]
    omega
  unfold pushGroup
  rw [UInt64.toNat_or, shifted, group, ← Nat.two_pow_add_eq_or_of_lt (Nat.mod_lt _ (by decide))]
  omega

theorem forall_bytes {holds : UInt8 → Prop} (each : ∀ n : Fin 256, holds (UInt8.ofNat n)) (byte : UInt8) :
    holds byte := by
  have known := each ⟨byte.toNat, byte.toNat_lt⟩
  rwa [UInt8.ofNat_toNat] at known

theorem ends_iff (byte : UInt8) : byte &&& 0x80 = 0 ↔ byte.toNat < 128 := by
  have each : ∀ n : Fin 256, UInt8.ofNat n &&& 0x80 = 0 ↔ (UInt8.ofNat n).toNat < 128 := by
    decide +kernel
  exact @forall_bytes (fun byte => byte &&& 0x80 = 0 ↔ byte.toNat < 128) each byte

/-- A loop over groups has taken a number that continues `start`, and leaves the rest. -/
structure Taken (start value : UInt64) (tail rest groups : Bytes) : Prop where
  split : tail = groups ++ rest
  varint : IsVarint groups
  value : value.toNat = varintFrom start.toNat groups % 2 ^ 64

theorem varintFrom_mod (start : Nat) (groups : Bytes) :
    varintFrom (start % 2 ^ 64) groups % 2 ^ 64 = varintFrom start groups % 2 ^ 64 := by
  rw [varintFrom_eq, varintFrom_eq start, Nat.add_mod, Nat.mod_mul_mod, ← Nat.add_mod]

theorem Taken.last {start : UInt64} {byte : UInt8} {rest : Bytes} (ends : byte.toNat < 128) :
    Taken start (pushGroup start byte) (byte :: rest) rest [byte] :=
  ⟨rfl, .last ends, pushGroup_toNat start byte⟩

theorem Taken.cons_iff {start value : UInt64} {byte : UInt8} {tail rest groups : Bytes}
    (continues : 128 ≤ byte.toNat) :
    Taken start value (byte :: tail) rest (byte :: groups) ↔
      Taken (pushGroup start byte) value tail rest groups := by
  have same : varintFrom (pushGroup start byte).toNat groups % 2 ^ 64 =
      varintFrom start.toNat (byte :: groups) % 2 ^ 64 := by
    rw [pushGroup_toNat, varintFrom_mod, varintFrom_cons]
  constructor
  · rintro ⟨split, varint, read⟩
    refine ⟨List.cons.inj split |>.2, ?_, read.trans same.symm⟩
    cases varint with
    | last ends => omega
    | more _ rest => exact rest
  · rintro ⟨split, varint, read⟩
    exact ⟨congrArg (byte :: ·) split, .more continues varint, read.trans same⟩

/-- A number that a byte starts ends with that byte or goes on after it. -/
theorem taken_cons {start value : UInt64} {byte : UInt8} {tail rest groups : Bytes}
    (taken : Taken start value (byte :: tail) rest groups) :
    (byte.toNat < 128 ∧ groups = [byte] ∧ rest = tail ∧ value = pushGroup start byte) ∨
      (128 ≤ byte.toNat ∧ ∃ more, groups = byte :: more ∧
        Taken (pushGroup start byte) value tail rest more) := by
  cases groups with
  | nil => exact absurd rfl taken.varint.ne_nil
  | cons first more =>
      obtain ⟨rfl, split⟩ := List.cons.inj taken.split
      by_cases ends : byte.toNat < 128
      · left
        cases taken.varint with
        | more continues _ => omega
        | last _ =>
            refine ⟨ends, rfl, split.symm, UInt64.toNat_inj.mp ?_⟩
            rw [taken.value, pushGroup_toNat]
            rfl
      · right
        have continues := Nat.le_of_not_lt ends
        exact ⟨continues, more, rfl, (Taken.cons_iff continues).mp taken⟩

theorem decodeU64Wrapping_iff {start value : UInt64} {tail rest : Bytes} :
    decodeU64Wrapping start tail = .ok (value, rest) ↔
      ∃ groups, Taken start value tail rest groups := by
  induction tail generalizing start with
  | nil =>
      refine iff_of_false (fun ok => nomatch ok) ?_
      rintro ⟨groups, split, varint, -⟩
      exact varint.ne_nil (List.append_eq_nil_iff.mp split.symm).1
  | cons byte tail ih =>
      unfold decodeU64Wrapping
      by_cases ends : byte.toNat < 128
      · rw [if_pos ((ends_iff byte).mpr ends)]
        constructor
        · intro ok
          cases ok
          exact ⟨[byte], .last ends⟩
        · rintro ⟨groups, taken⟩
          rcases taken_cons taken with ⟨-, -, rfl, rfl⟩ | ⟨continues, -⟩
          · rfl
          · omega
      · rw [if_neg fun low => ends ((ends_iff byte).mp low), ih]
        have continues := Nat.le_of_not_lt ends
        constructor
        · rintro ⟨groups, taken⟩
          exact ⟨byte :: groups, (Taken.cons_iff continues).mpr taken⟩
        · rintro ⟨groups, taken⟩
          rcases taken_cons taken with ⟨low, -⟩ | ⟨-, more, -, taken⟩
          · exact absurd low ends
          · exact ⟨more, taken⟩

/-! ## Bounded numbers -/

theorem widthBoundedGroups_iff {maxGroups groups : Nat} {surplusMask first : UInt8}
    {start value : UInt64} {tail rest : Bytes} (room : groups < maxGroups) :
    widthBoundedGroups maxGroups surplusMask first groups start tail = .ok (value, rest) ↔
      ∃ taken, Taken start value tail rest taken ∧ groups + taken.length ≤ maxGroups ∧
        (groups + taken.length = maxGroups → first &&& surplusMask = 0) := by
  induction tail generalizing start groups with
  | nil =>
      refine iff_of_false (fun ok => nomatch ok) ?_
      rintro ⟨taken, ⟨split, varint, -⟩, -⟩
      exact varint.ne_nil (List.append_eq_nil_iff.mp split.symm).1
  | cons byte tail ih =>
      unfold widthBoundedGroups
      by_cases ends : byte.toNat < 128
      · rw [if_pos ((ends_iff byte).mpr ends)]
        constructor
        · intro ok
          split_ifs at ok with wide
          cases ok
          refine ⟨[byte], .last ends, room, fun full => ?_⟩
          by_contra surplus
          exact wide ⟨full, surplus⟩
        · rintro ⟨taken, known, -, narrow⟩
          rcases taken_cons known with ⟨-, rfl, rfl, rfl⟩ | ⟨continues, -⟩
          · rw [if_neg fun wide => wide.2 (narrow wide.1)]
          · omega
      · rw [if_neg fun low => ends ((ends_iff byte).mp low)]
        have continues := Nat.le_of_not_lt ends
        by_cases full : groups + 1 = maxGroups
        · rw [if_pos full]
          refine iff_of_false (fun ok => nomatch ok) ?_
          rintro ⟨taken, known, bounded, -⟩
          rcases taken_cons known with ⟨low, -⟩ | ⟨-, more, rfl, after⟩
          · exact ends low
          · have positive := List.length_pos_iff.mpr after.varint.ne_nil
            rw [List.length_cons] at bounded
            omega
        · rw [if_neg full, ih (by omega)]
          constructor
          · rintro ⟨taken, known, bounded, narrow⟩
            refine ⟨byte :: taken, (Taken.cons_iff continues).mpr known, ?_, ?_⟩ <;>
              rw [List.length_cons, Nat.add_comm taken.length, ← Nat.add_assoc]
            · exact bounded
            · exact narrow
          · rintro ⟨taken, known, bounded, narrow⟩
            rcases taken_cons known with ⟨low, -⟩ | ⟨-, more, rfl, after⟩
            · exact absurd low ends
            · rw [List.length_cons, Nat.add_comm more.length, ← Nat.add_assoc] at bounded narrow
              exact ⟨more, after, bounded, narrow⟩

/-- A field of some bits: its groups, and what the first of them may not set when all are there. -/
structure FieldWidth (width maxGroups msBits : Nat) (surplusMask : UInt8) : Prop where
  positive : 0 < maxGroups
  bits : width = 7 * (maxGroups - 1) + msBits
  within : width ≤ 64
  decodes : ∀ tail, decodeWidthBounded width tail =
    widthBoundedGroups maxGroups surplusMask (tail.headD 0) 0 0 tail
  surplus : ∀ byte : UInt8, byte &&& surplusMask = 0 ↔ byte.toNat % 128 < 2 ^ msBits

theorem slotField : FieldWidth 32 5 4 0x70 where
  positive := by decide
  bits := rfl
  within := by decide
  decodes _ := rfl
  surplus := by
    have each : ∀ n : Fin 256, UInt8.ofNat n &&& 0x70 = 0 ↔ (UInt8.ofNat n).toNat % 128 < 2 ^ 4 := by
      decide +kernel
    exact @forall_bytes (fun byte => byte &&& 0x70 = 0 ↔ byte.toNat % 128 < 2 ^ 4) each

theorem indexField : FieldWidth 16 3 2 0x7c where
  positive := by decide
  bits := rfl
  within := by decide
  decodes _ := rfl
  surplus := by
    have each : ∀ n : Fin 256, UInt8.ofNat n &&& 0x7c = 0 ↔ (UInt8.ofNat n).toNat % 128 < 2 ^ 2 := by
      decide +kernel
    exact @forall_bytes (fun byte => byte &&& 0x7c = 0 ↔ byte.toNat % 128 < 2 ^ 2) each

/-- A number of so many groups that stays below `2 ^ bits`. -/
structure Bounded (bits maxGroups : Nat) (value : UInt64) (tail rest groups : Bytes) : Prop where
  split : tail = groups ++ rest
  varint : IsVarint groups
  short : groups.length ≤ maxGroups
  below : varintValue groups < 2 ^ bits
  value : value.toNat = varintValue groups

theorem decodeWidthBounded_iff {bits maxGroups msBits : Nat} {surplusMask : UInt8}
    (field : FieldWidth bits maxGroups msBits surplusMask) {value : UInt64} {tail rest : Bytes} :
    decodeWidthBounded bits tail = .ok (value, rest) ↔
      ∃ groups, Bounded bits maxGroups value tail rest groups := by
  have zero : (0 : UInt64).toNat = 0 := rfl
  rw [field.decodes, widthBoundedGroups_iff field.positive]
  have below_iff : ∀ first : UInt8, ∀ groups : Bytes, groups.length + 1 ≤ maxGroups →
      (varintValue (first :: groups) < 2 ^ bits ↔
        (0 + (groups.length + 1) = maxGroups → first &&& surplusMask = 0)) := by
    intro first groups short
    have seven : ∀ n, (2 : Nat) ^ (7 * n) = 128 ^ n := fun n => by rw [Nat.pow_mul]
    by_cases full : groups.length + 1 = maxGroups
    · have positions : maxGroups - 1 = groups.length := by omega
      rw [field.bits, positions, Nat.pow_add, seven, Nat.mul_comm, varintValue_cons_lt,
        ← field.surplus]
      simp [full]
    · refine iff_of_true ?_ (fun same => absurd (by omega) full)
      calc varintValue (first :: groups) < 128 ^ (groups.length + 1) := varintValue_lt (first :: groups)
        _ = 2 ^ (7 * (groups.length + 1)) := (seven _).symm
        _ ≤ 2 ^ bits := Nat.pow_le_pow_right (by decide) (by rw [field.bits]; omega)
  constructor
  · rintro ⟨groups, ⟨split, varint, read⟩, short, narrow⟩
    rw [zero, ← varintValue] at read
    cases groups with
    | nil => exact absurd rfl varint.ne_nil
    | cons first groups =>
        rw [split, List.cons_append, List.headD_cons, List.length_cons] at narrow
        have below := (below_iff first groups (by simpa using short)).mpr narrow
        refine ⟨first :: groups, split, varint, by omega, below, ?_⟩
        rw [read, Nat.mod_eq_of_lt (below.trans_le (Nat.pow_le_pow_right (by decide) field.within))]
  · rintro ⟨groups, split, varint, short, below, read⟩
    cases groups with
    | nil => exact absurd rfl varint.ne_nil
    | cons first groups =>
        refine ⟨first :: groups, ⟨split, varint, ?_⟩, by omega, ?_⟩
        · rw [read, zero, ← varintValue,
            Nat.mod_eq_of_lt (below.trans_le (Nat.pow_le_pow_right (by decide) field.within))]
        · rw [split, List.cons_append, List.headD_cons, List.length_cons]
          exact (below_iff first groups short).mp below

/-! ## Tails -/

/-- The tail starts with three numbers; `rest` follows them. -/
structure ThreeVarints (tail slot tx cert rest : Bytes) : Prop where
  split : tail = slot ++ (tx ++ (cert ++ rest))
  slot : IsVarint slot
  tx : IsVarint tx
  cert : IsVarint cert

/-- Numbers of at most 5, 3 and 3 groups that fit the fields of a pointer. -/
structure InWidth (slot tx cert : Bytes) : Prop where
  slotGroups : slot.length ≤ 5
  txGroups : tx.length ≤ 3
  certGroups : cert.length ≤ 3
  slot : varintValue slot < 2 ^ 32
  tx : varintValue tx < 2 ^ 16
  cert : varintValue cert < 2 ^ 16

def pointerOf (slot tx cert : Bytes) : Ptr :=
  ⟨UInt32.ofNat (varintValue slot), UInt16.ofNat (varintValue tx), UInt16.ofNat (varintValue cert)⟩

theorem toNat_ofNat_of_bits {n bits : Nat} (below : n < 2 ^ bits) (small : bits ≤ 64) :
    (UInt64.ofNat n).toNat = n :=
  UInt64.toNat_ofNat_of_lt' (below.trans_le (Nat.pow_le_pow_right (by decide) small))

/-- Numbers within their widths survive the casts. -/
theorem pointerOf_eq {slot tx cert : Bytes} (inWidth : InWidth slot tx cert) :
    pointerOf slot tx cert = ⟨(UInt64.ofNat (varintValue slot)).toUInt32,
      (UInt64.ofNat (varintValue tx)).toUInt16, (UInt64.ofNat (varintValue cert)).toUInt16⟩ := by
  unfold pointerOf
  congr 1
  · rw [UInt64.toUInt32, toNat_ofNat_of_bits inWidth.slot (by decide)]
  · rw [UInt64.toUInt16, toNat_ofNat_of_bits inWidth.tx (by decide)]
  · rw [UInt64.toUInt16, toNat_ofNat_of_bits inWidth.cert (by decide)]

theorem decodePointerStrict_iff {tail : Bytes} {p : Ptr} :
    decodePointerStrict tail = .ok p ↔ ∃ slot tx cert,
      ThreeVarints tail slot tx cert [] ∧ InWidth slot tx cert ∧ p = pointerOf slot tx cert := by
  unfold decodePointerStrict
  constructor
  · intro ok
    obtain ⟨⟨slot, tail1⟩, slotRead, ok⟩ := bind_ok ok
    obtain ⟨⟨tx, tail2⟩, txRead, ok⟩ := bind_ok ok
    obtain ⟨⟨cert, tail3⟩, certRead, ok⟩ := bind_ok ok
    dsimp only at txRead certRead ok
    obtain ⟨slotGroups, slotBounded⟩ := (decodeWidthBounded_iff slotField).mp slotRead
    obtain ⟨txGroups, txBounded⟩ := (decodeWidthBounded_iff indexField).mp txRead
    obtain ⟨certGroups, certBounded⟩ := (decodeWidthBounded_iff indexField).mp certRead
    split_ifs at ok with trailing
    · cases ok
    cases ok
    refine ⟨slotGroups, txGroups, certGroups, ⟨?_, slotBounded.varint, txBounded.varint,
      certBounded.varint⟩, ⟨slotBounded.short, txBounded.short, certBounded.short, slotBounded.below,
      txBounded.below, certBounded.below⟩, ?_⟩
    · rw [slotBounded.split, txBounded.split, certBounded.split, not_not.mp trailing]
    · rw [pointerOf, ← slotBounded.value, ← txBounded.value, ← certBounded.value]
      rfl
  · rintro ⟨slot, tx, cert, ⟨rfl, slotVarint, txVarint, certVarint⟩, inWidth, rfl⟩
    have slotRead : decodeWidthBounded 32 (slot ++ (tx ++ (cert ++ []))) =
        .ok (UInt64.ofNat (varintValue slot), tx ++ (cert ++ [])) :=
      (decodeWidthBounded_iff slotField).mpr ⟨slot, rfl, slotVarint, inWidth.slotGroups, inWidth.slot,
        toNat_ofNat_of_bits inWidth.slot (by decide)⟩
    have txRead : decodeWidthBounded 16 (tx ++ (cert ++ [])) =
        .ok (UInt64.ofNat (varintValue tx), cert ++ []) :=
      (decodeWidthBounded_iff indexField).mpr ⟨tx, rfl, txVarint, inWidth.txGroups, inWidth.tx,
        toNat_ofNat_of_bits inWidth.tx (by decide)⟩
    have certRead : decodeWidthBounded 16 (cert ++ []) =
        .ok (UInt64.ofNat (varintValue cert), []) :=
      (decodeWidthBounded_iff indexField).mpr ⟨cert, rfl, certVarint, inWidth.certGroups, inWidth.cert,
        toNat_ofNat_of_bits inWidth.cert (by decide)⟩
    rw [slotRead]
    show (decodeWidthBounded 16 (tx ++ (cert ++ [])) >>= fun _ => _) = _
    rw [txRead]
    show (decodeWidthBounded 16 (cert ++ []) >>= fun _ => _) = _
    rw [certRead]
    rw [pointerOf_eq inWidth]
    rfl

/-! ### Earlier eras -/

/-- What the eras before Conway make of three numbers, of any width. -/
def normalizedPointer (slot tx cert : Bytes) : Ptr :=
  normalizePtr (UInt64.ofNat (varintValue slot)) (UInt64.ofNat (varintValue tx))
    (UInt64.ofNat (varintValue cert))

theorem decodeU64Wrapping_ok {groups : Bytes} (varint : IsVarint groups) (rest : Bytes) :
    decodeU64Wrapping 0 (groups ++ rest) = .ok (UInt64.ofNat (varintValue groups), rest) :=
  decodeU64Wrapping_iff.mpr ⟨groups, rfl, varint, by rw [UInt64.toNat_ofNat']; rfl⟩

theorem decodePointerNormalized_iff {tail : Bytes} {era : CardanoEra} {p : Ptr} :
    decodePointerNormalized tail era = .ok p ↔ ∃ slot tx cert rest,
      ThreeVarints tail slot tx cert rest ∧ (rest = [] ∨ era.asU64 < CardanoEra.babbage.asU64) ∧
        p = normalizedPointer slot tx cert := by
  unfold decodePointerNormalized
  constructor
  · intro ok
    obtain ⟨⟨slot, tail1⟩, slotRead, ok⟩ := bind_ok ok
    obtain ⟨⟨tx, tail2⟩, txRead, ok⟩ := bind_ok ok
    obtain ⟨⟨cert, tail3⟩, certRead, ok⟩ := bind_ok ok
    dsimp only at txRead certRead ok
    obtain ⟨slotGroups, slotTaken⟩ := decodeU64Wrapping_iff.mp slotRead
    obtain ⟨txGroups, txTaken⟩ := decodeU64Wrapping_iff.mp txRead
    obtain ⟨certGroups, certTaken⟩ := decodeU64Wrapping_iff.mp certRead
    have read : ∀ {value : UInt64} {tail rest groups : Bytes}, Taken 0 value tail rest groups →
        value = UInt64.ofNat (varintValue groups) := by
      intro value tail rest groups taken
      apply UInt64.toNat_inj.mp
      rw [taken.value, UInt64.toNat_ofNat']
      rfl
    split_ifs at ok with trailing
    · cases ok
    cases ok
    refine ⟨slotGroups, txGroups, certGroups, tail3, ⟨?_, slotTaken.varint, txTaken.varint,
      certTaken.varint⟩, ?_, ?_⟩
    · rw [slotTaken.split, txTaken.split, certTaken.split]
    · by_contra! both
      exact trailing ⟨both.1, UInt64.not_lt.mp both.2⟩
    · rw [read slotTaken, read txTaken, read certTaken]
      rfl
  · rintro ⟨slot, tx, cert, rest, ⟨rfl, slotVarint, txVarint, certVarint⟩, cropped, rfl⟩
    rw [decodeU64Wrapping_ok slotVarint]
    show (decodeU64Wrapping 0 (tx ++ (cert ++ rest)) >>= fun _ => _) = _
    rw [decodeU64Wrapping_ok txVarint]
    show (decodeU64Wrapping 0 (cert ++ rest) >>= fun _ => _) = _
    rw [decodeU64Wrapping_ok certVarint]
    have kept : ¬ (rest ≠ [] ∧ era.asU64 ≥ CardanoEra.babbage.asU64) := by
      rintro ⟨trailing, late⟩
      rcases cropped with none | early
      · exact trailing none
      · exact absurd late (UInt64.not_le.mpr early)
    exact if_neg kept

theorem decodeU64Wrapping_raises (start : UInt64) (tail : Bytes) :
    Raises (· = .truncatedVarint) (decodeU64Wrapping start tail) := by
  induction tail generalizing start with
  | nil => exact .error rfl
  | cons byte tail ih =>
      unfold decodeU64Wrapping
      split_ifs
      · exact .ok _
      · exact ih _

theorem decodePointerNormalized_raises (tail : Bytes) (era : CardanoEra) :
    Raises (· ≠ .overWidth) (decodePointerNormalized tail era) := by
  have number : ∀ tail, Raises (· ≠ .overWidth) (decodeU64Wrapping 0 tail) := by
    intro tail failure failed wide
    rw [wide] at failed
    cases decodeU64Wrapping_raises 0 tail _ failed
  refine .bind (number tail) fun slot => .bind (number slot.2) fun tx => .bind (number tx.2)
    fun ⟨cert, rest⟩ => ?_
  dsimp only
  split_ifs
  · exact .error (by decide)
  · exact .ok _

/-! ## The eras -/

def acceptedBy (era : CardanoEra) : Set (Bytes × Ptr) :=
  { read | decodePointerTail read.1 era = .ok read.2 }

theorem decodePointerTail_earlier {era : CardanoEra}
    (earlier : era.asU64 < CardanoEra.conway.asU64) (tail : Bytes) :
    decodePointerTail tail era = decodePointerNormalized tail era :=
  if_neg (UInt64.not_le.mpr earlier)

theorem normalized_of_strict {tail : Bytes} {p : Ptr} (era : CardanoEra)
    (ok : decodePointerStrict tail = .ok p) : decodePointerNormalized tail era = .ok p := by
  obtain ⟨slot, tx, cert, three, inWidth, rfl⟩ := decodePointerStrict_iff.mp ok
  refine decodePointerNormalized_iff.mpr ⟨slot, tx, cert, [], three, .inl rfl, ?_⟩
  have slotBelow := inWidth.slot
  have txBelow := inWidth.tx
  have certBelow := inWidth.cert
  rw [pointerOf_eq inWidth, normalizedPointer, normalizePtr, if_pos]
  rw [toNat_ofNat_of_bits slotBelow (by decide), toNat_ofNat_of_bits txBelow (by decide),
    toNat_ofNat_of_bits certBelow (by decide)]
  omega

/-- Conway takes three numbers within their widths and nothing else; every earlier era reads them the
same way, and takes three numbers of any width, before Babbage whatever follows them. -/
theorem pointer_tails (era : CardanoEra) (earlier : era.asU64 < CardanoEra.conway.asU64) :
    (∀ tail p, decodePointerTail tail .conway = .ok p ↔ ∃ slot tx cert,
      ThreeVarints tail slot tx cert [] ∧ InWidth slot tx cert ∧ p = pointerOf slot tx cert) ∧
    acceptedBy .conway ⊆ acceptedBy era ∧
    (∀ tail, (∃ p, decodePointerTail tail era = .ok p) ↔ ∃ slot tx cert rest,
      ThreeVarints tail slot tx cert rest ∧
        (rest = [] ∨ era.asU64 < CardanoEra.babbage.asU64)) ∧
    ∀ tail, decodePointerTail tail era ≠ .error .overWidth := by
  refine ⟨fun tail p => decodePointerStrict_iff, ?_, ?_, ?_⟩
  · rintro ⟨tail, p⟩ accepted
    exact (decodePointerTail_earlier earlier tail).trans (normalized_of_strict era accepted)
  · intro tail
    rw [decodePointerTail_earlier earlier]
    simp only [decodePointerNormalized_iff]
    constructor
    · rintro ⟨p, slot, tx, cert, rest, three, cropped, -⟩
      exact ⟨slot, tx, cert, rest, three, cropped⟩
    · rintro ⟨slot, tx, cert, rest, three, cropped⟩
      exact ⟨_, slot, tx, cert, rest, three, cropped, rfl⟩
  · intro tail wide
    rw [decodePointerTail_earlier earlier] at wide
    exact decodePointerNormalized_raises tail era _ wide rfl

theorem pointer_tails_of_babbage :
    acceptedBy .conway ⊆ acceptedBy .babbage ∧
      ∀ tail, (∃ p, decodePointerTail tail .babbage = .ok p) ↔ ∃ slot tx cert rest,
        ThreeVarints tail slot tx cert rest ∧
          (rest = [] ∨ CardanoEra.babbage.asU64 < CardanoEra.babbage.asU64) :=
  ⟨(pointer_tails .babbage (by decide)).2.1, (pointer_tails .babbage (by decide)).2.2.1⟩

end Ade.Proof.Codec
