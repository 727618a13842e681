import Mathlib

/-! # Big-endian numbers and length-prefixed frames -/

namespace Ade.Library

def fromBeBytes (bytes : List UInt8) : Nat :=
  bytes.foldl (fun number byte => number * 256 + byte.toNat) 0

/-- The `width` low bytes of a number, most significant first. -/
def toBeBytes : Nat → Nat → List UInt8
  | 0, _ => []
  | width + 1, number => toBeBytes width (number / 256) ++ [UInt8.ofNat number]

@[simp] theorem length_toBeBytes (width number : Nat) : (toBeBytes width number).length = width := by
  induction width generalizing number with
  | zero => rfl
  | succ width ih => simp [toBeBytes, ih]

theorem fromBeBytes_concat (bytes : List UInt8) (byte : UInt8) :
    fromBeBytes (bytes ++ [byte]) = fromBeBytes bytes * 256 + byte.toNat := by
  simp [fromBeBytes]

theorem fromBeBytes_toBeBytes (width number : Nat) :
    fromBeBytes (toBeBytes width number) = number % 256 ^ width := by
  induction width generalizing number with
  | zero => simp [toBeBytes, fromBeBytes, Nat.mod_one]
  | succ width ih =>
      rw [toBeBytes, fromBeBytes_concat, ih, Nat.pow_succ']
      have low : (UInt8.ofNat number).toNat = number % 256 := by simp
      rw [low, Nat.mod_mul, Nat.mul_comm, Nat.add_comm]

/-- A payload behind a header of `width` bytes that holds its length. -/
def lengthPrefixed (width : Nat) (payload : List UInt8) : List UInt8 :=
  toBeBytes width payload.length ++ payload

section LengthPrefixed

variable {width : Nat} {payload : List UInt8}

@[simp] theorem length_lengthPrefixed :
    (lengthPrefixed width payload).length = width + payload.length := by
  simp [lengthPrefixed]

theorem fromBeBytes_header (fits : payload.length < 256 ^ width) (rest : List UInt8) :
    fromBeBytes ((lengthPrefixed width payload ++ rest).take width) = payload.length := by
  have header : (lengthPrefixed width payload ++ rest).take width =
      toBeBytes width payload.length := by
    simp [lengthPrefixed, List.append_assoc, List.take_left' (length_toBeBytes ..)]
  rw [header, fromBeBytes_toBeBytes, Nat.mod_eq_of_lt fits]

theorem take_drop_lengthPrefixed (rest : List UInt8) :
    ((lengthPrefixed width payload ++ rest).drop width).take payload.length = payload := by
  simp [lengthPrefixed, List.append_assoc, List.drop_left' (length_toBeBytes ..)]

theorem drop_lengthPrefixed (rest : List UInt8) :
    (lengthPrefixed width payload ++ rest).drop (width + payload.length) = rest :=
  List.drop_left' length_lengthPrefixed

/-- A cut inside a frame keeps the header, when it keeps `width` bytes at all. -/
theorem fromBeBytes_header_take {kept : Nat} (fits : payload.length < 256 ^ width)
    (header : width ≤ kept) :
    fromBeBytes (((lengthPrefixed width payload).take kept).take width) = payload.length := by
  rw [List.take_take, Nat.min_eq_left header]
  simpa using fromBeBytes_header fits []

end LengthPrefixed

end Ade.Library
