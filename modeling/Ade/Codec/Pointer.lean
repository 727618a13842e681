import Ade.Types

/-! The three coordinates at the end of a pointer address. -/

namespace Ade.Codec

structure Ptr where
  slot : UInt32
  txIndex : UInt16
  certIndex : UInt16
deriving DecidableEq, Repr

inductive PointerDecodeError where
  | notAPointerAddress | tooShort | truncatedVarint | overWidth | trailingBytes
deriving DecidableEq, Repr

/-- The groups shift left; bits past the 64th are dropped. -/
def pushGroup (result : UInt64) (byte : UInt8) : UInt64 :=
  (result <<< 7) ||| (byte &&& 0x7f).toUInt64

/-- `first` is the byte that the number starts with, `groups` how many have been read. -/
def widthBoundedGroups (maxGroups : Nat) (surplusMask first : UInt8) :
    (groups : Nat) → UInt64 → Bytes → Except PointerDecodeError (UInt64 × Bytes)
  | _, _, [] => .error .truncatedVarint
  | groups, result, byte :: rest =>
      if byte &&& 0x80 = 0 then
        if groups + 1 = maxGroups ∧ first &&& surplusMask ≠ 0 then .error .overWidth
        else .ok (pushGroup result byte, rest)
      else if groups + 1 = maxGroups then .error .overWidth
      else widthBoundedGroups maxGroups surplusMask first (groups + 1) (pushGroup result byte) rest

/-- The coordinate, and what follows it. -/
def decodeWidthBounded (bits : Nat) (tail : Bytes) : Except PointerDecodeError (UInt64 × Bytes) :=
  let maxGroups := (bits + 6) / 7
  let msBits := bits - 7 * (maxGroups - 1)
  let allowed := (((1 : UInt16) <<< UInt16.ofNat msBits) - 1).toUInt8
  widthBoundedGroups maxGroups (0x7f &&& ~~~allowed) (tail.headD 0) 0 0 tail

def decodePointerStrict (tail : Bytes) : Except PointerDecodeError Ptr := do
  let (slot, tail) ← decodeWidthBounded 32 tail
  let (tx, tail) ← decodeWidthBounded 16 tail
  let (cert, tail) ← decodeWidthBounded 16 tail
  if tail ≠ [] then throw .trailingBytes
  return ⟨slot.toUInt32, tx.toUInt16, cert.toUInt16⟩

def decodeU64Wrapping (result : UInt64) : Bytes → Except PointerDecodeError (UInt64 × Bytes)
  | [] => .error .truncatedVarint
  | byte :: rest =>
      if byte &&& 0x80 = 0 then .ok (pushGroup result byte, rest)
      else decodeU64Wrapping (pushGroup result byte) rest

/-- One coordinate that is too wide clears all three. -/
def normalizePtr (slot tx cert : UInt64) : Ptr :=
  if slot.toNat ≤ 0xffffffff ∧ tx.toNat ≤ 0xffff ∧ cert.toNat ≤ 0xffff then
    ⟨slot.toUInt32, tx.toUInt16, cert.toUInt16⟩
  else ⟨0, 0, 0⟩

def decodePointerNormalized (tail : Bytes) (era : CardanoEra) : Except PointerDecodeError Ptr := do
  let (slot, tail) ← decodeU64Wrapping 0 tail
  let (tx, tail) ← decodeU64Wrapping 0 tail
  let (cert, tail) ← decodeU64Wrapping 0 tail
  if tail ≠ [] ∧ era.asU64 ≥ CardanoEra.babbage.asU64 then throw .trailingBytes
  return normalizePtr slot tx cert

def decodePointerTail (tail : Bytes) (era : CardanoEra) : Except PointerDecodeError Ptr :=
  if era.asU64 ≥ CardanoEra.conway.asU64 then decodePointerStrict tail
  else decodePointerNormalized tail era

/-- A header byte of type 4 or 5, a payment credential, and the coordinates. -/
def decodePointerAddress (address : Bytes) (era : CardanoEra) : Except PointerDecodeError Ptr :=
  match address with
  | [] => .error .tooShort
  | header :: _ =>
      if header.toNat / 16 ≠ 4 ∧ header.toNat / 16 ≠ 5 then .error .notAPointerAddress
      else if address.length < 29 then .error .tooShort
      else decodePointerTail (address.drop 29) era

end Ade.Codec
