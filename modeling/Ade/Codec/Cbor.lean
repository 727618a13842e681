import Ade.Library.Bytes
import Ade.Library.Cursor
import Ade.Types

/-! CBOR reading and writing primitives of `ade_codec`. -/

namespace Ade.Codec
open Library

inductive CodecError where
  | unknownEraTag (tag : UInt8)
  | unknownCertTag (tag : UInt64) (offset : Nat)
  | unexpectedEof (offset needed : Nat)
  | invalidCborStructure (offset : Nat) (detail : String)
  | trailingBytes (consumed total : Nat)
  | unexpectedCborType (offset : Nat) (expected : String) (actual : Nat)
  | invalidLength (offset : Nat) (detail : String)
  | duplicateMapKey (offset : Nat)
deriving DecidableEq, Repr

abbrev Read := Cursor CodecError

def majorUnsigned : Nat := 0
def majorNegative : Nat := 1
def majorBytes : Nat := 2
def majorText : Nat := 3
def majorArray : Nat := 4
def majorMap : Nat := 5
def majorTag : Nat := 6
def majorSimple : Nat := 7

def breakByte : UInt8 := 0xff

/-- How an integer or length argument was encoded on the wire. -/
inductive IntWidth where
  | inline | i8 | i16 | i32 | i64
deriving DecidableEq, Repr

inductive ContainerEncoding where
  | definite (count : UInt64) (width : IntWidth)
  | indefinite
deriving DecidableEq, Repr

/-! ## Reading -/

def peekByte (data : Bytes) (offset : Nat) : Except CodecError UInt8 :=
  match data[offset]? with
  | some byte => .ok byte
  | none => .error (.unexpectedEof offset 1)

def readByte (data : Bytes) : Read UInt8 := do
  let byte ← liftExcept (peekByte data (← get))
  modify (· + 1)
  return byte

/-- The major type is the top three bits of the initial byte, the additional info the low five. -/
def decodeInitial (data : Bytes) : Read (Nat × Nat) := do
  let byte ← readByte data
  return (byte.toNat / 32, byte.toNat % 32)

/-- A bounds check on the whole argument, then `width` big-endian bytes. -/
def readFixed (data : Bytes) (width : Nat) : Read UInt64 := do
  let offset ← get
  if offset + width > data.length then
    throw (.unexpectedEof offset width)
  set (offset + width)
  return UInt64.ofNat (fromBeBytes ((data.drop offset).take width))

def decodeArgument (data : Bytes) (ai startOffset : Nat) : Read (UInt64 × IntWidth) := do
  if ai ≤ 23 then
    return (UInt64.ofNat ai, .inline)
  else if ai = 24 then
    let byte ← readByte data
    return (UInt64.ofNat byte.toNat, .i8)
  else if ai = 25 then
    return (← readFixed data 2, .i16)
  else if ai = 26 then
    return (← readFixed data 4, .i32)
  else if ai = 27 then
    return (← readFixed data 8, .i64)
  else
    throw (.invalidCborStructure startOffset "reserved additional info value (28-30)")

def peekMajor (data : Bytes) : Read Nat := do
  let byte ← liftExcept (peekByte data (← get))
  return byte.toNat / 32

def isBreak (data : Bytes) : Read Bool := do
  let byte ← liftExcept (peekByte data (← get))
  return byte = breakByte

/-- Unsigned integers and tags: a major type and its argument. -/
def readArgument (major : Nat) (expected : String) (data : Bytes) : Read (UInt64 × IntWidth) := do
  let start ← get
  let (actual, ai) ← decodeInitial data
  if actual ≠ major then
    throw (.unexpectedCborType start expected actual)
  decodeArgument data ai start

def readTag : Bytes → Read (UInt64 × IntWidth) := readArgument majorTag "tag"

def readUint (data : Bytes) : Read (UInt64 × IntWidth) := do
  let start ← get
  let (major, ai) ← decodeInitial data
  if major ≠ majorUnsigned then
    throw (.unexpectedCborType start "unsigned integer" major)
  decodeArgument data ai start

/-- Take the next `len` bytes, or report how many were needed. -/
def readPayload (data : Bytes) (len : Nat) : Read Bytes := do
  let offset ← get
  if offset + len > data.length then
    throw (.unexpectedEof offset len)
  set (offset + len)
  return (data.drop offset).take len

def readBytes (data : Bytes) : Read (Bytes × IntWidth) := do
  let start ← get
  let (major, ai) ← decodeInitial data
  if major ≠ majorBytes then
    throw (.unexpectedCborType start "byte string" major)
  if ai = 31 then
    throw (.invalidCborStructure start "indefinite-length byte string not supported")
  let (len, width) ← decodeArgument data ai start
  return (← readPayload data len.toNat, width)

def readText (data : Bytes) : Read (String × IntWidth) := do
  let start ← get
  let (major, ai) ← decodeInitial data
  if major ≠ majorText then
    throw (.unexpectedCborType start "text string" major)
  if ai = 31 then
    throw (.invalidCborStructure start "indefinite-length text string not supported")
  let (len, width) ← decodeArgument data ai start
  let raw ← readPayload data len.toNat
  match String.fromUTF8? raw.toByteArray with
  | some text => return (text, width)
  | none => throw (.invalidCborStructure start "invalid UTF-8 in text string")

/-- Array and map headers differ in the major type they require and in its name. -/
def readContainerHeader (major : Nat) (expected : String) (data : Bytes) :
    Read ContainerEncoding := do
  let start ← get
  let (actual, ai) ← decodeInitial data
  if actual ≠ major then
    throw (.unexpectedCborType start expected actual)
  if ai = 31 then
    return .indefinite
  let (count, width) ← decodeArgument data ai start
  return .definite count width

def readArrayHeader : Bytes → Read ContainerEncoding := readContainerHeader majorArray "array"

def readMapHeader : Bytes → Read ContainerEncoding := readContainerHeader majorMap "map"

/-- Elements up to a break byte, which is not taken. Every element takes at least a byte, so that
`left` never runs out before the data does. -/
def untilBreak {α : Type} (data : Bytes) (element : Read α) : Nat → Read (List α)
  | 0 => do throw (.unexpectedEof (← get) 1)
  | left + 1 => do
      if ← isBreak data then return []
      else
        let first ← element
        let rest ← untilBreak data element left
        return first :: rest

def readArray {α : Type} (data : Bytes) (element : Read α) : Read (List α) := do
  match ← readArrayHeader data with
  | .definite count _ => Cursor.times element count.toNat
  | .indefinite =>
      let elements ← untilBreak data element data.length
      modify (· + 1)
      return elements

/-! ## Writing -/

def canonicalWidth (value : UInt64) : IntWidth :=
  if value.toNat ≤ 23 then .inline
  else if value.toNat ≤ 0xff then .i8
  else if value.toNat ≤ 0xffff then .i16
  else if value.toNat ≤ 0xffffffff then .i32
  else .i64

def initialByte (major ai : Nat) : UInt8 := UInt8.ofNat (major * 32) ||| UInt8.ofNat ai

def writeArgument (major : Nat) (value : UInt64) : IntWidth → Bytes
  | .inline => [initialByte major value.toNat]
  | .i8 => initialByte major 24 :: toBeBytes 1 value.toNat
  | .i16 => initialByte major 25 :: toBeBytes 2 value.toNat
  | .i32 => initialByte major 26 :: toBeBytes 4 value.toNat
  | .i64 => initialByte major 27 :: toBeBytes 8 value.toNat

def writeUintCanonical (value : UInt64) : Bytes :=
  writeArgument majorUnsigned value (canonicalWidth value)

def writeBytesCanonical (bytes : Bytes) : Bytes :=
  let len := UInt64.ofNat bytes.length
  writeArgument majorBytes len (canonicalWidth len) ++ bytes

def writeTextCanonical (text : String) : Bytes :=
  let bytes := text.toUTF8.data.toList
  let len := UInt64.ofNat bytes.length
  writeArgument majorText len (canonicalWidth len) ++ bytes

def writeBool (b : Bool) : Bytes := if b then [0xf5] else [0xf4]

def writeNull : Bytes := [0xf6]

def writeTag (tag : UInt64) (width : IntWidth) : Bytes := writeArgument majorTag tag width

def writeMapHeader : ContainerEncoding → Bytes
  | .definite count width => writeArgument majorMap count width
  | .indefinite => [initialByte majorMap 31]

def writeArrayHeader : ContainerEncoding → Bytes
  | .definite count width => writeArgument majorArray count width
  | .indefinite => [initialByte majorArray 31]

end Ade.Codec
