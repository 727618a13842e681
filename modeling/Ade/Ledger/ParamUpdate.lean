import Ade.Codec.Conway
import Ade.Ledger.Ratification

/-! The bytes of a parameter update: the bounds that they are held to, and the decoder of the
parameters that can be enacted. -/

namespace Ade.Ledger
open Std Library Codec

/-! ## Bounds -/

def maxUpdateLen : Nat := 4096

def maxUpdateDepth : Nat := 16

/-- The argument of a head and the offset behind it. The reserved forms and the indefinite one have
none. -/
def headArgument (update : Bytes) (ai o : Nat) : Option (UInt64 × Nat) :=
  let bigEndian (width : Nat) : Option (UInt64 × Nat) :=
    if o + width > update.length then none
    else some (UInt64.ofNat (fromBeBytes ((update.drop o).take width)), o + width)
  if ai ≤ 23 then some (UInt64.ofNat ai, o)
  else if ai = 24 then bigEndian 1
  else if ai = 25 then bigEndian 2
  else if ai = 26 then bigEndian 4
  else if ai = 27 then bigEndian 8
  else none

/-- The items still to come on each level, the innermost level first. -/
structure Levels where
  top : UInt64
  parents : List UInt64

namespace Levels

/-- One item of the innermost level. -/
def leaf (levels : Levels) : Levels := ⟨levels.top - 1, levels.parents⟩

def push (levels : Levels) (items : UInt64) : Option Levels :=
  if (levels.top :: levels.parents).length ≥ maxUpdateDepth then none
  else some ⟨items, levels.top :: levels.parents⟩

/-- A level without items left is an item of its parent. -/
def settle (top : UInt64) : List UInt64 → Option Levels
  | [] => if top = 0 then none else some ⟨top, []⟩
  | parent :: parents => if top = 0 then settle (parent - 1) parents else some ⟨top, parent :: parents⟩

end Levels

/-- One head, and the payload of a string. -/
def headStep (update : Bytes) (levels : Levels) (o : Nat) : Option (Levels × Nat) := do
  let byte ← update[o]?
  let major := byte.toNat / 32
  let ai := byte.toNat % 32
  let (arg, o) ← headArgument update ai (o + 1)
  if major = majorUnsigned ∨ major = majorNegative then return (levels.leaf, o)
  else if major = majorBytes ∨ major = majorText then
    if o + arg.toNat > update.length then none else return (levels.leaf, o + arg.toNat)
  else if major = majorArray then return (← levels.push arg, o)
  else if major = majorMap then
    if arg.toNat * 2 < 2 ^ 64 then return (← levels.push (arg * 2), o) else none
  else if major = majorTag then return (← levels.push 1, o)
  else return (levels.leaf, o)

/-- Every head takes at least a byte: `left` does not run out before the bytes do. -/
def walkHeads (update : Bytes) : (left : Nat) → Levels → (o : Nat) → Bool
  | left, levels, o =>
      match Levels.settle levels.top levels.parents with
      | none => o = update.length
      | some levels =>
          match left, headStep update levels o with
          | left + 1, some (levels, o) => walkHeads update left levels o
          | _, _ => false

def enactableUpdateWithinBounds (update : Bytes) : Bool :=
  update ≠ [] ∧ update.length ≤ maxUpdateLen ∧ walkHeads update update.length ⟨1, []⟩ 0

/-! ## Decoding -/

inductive EnactableUpdateError where
  | malformed
  | duplicateKey (key : UInt64)
  | malformedExUnits (key : UInt64)
  | malformedCoin (key : UInt64)
deriving DecidableEq, Repr

def ppuKeyMaxTxExUnits : UInt64 := 20
def ppuKeyMaxBlockExUnits : UInt64 := 21
def ppuKeyMinPoolCost : UInt64 := 16

abbrev DecodeUpdate := Cursor EnactableUpdateError

def failAs {α : Type} (failure : EnactableUpdateError) (read : Read α) : DecodeUpdate α :=
  ExceptT.adapt (fun _ => failure) read

def expectExUnits (data : Bytes) (key : UInt64) : ContainerEncoding → DecodeUpdate ExUnits
  | .definite count _ =>
      if count = 2 then do
        let (mem, _) ← failAs (.malformedExUnits key) (readUint data)
        let (steps, _) ← failAs (.malformedExUnits key) (readUint data)
        return { mem, steps }
      else throw (.malformedExUnits key)
  | .indefinite => throw (.malformedExUnits key)

def readExUnitsValue (data : Bytes) (key : UInt64) : DecodeUpdate ExUnits := do
  expectExUnits data key (← failAs (.malformedExUnits key) (readArrayHeader data))

/-- A key outside the subset is recorded, and its value passed over. -/
def decodeUpdateValue (data : Bytes) (decoded : EnactableParamUpdate) (key : UInt64) :
    DecodeUpdate EnactableParamUpdate :=
  if key = ppuKeyMinPoolCost then
    if decoded.minPoolCost.isSome then throw (.duplicateKey key)
    else do
      let (coin, _) ← failAs (.malformedCoin key) (readUint data)
      return { decoded with minPoolCost := some coin }
  else if key = ppuKeyMaxTxExUnits then
    if decoded.maxTxExUnits.isSome then throw (.duplicateKey key)
    else do return { decoded with maxTxExUnits := some (← readExUnitsValue data key) }
  else if key = ppuKeyMaxBlockExUnits then
    if decoded.maxBlockExUnits.isSome then throw (.duplicateKey key)
    else do return { decoded with maxBlockExUnits := some (← readExUnitsValue data key) }
  else do
    failAs .malformed (do
      let _ ← skip data
      return ())
    return { decoded with unsupportedFields := decoded.unsupportedFields.insert key }

def decodeUpdateEntry (data : Bytes) (decoded : EnactableParamUpdate) :
    DecodeUpdate EnactableParamUpdate := do
  decodeUpdateValue data decoded (← failAs .malformed (readUint data)).1

def EnactableParamUpdate.empty : EnactableParamUpdate := ⟨none, none, none, ∅⟩

def decodeUpdateMap (update : Bytes) : ContainerEncoding → DecodeUpdate EnactableParamUpdate
  | .definite count _ => Cursor.iterate (decodeUpdateEntry update) count.toNat .empty
  | .indefinite => throw .malformed

def readParamUpdate (update : Bytes) : DecodeUpdate EnactableParamUpdate := do
  decodeUpdateMap update (← failAs .malformed (readMapHeader update))

def decodeEnactableParamUpdate (update : Bytes) : Except EnactableUpdateError EnactableParamUpdate :=
  let (decoded, o) := (readParamUpdate update).runAt 0
  decoded.bind fun decoded => if o = update.length then .ok decoded else .error .malformed

/-- The rules over the update's own bytes. -/
def rulesOfVotes (checkRatification : FrozenRatificationInput → BTreeMap DRep Coin →
    BTreeMap PoolId Coin → GovActionState → Bool) : RatificationRules where
  checkRatification := checkRatification
  enactableUpdateWithinBounds := enactableUpdateWithinBounds
  decodeEnactableParamUpdate := fun update => (decodeEnactableParamUpdate update).toOption

end Ade.Ledger
