import Ade.Ledger.Delegation
import Ade.Library.Overlay

/-! The UTxO set: an anchor shared between clones, and the changes made since. -/

namespace Ade.Ledger
open Std Library

structure TxIn where
  txHash : Hash32
  index : UInt16
deriving DecidableEq, Repr

namespace TxIn

instance : Ord TxIn := ⟨compareLex (compareOn txHash) (compareOn index)⟩

instance : TransOrd TxIn :=
  inferInstanceAs (TransCmp (compareLex (compareOn txHash) (compareOn index)))

instance : LawfulEqOrd TxIn where
  compare_self := ReflOrd.compare_self
  eq_of_compare := by
    rintro ⟨txHash, index⟩ ⟨txHash', index'⟩ same
    have fields : compare txHash txHash' = .eq ∧ compare index index' = .eq :=
      compareLex_eq_eq.mp same
    simpa [LawfulEqOrd.compare_eq_iff_eq] using fields

end TxIn

inductive Address where
  | base (bytes : Bytes)
  | pointer (bytes : Bytes)
  | enterprise (bytes : Bytes)
  | byron (bytes : Bytes)
  | reward (bytes : Bytes)
deriving DecidableEq, Repr

def Address.asBytes : Address → Bytes
  | base bytes | pointer bytes | enterprise bytes | byron bytes | reward bytes => bytes

abbrev AssetName := Bytes

abbrev MultiAsset := BTreeMap Hash28 (BTreeMap AssetName UInt64)

instance : DecidableEq MultiAsset := inferInstance

structure Value where
  coin : Coin
  multiAsset : MultiAsset
deriving DecidableEq

inductive TxOut where
  | byron (address : Address) (coin : Coin)
  | shelleyMary (address : Bytes) (value : Value)
  /-- `raw` is the output as it stood in the transaction. -/
  | alonzoPlus (raw address : Bytes) (coin : Coin)
deriving DecidableEq

/-! ## The store -/

def maxOverlayEntries : Nat := 100000

structure OverlayUtxo where
  anchor : BTreeMap TxIn TxOut
  /-- `none` is a tombstone. -/
  overlay : BTreeMap TxIn (Option TxOut)
  generation : UInt64

namespace OverlayUtxo

def new : OverlayUtxo := ⟨∅, ∅, 0⟩

def fromMap (map : BTreeMap TxIn TxOut) : OverlayUtxo := ⟨map, ∅, 0⟩

def get (store : OverlayUtxo) (txIn : TxIn) : Option TxOut :=
  match store.overlay[txIn]? with
  | some (some out) => some out
  | some none => none
  | none => store.anchor[txIn]?

def contains (store : OverlayUtxo) (txIn : TxIn) : Bool := (store.get txIn).isSome

/-- `none` is an underflow. -/
def len (store : OverlayUtxo) : Option Nat :=
  store.overlay.toList.foldlM (Overlay.countChange store.anchor) store.anchor.size

def isEmpty (store : OverlayUtxo) : Option Bool := store.len.map (· == 0)

/-- The effective set. -/
def toMap (store : OverlayUtxo) : BTreeMap TxIn TxOut :=
  store.overlay.toList.foldl Overlay.applyChange store.anchor

def iter (store : OverlayUtxo) : List (TxIn × TxOut) :=
  Overlay.merge store.anchor.toList store.overlay.toList

def values (store : OverlayUtxo) : List TxOut := store.iter.map Prod.snd

def keys (store : OverlayUtxo) : List TxIn := store.iter.map Prod.fst

def compact (store : OverlayUtxo) : OverlayUtxo :=
  if store.overlay.isEmpty then store else { store with anchor := store.toMap, overlay := ∅ }

def clone (store : OverlayUtxo) : OverlayUtxo := store

def equals (store other : OverlayUtxo) : Bool := store.toMap = other.toMap

section
variable (bound : Nat) -- `maxOverlayEntries` in the source

def maybeCompact (store : OverlayUtxo) : OverlayUtxo :=
  if store.overlay.size > bound then store.compact else store

/-- The mutation counter wraps. -/
def insert (store : OverlayUtxo) (txIn : TxIn) (txOut : TxOut) : OverlayUtxo :=
  maybeCompact bound { store with
    overlay := store.overlay.insert txIn (some txOut)
    generation := store.generation + 1 }

def remove (store : OverlayUtxo) (txIn : TxIn) : OverlayUtxo × Option TxOut :=
  let current := store.get txIn
  if current.isSome then
    (maybeCompact bound { store with
      overlay := store.overlay.insert txIn none
      generation := store.generation + 1 }, current)
  else (store, current)

end

end OverlayUtxo

/-! ## Histories -/

inductive StoreOp where
  | insert (txIn : TxIn) (txOut : TxOut)
  | remove (txIn : TxIn)
  | clone
  | compact
deriving DecidableEq

namespace StoreOp

/-- The answer is the removed value. -/
def apply (bound : Nat) (store : OverlayUtxo) : StoreOp → OverlayUtxo × Option TxOut
  | insert txIn txOut => (store.insert bound txIn txOut, none)
  | remove txIn => store.remove bound txIn
  | clone => (store.clone, none)
  | compact => (store.compact, none)

/-- The same operation on a plain map. -/
def applyPlain (map : BTreeMap TxIn TxOut) : StoreOp → BTreeMap TxIn TxOut × Option TxOut
  | insert txIn txOut => (map.insert txIn txOut, none)
  | remove txIn => (map.erase txIn, map[txIn]?)
  | clone => (map, none)
  | compact => (map, none)

/-- Whether the operation counts as a mutation: an insert, or the removal of what is there. -/
def mutates (map : BTreeMap TxIn TxOut) : StoreOp → Bool
  | insert _ _ => true
  | remove txIn => map.contains txIn
  | clone => false
  | compact => false

end StoreOp

/-- How many operations of a history mutate the set. -/
def mutations (map : BTreeMap TxIn TxOut) : List StoreOp → Nat
  | [] => 0
  | op :: ops => (op.mutates map).toNat + mutations (op.applyPlain map).1 ops

/-- Where a store comes from. -/
inductive StoreOrigin where
  | new
  | fromMap (map : BTreeMap TxIn TxOut)

namespace StoreOrigin

def store : StoreOrigin → OverlayUtxo
  | new => .new
  | fromMap map => .fromMap map

def map : StoreOrigin → BTreeMap TxIn TxOut
  | new => ∅
  | fromMap map => map

end StoreOrigin

/-- The store and the map that the same history leads to. -/
def storeAfter (bound : Nat) (origin : StoreOrigin) (ops : List StoreOp) : OverlayUtxo :=
  (answers (StoreOp.apply bound) origin.store ops).1

def mapAfter (origin : StoreOrigin) (ops : List StoreOp) : BTreeMap TxIn TxOut :=
  (answers StoreOp.applyPlain origin.map ops).1

/-- The values that removals returned. -/
def removedFromStore (bound : Nat) (origin : StoreOrigin) (ops : List StoreOp) :
    List (Option TxOut) :=
  (answers (StoreOp.apply bound) origin.store ops).2

def removedFromMap (origin : StoreOrigin) (ops : List StoreOp) : List (Option TxOut) :=
  (answers StoreOp.applyPlain origin.map ops).2

/-- A store that no reader can tell from the map. -/
structure OverlayUtxo.Agrees (store : OverlayUtxo) (map : BTreeMap TxIn TxOut) : Prop where
  get : ∀ txIn, store.get txIn = map[txIn]?
  contains : ∀ txIn, store.contains txIn = map.contains txIn
  len : store.len = some map.size
  isEmpty : store.isEmpty = some map.isEmpty
  iter : store.iter = map.toList
  keys : store.keys = map.keys
  values : store.values = map.toList.map Prod.snd
  toMap : store.toMap = map

end Ade.Ledger
