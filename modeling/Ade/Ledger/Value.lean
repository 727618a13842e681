import Ade.Ledger.Utxo
import Ade.Library.Combine
import Ade.Library.Totals

/-! Values: a coin and a bundle of assets, added and subtracted with checks. -/

namespace Ade.Ledger
open Std Library

/-- The ledger errors that value arithmetic raises. -/
inductive ValueError where
  | conservation (consumedCoin producedCoin : Coin)
  | assetUnderflow (policy : Hash28) (name : AssetName)
deriving DecidableEq, Repr

namespace MultiAsset

/-- Drops the zero quantities, and then the policies that are left empty. -/
def pruneZeros (bundle : MultiAsset) : MultiAsset :=
  bundle.filterMap fun _ assets =>
    let kept := assets.filter fun _ qty => qty ≠ 0
    if kept.isEmpty then none else some kept

end MultiAsset

def Value.fromCoin (coin : Coin) : Value := ⟨coin, ∅⟩

/-- The loops that addition and subtraction share: policy by policy, asset by asset. -/
def combineBundles
    (combine : Hash28 → AssetName → UInt64 → UInt64 → Except ValueError UInt64)
    (a b : MultiAsset) : Except ValueError MultiAsset := do
  let result ← combineAll ∅ (fun policy assets bAssets =>
    combineAll 0 (combine policy) assets bAssets) a b
  return MultiAsset.pruneZeros result

def addQuantity (_ : Hash28) (_ : AssetName) (current qty : UInt64) : Except ValueError UInt64 :=
  match checkedAdd current qty with
  | some sum => .ok sum
  | none => .error (.conservation 0 0)

def subQuantity (policy : Hash28) (name : AssetName) (current qty : UInt64) :
    Except ValueError UInt64 :=
  match checkedSub current qty with
  | some difference => .ok difference
  | none => .error (.assetUnderflow policy name)

def multiAssetAdd (a b : MultiAsset) : Except ValueError MultiAsset :=
  combineBundles addQuantity a b

def multiAssetSub (a b : MultiAsset) : Except ValueError MultiAsset :=
  combineBundles subQuantity a b

def coinOr (coin : Option Coin) (a b : Value) : Except ValueError Coin :=
  match coin with
  | some coin => .ok coin
  | none => .error (.conservation a.coin b.coin)

def valueAdd (a b : Value) : Except ValueError Value := do
  let coin ← coinOr (checkedAdd a.coin b.coin) a b
  let multiAsset ← multiAssetAdd a.multiAsset b.multiAsset
  return ⟨coin, multiAsset⟩

def valueSub (a b : Value) : Except ValueError Value := do
  let coin ← coinOr (checkedSub a.coin b.coin) a b
  let multiAsset ← multiAssetSub a.multiAsset b.multiAsset
  return ⟨coin, multiAsset⟩

def checkConservation (consumed produced : Value) (fee : Coin) : Except ValueError Unit := do
  let producedPlusFee ← coinOr (checkedAdd produced.coin fee) consumed produced
  if consumed.coin ≠ producedPlusFee then
    throw (.conservation consumed.coin producedPlusFee)
  if consumed.multiAsset ≠ produced.multiAsset then
    throw (.conservation consumed.coin producedPlusFee)

/-! ## Canonical values -/

/-- How much of an asset a bundle holds. -/
def MultiAsset.quantity (bundle : MultiAsset) (policy : Hash28) (name : AssetName) : UInt64 :=
  amountOf (bundle[policy]?.getD ∅) name

/-- No zero quantity and no empty policy. -/
structure MultiAsset.Canonical (bundle : MultiAsset) : Prop where
  positive : ∀ (policy : Hash28) (assets : BTreeMap AssetName UInt64),
    bundle[policy]? = some assets → ∀ name : AssetName, assets[name]? ≠ some 0
  inhabited : ∀ (policy : Hash28) (assets : BTreeMap AssetName UInt64),
    bundle[policy]? = some assets → assets ≠ ∅

def Value.Canonical (value : Value) : Prop := value.multiAsset.Canonical

/-- `a` holds at most what `b` holds, coin by coin and asset by asset. -/
structure Value.Within (a b : Value) : Prop where
  coin : a.coin ≤ b.coin
  assets : ∀ policy name, a.multiAsset.quantity policy name ≤ b.multiAsset.quantity policy name

/-- `sum` is the sum of `a` and `b` as numbers. -/
structure Value.IsSum (a b sum : Value) : Prop where
  coin : sum.coin.toNat = a.coin.toNat + b.coin.toNat
  assets : ∀ policy name, (sum.multiAsset.quantity policy name).toNat =
    (a.multiAsset.quantity policy name).toNat + (b.multiAsset.quantity policy name).toNat

end Ade.Ledger
