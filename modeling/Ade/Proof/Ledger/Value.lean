import Ade.Ledger.Value

namespace Ade.Proof.Ledger
open Std (ExtTreeMap)
open Library Ade.Ledger

/-! ## Canonical bundles -/

theorem canonical_ext {a b : MultiAsset} (canonicalA : a.Canonical)
    (canonicalB : b.Canonical) (same : ∀ policy name, a.quantity policy name = b.quantity policy name) :
    a = b := by
  have listed : ∀ {bundle : MultiAsset}, bundle.Canonical → ∀ (policy : Hash28) (name : AssetName),
      (bundle[policy]?.getD ∅)[name]? =
        if bundle.quantity policy name = 0 then none else some (bundle.quantity policy name) := by
    intro bundle canonical policy name
    unfold MultiAsset.quantity amountOf
    cases found : bundle[policy]? with
    | none => rfl
    | some assets =>
        have positive := canonical.positive policy assets found name
        rw [Option.getD_some]
        cases held : assets[name]? with
        | none => rfl
        | some qty =>
            rw [held] at positive
            rw [Option.getD_some, if_neg fun zero => positive (congrArg some zero)]
  have inner : ∀ policy : Hash28, a[policy]?.getD ∅ = b[policy]?.getD ∅ := by
    intro policy
    apply ExtTreeMap.ext_getElem?
    intro name
    rw [listed canonicalA, listed canonicalB, same]
  apply ExtTreeMap.ext_getElem?
  intro policy
  have assets := inner policy
  cases foundA : a[policy]? with
  | none =>
      cases foundB : b[policy]? with
      | none => rfl
      | some held =>
          rw [foundA, foundB] at assets
          exact absurd assets.symm (canonicalB.inhabited policy held foundB)
  | some held =>
      cases foundB : b[policy]? with
      | none =>
          rw [foundA, foundB] at assets
          exact absurd assets (canonicalA.inhabited policy held foundA)
      | some other =>
          rw [foundA, foundB] at assets
          exact congrArg some assets

theorem amountOf_filter_nonzero (assets : BTreeMap AssetName UInt64) (name : AssetName) :
    amountOf (assets.filter fun _ qty => qty ≠ 0) name = amountOf assets name := by
  unfold amountOf
  rw [ExtTreeMap.getElem?_filter']
  cases assets[name]? with
  | none => rfl
  | some qty =>
      by_cases zero : qty = 0
      · simp [zero, Option.filter]
      · simp [zero, Option.filter]

theorem pruneZeros_lookup (bundle : MultiAsset) (policy : Hash28) :
    (MultiAsset.pruneZeros bundle)[policy]?.getD ∅ =
      (bundle[policy]?.getD ∅).filter fun _ qty => qty ≠ 0 := by
  unfold MultiAsset.pruneZeros
  rw [ExtTreeMap.getElem?_filterMap']
  cases bundle[policy]? with
  | none => rfl
  | some assets =>
      rw [Option.bind_some, Option.getD_some]
      dsimp only
      split_ifs with none_left
      · exact (ExtTreeMap.isEmpty_iff.mp none_left).symm
      · rfl

@[simp] theorem quantity_pruneZeros (bundle : MultiAsset) (policy : Hash28) (name : AssetName) :
    (MultiAsset.pruneZeros bundle).quantity policy name = bundle.quantity policy name := by
  unfold MultiAsset.quantity
  rw [pruneZeros_lookup, amountOf_filter_nonzero]

theorem pruneZeros_canonical (bundle : MultiAsset) : (MultiAsset.pruneZeros bundle).Canonical := by
  have kept : ∀ (policy : Hash28) (assets : BTreeMap AssetName UInt64),
      (MultiAsset.pruneZeros bundle)[policy]? = some assets →
        assets ≠ ∅ ∧ ∃ held, assets = ExtTreeMap.filter (fun _ qty => qty ≠ 0) held := by
    intro policy assets found
    unfold MultiAsset.pruneZeros at found
    rw [ExtTreeMap.getElem?_filterMap'] at found
    obtain ⟨held, -, pruned⟩ := Option.bind_eq_some_iff.mp found
    dsimp only at pruned
    split_ifs at pruned with none_left
    cases pruned
    exact ⟨fun empty => none_left (ExtTreeMap.isEmpty_iff.mpr empty), held, rfl⟩
  constructor
  · intro policy assets found name
    obtain ⟨-, held, rfl⟩ := kept policy assets found
    rw [ExtTreeMap.getElem?_filter']
    cases held[name]? <;> simp [Option.filter]
  · exact fun policy assets found => (kept policy assets found).1

/-! ## The two loops -/

section Combine

variable {combine : Hash28 → AssetName → UInt64 → UInt64 → Except ValueError UInt64}
  {a b bundle : MultiAsset}

/-- Asset by asset, the loops combine what the two bundles hold. -/
theorem combineBundles_quantity (unit : ∀ policy name qty, combine policy name qty 0 = .ok qty)
    (ran : combineBundles combine a b = .ok bundle) (policy : Hash28) (name : AssetName) :
    combine policy name (a.quantity policy name) (b.quantity policy name) =
      .ok (bundle.quantity policy name) := by
  obtain ⟨result, combined, returned⟩ := bind_ok ran
  cases returned
  rw [quantity_pruneZeros]
  have outer := combineAll_eq_ok.mp combined policy
  cases entry : b[policy]? with
  | none =>
      rw [entry] at outer
      have same : result[policy]? = a[policy]? := outer
      have nothing : b.quantity policy name = 0 := by
        rw [MultiAsset.quantity, entry]
        rfl
      rw [nothing, unit, MultiAsset.quantity, MultiAsset.quantity, same]
  | some bAssets =>
      rw [entry] at outer
      obtain ⟨assets, merged, stored⟩ := outer
      have inner := combineAll_eq_ok.mp merged name
      rw [MultiAsset.quantity, MultiAsset.quantity, MultiAsset.quantity, entry, stored,
        Option.getD_some, Option.getD_some]
      unfold amountOf
      cases added : bAssets[name]? with
      | none =>
          rw [added] at inner
          have same : assets[name]? = (a[policy]?.getD ∅)[name]? := inner
          rw [Option.getD_none, unit, same]
      | some qty =>
          rw [added] at inner
          obtain ⟨value, summed, held⟩ := inner
          rw [held]
          exact summed

theorem combineBundles_canonical (ran : combineBundles combine a b = .ok bundle) :
    bundle.Canonical := by
  obtain ⟨result, -, returned⟩ := bind_ok ran
  cases returned
  exact pruneZeros_canonical result

/-- A refusal comes from one asset. -/
theorem combineBundles_error {failure : ValueError}
    (ran : combineBundles combine a b = .error failure) :
    ∃ policy name, combine policy name (a.quantity policy name) (b.quantity policy name) =
      .error failure := by
  unfold combineBundles at ran
  cases combined : combineAll ∅ (fun policy assets bAssets =>
      combineAll 0 (combine policy) assets bAssets) a b with
  | ok result =>
      rw [combined] at ran
      cases ran
  | error reason =>
      rw [combined] at ran
      cases ran
      obtain ⟨policy, bAssets, entry, inner⟩ := combineAll_error combined
      obtain ⟨name, qty, added, refused⟩ := combineAll_error inner
      refine ⟨policy, name, ?_⟩
      rw [MultiAsset.quantity, MultiAsset.quantity, entry, Option.getD_some, amountOf, amountOf,
        added]
      exact refused

theorem combineBundles_eq_ok (unit : ∀ policy name qty, combine policy name qty 0 = .ok qty) :
    combineBundles combine a b = .ok bundle ↔ bundle.Canonical ∧ ∀ policy name,
      combine policy name (a.quantity policy name) (b.quantity policy name) =
        .ok (bundle.quantity policy name) := by
  constructor
  · exact fun ran => ⟨combineBundles_canonical ran, combineBundles_quantity unit ran⟩
  · rintro ⟨canonical, agrees⟩
    cases ran : combineBundles combine a b with
    | error failure =>
        obtain ⟨policy, name, refused⟩ := combineBundles_error ran
        rw [agrees] at refused
        cases refused
    | ok other =>
        have same : other = bundle := by
          apply canonical_ext (combineBundles_canonical ran) canonical
          intro policy name
          exact Except.ok.inj ((combineBundles_quantity unit ran policy name).symm.trans
            (agrees policy name))
        rw [same]

end Combine

/-! ## Addition and subtraction -/

theorem addQuantity_eq_ok {policy : Hash28} {name : AssetName} {current qty sum : UInt64} :
    addQuantity policy name current qty = .ok sum ↔ sum.toNat = current.toNat + qty.toNat := by
  rw [← checkedAdd_eq_some]
  unfold addQuantity
  cases checkedAdd current qty with
  | none => constructor <;> exact (nomatch ·)
  | some found => rw [Except.ok.injEq, Option.some.injEq]

theorem subQuantity_eq_ok {policy : Hash28} {name : AssetName} {current qty rest : UInt64} :
    subQuantity policy name current qty = .ok rest ↔ current.toNat = rest.toNat + qty.toNat := by
  have subtracted : checkedSub current qty = some rest ↔ current.toNat = rest.toNat + qty.toNat := by
    rw [checkedSub_eq_some, UInt64.le_iff_toNat_le]
    omega
  rw [← subtracted]
  unfold subQuantity
  cases checkedSub current qty with
  | none => constructor <;> exact (nomatch ·)
  | some found => rw [Except.ok.injEq, Option.some.injEq]

theorem coinOr_eq_ok {coin : Option Coin} {a b : Value} {result : Coin} :
    coinOr coin a b = .ok result ↔ coin = some result := by
  cases coin with
  | none => constructor <;> exact (nomatch ·)
  | some found => rw [coinOr, Except.ok.injEq, Option.some.injEq]

variable {a b c sum rest : Value}

theorem valueAdd_eq_ok : valueAdd a b = .ok sum ↔ sum.Canonical ∧ Value.IsSum a b sum := by
  unfold valueAdd multiAssetAdd
  rw [bind_eq_ok]
  constructor
  · rintro ⟨coin, coinAdded, ran⟩
    obtain ⟨bundle, added, returned⟩ := bind_ok ran
    cases returned
    rw [coinOr_eq_ok, checkedAdd_eq_some] at coinAdded
    obtain ⟨canonical, agrees⟩ := (combineBundles_eq_ok fun policy name qty =>
      addQuantity_eq_ok.mpr rfl).mp added
    exact ⟨canonical, coinAdded, fun policy name => addQuantity_eq_ok.mp (agrees policy name)⟩
  · rintro ⟨canonical, isSum⟩
    refine ⟨sum.coin, coinOr_eq_ok.mpr (checkedAdd_eq_some.mpr isSum.coin), ?_⟩
    have added : combineBundles addQuantity a.multiAsset b.multiAsset = .ok sum.multiAsset :=
      (combineBundles_eq_ok fun policy name qty => addQuantity_eq_ok.mpr rfl).mpr
        ⟨canonical, fun policy name => addQuantity_eq_ok.mpr (isSum.assets policy name)⟩
    rw [added]
    rfl

theorem valueSub_eq_ok : valueSub a b = .ok rest ↔ rest.Canonical ∧ Value.IsSum rest b a := by
  unfold valueSub multiAssetSub
  rw [bind_eq_ok]
  constructor
  · rintro ⟨coin, coinLeft, ran⟩
    obtain ⟨bundle, left, returned⟩ := bind_ok ran
    cases returned
    rw [coinOr_eq_ok, checkedSub_eq_some, UInt64.le_iff_toNat_le] at coinLeft
    obtain ⟨canonical, agrees⟩ := (combineBundles_eq_ok fun policy name qty =>
      subQuantity_eq_ok.mpr rfl).mp left
    refine ⟨canonical, ?_, fun policy name => subQuantity_eq_ok.mp (agrees policy name)⟩
    dsimp only
    omega
  · rintro ⟨canonical, isSum⟩
    have coinLeft : checkedSub a.coin b.coin = some rest.coin := by
      rw [checkedSub_eq_some, UInt64.le_iff_toNat_le, isSum.coin]
      omega
    refine ⟨rest.coin, coinOr_eq_ok.mpr coinLeft, ?_⟩
    have left : combineBundles subQuantity a.multiAsset b.multiAsset = .ok rest.multiAsset :=
      (combineBundles_eq_ok fun policy name qty => subQuantity_eq_ok.mpr rfl).mpr
        ⟨canonical, fun policy name => subQuantity_eq_ok.mpr (isSum.assets policy name)⟩
    rw [left]
    rfl

/-- What fits in 64 bits can be added. -/
theorem valueAdd_of_fits (coin : a.coin.toNat + b.coin.toNat < 2 ^ 64)
    (assets : ∀ policy name, (a.multiAsset.quantity policy name).toNat +
      (b.multiAsset.quantity policy name).toNat < 2 ^ 64) :
    ∃ sum, valueAdd a b = .ok sum := by
  have coinAdded : coinOr (checkedAdd a.coin b.coin) a b = .ok (a.coin + b.coin) := by
    rw [coinOr_eq_ok, checkedAdd, if_pos coin]
  unfold valueAdd multiAssetAdd
  rw [coinAdded]
  cases added : combineBundles addQuantity a.multiAsset b.multiAsset with
  | ok bundle => exact ⟨⟨a.coin + b.coin, bundle⟩, rfl⟩
  | error failure =>
      obtain ⟨policy, name, refused⟩ := combineBundles_error added
      rw [addQuantity, checkedAdd, if_pos (assets policy name)] at refused
      cases refused

theorem valueSub_defined_iff : (∃ rest, valueSub a b = .ok rest) ↔ b.Within a := by
  constructor
  · rintro ⟨rest, left⟩
    obtain ⟨-, isSum⟩ := valueSub_eq_ok.mp left
    refine ⟨?_, fun policy name => ?_⟩
    · rw [UInt64.le_iff_toNat_le, isSum.coin]
      exact Nat.le_add_left _ _
    · rw [UInt64.le_iff_toNat_le, isSum.assets]
      exact Nat.le_add_left _ _
  · intro within
    have coinLeft : coinOr (checkedSub a.coin b.coin) a b = .ok (a.coin - b.coin) := by
      rw [coinOr_eq_ok, checkedSub, if_pos within.coin]
    unfold valueSub multiAssetSub
    rw [coinLeft]
    cases left : combineBundles subQuantity a.multiAsset b.multiAsset with
    | ok bundle => exact ⟨⟨a.coin - b.coin, bundle⟩, rfl⟩
    | error failure =>
        obtain ⟨policy, name, refused⟩ := combineBundles_error left
        rw [subQuantity, checkedSub, if_pos (within.assets policy name)] at refused
        cases refused

/-- A refused subtraction of assets names an asset that falls short. -/
theorem multiAssetSub_error {a b : MultiAsset} {failure : ValueError}
    (refused : multiAssetSub a b = .error failure) :
    ∃ policy name, failure = .assetUnderflow policy name ∧
      a.quantity policy name < b.quantity policy name := by
  obtain ⟨policy, name, short⟩ := combineBundles_error refused
  unfold subQuantity checkedSub at short
  split_ifs at short with enough
  cases short
  refine ⟨policy, name, rfl, ?_⟩
  rw [UInt64.le_iff_toNat_le] at enough
  rw [UInt64.lt_iff_toNat_lt]
  exact Nat.lt_of_not_le enough

/-! ## Sums of values -/

theorem isSum_comm (isSum : Value.IsSum a b sum) : Value.IsSum b a sum where
  coin := isSum.coin.trans (Nat.add_comm _ _)
  assets policy name := (isSum.assets policy name).trans (Nat.add_comm _ _)

theorem isSum_unique (canonicalA : a.Canonical) (canonicalB : b.Canonical)
    (first : Value.IsSum a c sum) (second : Value.IsSum b c sum) : a = b := by
  have coin : a.coin = b.coin := by
    have same := first.coin.symm.trans second.coin
    exact UInt64.toNat_inj.mp (Nat.add_right_cancel same)
  have bundle : a.multiAsset = b.multiAsset := by
    apply canonical_ext canonicalA canonicalB
    intro policy name
    have same := (first.assets policy name).symm.trans (second.assets policy name)
    exact UInt64.toNat_inj.mp (Nat.add_right_cancel same)
  cases a
  cases b
  cases coin
  cases bundle
  rfl

theorem toOption_congr {ε α : Type} {x y : Except ε α}
    (same : ∀ value, x = .ok value ↔ y = .ok value) : x.toOption = y.toOption := by
  cases x with
  | ok value =>
      rw [(same value).mp rfl]
  | error failure =>
      cases y with
      | error other => rfl
      | ok value => cases (same value).mpr rfl

theorem valueAdd_comm (a b : Value) : (valueAdd a b).toOption = (valueAdd b a).toOption := by
  apply toOption_congr
  intro sum
  rw [valueAdd_eq_ok, valueAdd_eq_ok]
  exact and_congr_right fun canonical => ⟨isSum_comm, isSum_comm⟩

theorem valueAdd_regroup {ab : Value} (first : Value.IsSum a b ab) (second : Value.IsSum ab c sum) :
    ∃ bc, valueAdd b c = .ok bc ∧ Value.IsSum a bc sum := by
  have total := second.coin
  rw [first.coin] at total
  have coinFits := sum.coin.toNat_lt
  have totals : ∀ policy name, (sum.multiAsset.quantity policy name).toNat =
      (a.multiAsset.quantity policy name).toNat + ((b.multiAsset.quantity policy name).toNat +
        (c.multiAsset.quantity policy name).toNat) := by
    intro policy name
    rw [second.assets, first.assets, Nat.add_assoc]
  obtain ⟨bc, added⟩ := @valueAdd_of_fits b c (by omega) (by
    intro policy name
    have fits := (sum.multiAsset.quantity policy name).toNat_lt
    rw [totals] at fits
    omega)
  obtain ⟨-, isSum⟩ := valueAdd_eq_ok.mp added
  refine ⟨bc, added, ?_, fun policy name => ?_⟩
  · rw [isSum.coin]
    omega
  · rw [isSum.assets, totals]

/-- Neither grouping is defined where the other is not. -/
theorem valueAdd_assoc (a b c : Value) :
    (valueAdd a b >>= fun ab => valueAdd ab c).toOption =
      (valueAdd b c >>= fun bc => valueAdd a bc).toOption := by
  apply toOption_congr
  intro sum
  rw [bind_eq_ok, bind_eq_ok]
  constructor
  · rintro ⟨ab, first, second⟩
    obtain ⟨canonical, isSum⟩ := valueAdd_eq_ok.mp second
    obtain ⟨bc, added, regrouped⟩ := valueAdd_regroup (valueAdd_eq_ok.mp first).2 isSum
    exact ⟨bc, added, valueAdd_eq_ok.mpr ⟨canonical, regrouped⟩⟩
  · rintro ⟨bc, first, second⟩
    obtain ⟨canonical, isSum⟩ := valueAdd_eq_ok.mp second
    obtain ⟨ab, added, regrouped⟩ := valueAdd_regroup (isSum_comm (valueAdd_eq_ok.mp first).2)
      (isSum_comm isSum)
    have swapped : valueAdd a b = .ok ab := by
      obtain ⟨canonicalAb, isAb⟩ := valueAdd_eq_ok.mp added
      exact valueAdd_eq_ok.mpr ⟨canonicalAb, isSum_comm isAb⟩
    exact ⟨ab, swapped, valueAdd_eq_ok.mpr ⟨canonical, isSum_comm regrouped⟩⟩

theorem valueAdd_fromCoin_zero (canonical : a.Canonical) :
    valueAdd a (Value.fromCoin 0) = .ok a :=
  valueAdd_eq_ok.mpr ⟨canonical, rfl, fun _ _ => rfl⟩

/-- Canonical values are a partial commutative monoid with cancellation, and subtraction undoes
addition. -/
theorem value_partial_monoid (a b c : Value) (canonicalA : a.Canonical) (canonicalB : b.Canonical) :
    (∀ sum, valueAdd a b = .ok sum → sum.Canonical) ∧
    (valueAdd a b).toOption = (valueAdd b a).toOption ∧
    valueAdd a (Value.fromCoin 0) = .ok a ∧
    (valueAdd a b >>= fun ab => valueAdd ab c).toOption =
      (valueAdd b c >>= fun bc => valueAdd a bc).toOption ∧
    (∀ sum, valueAdd a c = .ok sum → valueAdd b c = .ok sum → a = b) ∧
    (∀ sum, valueAdd a b = .ok sum → valueSub sum b = .ok a) ∧
    ((∃ rest, valueSub a b = .ok rest) ↔ b.Within a) := by
  refine ⟨fun sum added => (valueAdd_eq_ok.mp added).1, valueAdd_comm a b,
    valueAdd_fromCoin_zero canonicalA, valueAdd_assoc a b c, ?_, ?_, valueSub_defined_iff⟩
  · intro sum first second
    exact isSum_unique canonicalA canonicalB (valueAdd_eq_ok.mp first).2
      (valueAdd_eq_ok.mp second).2
  · intro sum added
    exact valueSub_eq_ok.mpr ⟨canonicalA, (valueAdd_eq_ok.mp added).2⟩

/-- On canonical values the structural comparison is the comparison of all amounts. -/
theorem checkConservation_iff {consumed produced : Value} {fee : Coin}
    (canonicalConsumed : consumed.Canonical) (canonicalProduced : produced.Canonical) :
    checkConservation consumed produced fee = .ok () ↔
      Value.IsSum produced (Value.fromCoin fee) consumed := by
  unfold checkConservation
  rw [bind_eq_ok]
  have bundles : consumed.multiAsset = produced.multiAsset ↔ ∀ policy name,
      consumed.multiAsset.quantity policy name = produced.multiAsset.quantity policy name := by
    constructor
    · intro same policy name
      rw [same]
    · exact canonical_ext canonicalConsumed canonicalProduced
  constructor
  · rintro ⟨total, added, passed⟩
    rw [coinOr_eq_ok, checkedAdd_eq_some] at added
    by_cases coins : consumed.coin = total
    · rw [if_neg (not_not.mpr coins)] at passed
      by_cases assets : consumed.multiAsset = produced.multiAsset
      · refine ⟨coins ▸ added, fun policy name => ?_⟩
        rw [assets]
        exact (Nat.add_zero _).symm
      · rw [if_pos assets] at passed
        cases passed
    · rw [if_pos coins] at passed
      cases passed
  · intro isSum
    have assets : consumed.multiAsset = produced.multiAsset :=
      bundles.mpr fun policy name => UInt64.toNat_inj.mp (isSum.assets policy name)
    refine ⟨consumed.coin, coinOr_eq_ok.mpr (checkedAdd_eq_some.mpr isSum.coin), ?_⟩
    rw [if_neg (not_not.mpr rfl), if_neg (not_not.mpr assets)]
    rfl

def samplePolicy (byte : UInt8) : Hash28 := Vector.replicate 28 byte

def sampleValue (coin : Coin) (byte : UInt8) (qty : UInt64) : Value :=
  ⟨coin, (∅ : MultiAsset).insert (samplePolicy byte)
    ((∅ : BTreeMap AssetName UInt64).insert [1] qty)⟩

theorem sampleValue_canonical {coin : Coin} {byte : UInt8} {qty : UInt64} (positive : qty ≠ 0) :
    (sampleValue coin byte qty).Canonical := by
  have only : ∀ (policy : Hash28) (assets : BTreeMap AssetName UInt64),
      (sampleValue coin byte qty).multiAsset[policy]? = some assets →
        assets = (∅ : BTreeMap AssetName UInt64).insert [1] qty := by
    intro policy assets found
    unfold sampleValue at found
    rw [BTreeMap.getElem?_insert] at found
    split_ifs at found with same
    · exact (Option.some.inj found).symm
    · cases found
  constructor
  · intro policy assets found name
    rw [only policy assets found, BTreeMap.getElem?_insert]
    split_ifs with same
    · exact fun zero => positive (Option.some.inj zero)
    · exact fun zero => nomatch zero
  · intro policy assets found
    rw [only policy assets found]
    exact ExtTreeMap.insert_ne_empty

theorem value_partial_monoid_sample :
    valueAdd (sampleValue 5 1 7) (sampleValue 6 1 8) = .ok (sampleValue 11 1 15) ∧
      valueSub (sampleValue 11 1 15) (sampleValue 6 1 8) = .ok (sampleValue 5 1 7) := by
  obtain ⟨-, -, -, -, -, undone, -⟩ := value_partial_monoid (sampleValue 5 1 7) (sampleValue 6 1 8)
    (sampleValue 1 2 3) (sampleValue_canonical (by decide)) (sampleValue_canonical (by decide))
  have added : valueAdd (sampleValue 5 1 7) (sampleValue 6 1 8) = .ok (sampleValue 11 1 15) := by
    decide +kernel
  exact ⟨added, undone _ added⟩

end Ade.Proof.Ledger
