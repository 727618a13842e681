import Ade.Ledger.Utxo

namespace Ade.Proof.Ledger
open Std (ExtTreeMap)
open Library Ade.Ledger

/-! ## Reading a store -/

section
variable (store : OverlayUtxo)

theorem getElem?_toMap (txIn : TxIn) : store.toMap[txIn]? = store.get txIn := by
  unfold OverlayUtxo.toMap OverlayUtxo.get
  rw [Overlay.getElem?_foldl]
  cases store.overlay[txIn]? with
  | none => rfl
  | some slot => cases slot <;> rfl

theorem contains_toMap (txIn : TxIn) : store.contains txIn = store.toMap.contains txIn := by
  unfold OverlayUtxo.contains
  rw [← getElem?_toMap, ExtTreeMap.isSome_getElem?_eq_contains]

theorem len_eq_size : store.len = some store.toMap.size :=
  Overlay.foldlM_countChange (Overlay.ordered_toList store.overlay) fun _ _ => rfl

theorem iter_eq_toList : store.iter = store.toMap.toList :=
  Overlay.merge_eq_toList store.anchor store.overlay

theorem agrees_toMap : store.Agrees store.toMap where
  get txIn := (getElem?_toMap store txIn).symm
  contains := contains_toMap store
  len := len_eq_size store
  isEmpty := by
    unfold OverlayUtxo.isEmpty
    rw [len_eq_size, ExtTreeMap.isEmpty_eq_size_beq_zero]
    rfl
  iter := iter_eq_toList store
  keys := by
    unfold OverlayUtxo.keys
    rw [iter_eq_toList, ExtTreeMap.map_fst_toList_eq_keys]
  values := by
    unfold OverlayUtxo.values
    rw [iter_eq_toList]
  toMap := rfl

end

/-! ## Changing it -/

section
variable {bound : Nat} {store : OverlayUtxo}

theorem toMap_of_overlay_empty {anchor : BTreeMap TxIn TxOut} {generation : UInt64} :
    (OverlayUtxo.mk anchor ∅ generation).toMap = anchor := by
  apply ExtTreeMap.ext_getElem?
  intro txIn
  rw [getElem?_toMap]
  simp [OverlayUtxo.get]

theorem toMap_compact : store.compact.toMap = store.toMap := by
  unfold OverlayUtxo.compact
  split_ifs
  · rfl
  · exact toMap_of_overlay_empty

theorem generation_compact : store.compact.generation = store.generation := by
  unfold OverlayUtxo.compact
  split_ifs
  · rfl
  · rfl

theorem toMap_maybeCompact : (store.maybeCompact bound).toMap = store.toMap := by
  unfold OverlayUtxo.maybeCompact
  split_ifs
  · exact toMap_compact
  · rfl

theorem generation_maybeCompact : (store.maybeCompact bound).generation = store.generation := by
  unfold OverlayUtxo.maybeCompact
  split_ifs
  · exact generation_compact
  · rfl

/-- A slot written to the overlay is a change to the effective set. -/
theorem toMap_overlay_insert (txIn : TxIn) (slot : Option TxOut) (generation : UInt64) :
    (OverlayUtxo.mk store.anchor (store.overlay.insert txIn slot) generation).toMap =
      Overlay.applyChange store.toMap (txIn, slot) := by
  apply ExtTreeMap.ext_getElem?
  intro other
  rw [Overlay.getElem?_applyChange, getElem?_toMap, getElem?_toMap]
  unfold OverlayUtxo.get
  dsimp only
  rw [BTreeMap.getElem?_insert]
  by_cases same : txIn = other
  · rw [if_pos same, if_pos same]
    cases slot <;> rfl
  · rw [if_neg same, if_neg same]

theorem toMap_insert (txIn : TxIn) (txOut : TxOut) :
    (store.insert bound txIn txOut).toMap = store.toMap.insert txIn txOut := by
  unfold OverlayUtxo.insert
  rw [toMap_maybeCompact]
  exact toMap_overlay_insert txIn (some txOut) (store.generation + 1)

theorem generation_insert (txIn : TxIn) (txOut : TxOut) :
    (store.insert bound txIn txOut).generation = store.generation + 1 := by
  unfold OverlayUtxo.insert
  rw [generation_maybeCompact]

theorem toMap_remove (txIn : TxIn) :
    (store.remove bound txIn).1.toMap = store.toMap.erase txIn := by
  unfold OverlayUtxo.remove
  dsimp only
  split_ifs with present
  · rw [toMap_maybeCompact]
    exact toMap_overlay_insert txIn none (store.generation + 1)
  · apply ExtTreeMap.ext_getElem?
    intro other
    rw [BTreeMap.getElem?_erase]
    split_ifs with same
    · subst same
      rw [getElem?_toMap]
      simpa using present
    · rfl

theorem removed_eq (txIn : TxIn) : (store.remove bound txIn).2 = store.toMap[txIn]? := by
  rw [getElem?_toMap]
  unfold OverlayUtxo.remove
  dsimp only
  split_ifs
  · rfl
  · rfl

theorem generation_remove (txIn : TxIn) :
    (store.remove bound txIn).1.generation =
      store.generation + UInt64.ofNat (store.toMap.contains txIn).toNat := by
  rw [← contains_toMap]
  unfold OverlayUtxo.remove OverlayUtxo.contains
  dsimp only
  split_ifs with present
  · rw [generation_maybeCompact, present]
    rfl
  · rw [Bool.not_eq_true] at present
    rw [present]
    exact (UInt64.add_zero _).symm

end

/-! ## Histories -/

section
variable {bound : Nat} {store : OverlayUtxo}

theorem apply_simulates (op : StoreOp) :
    (op.apply bound store).1.toMap = (op.applyPlain store.toMap).1 ∧
      (op.apply bound store).2 = (op.applyPlain store.toMap).2 := by
  cases op with
  | insert txIn txOut => exact ⟨toMap_insert txIn txOut, rfl⟩
  | remove txIn => exact ⟨toMap_remove txIn, removed_eq txIn⟩
  | clone => exact ⟨rfl, rfl⟩
  | compact => exact ⟨toMap_compact, rfl⟩

theorem generation_apply (op : StoreOp) :
    (op.apply bound store).1.generation =
      store.generation + UInt64.ofNat (op.mutates store.toMap).toNat := by
  cases op with
  | insert txIn txOut => exact generation_insert txIn txOut
  | remove txIn => exact generation_remove txIn
  | clone => exact (UInt64.add_zero _).symm
  | compact => exact generation_compact.trans (UInt64.add_zero _).symm

theorem answers_simulate (store : OverlayUtxo) (ops : List StoreOp) :
    (answers (StoreOp.apply bound) store ops).1.toMap =
        (answers StoreOp.applyPlain store.toMap ops).1 ∧
      (answers (StoreOp.apply bound) store ops).2 =
        (answers StoreOp.applyPlain store.toMap ops).2 := by
  have simulated : ∀ (store : OverlayUtxo) (map : BTreeMap TxIn TxOut) (op : StoreOp),
      store.toMap = map → (op.apply bound store).1.toMap = (op.applyPlain map).1 ∧
        (op.apply bound store).2 = (op.applyPlain map).2 := by
    rintro store _ op rfl
    exact apply_simulates op
  exact answers_related simulated rfl ops

theorem generation_answers (store : OverlayUtxo) (ops : List StoreOp) :
    (answers (StoreOp.apply bound) store ops).1.generation =
      store.generation + UInt64.ofNat (mutations store.toMap ops) := by
  induction ops generalizing store with
  | nil => exact (UInt64.add_zero _).symm
  | cons op ops ih =>
      have rest := ih (op.apply bound store).1
      rw [(apply_simulates op).1, generation_apply] at rest
      show (answers (StoreOp.apply bound) (op.apply bound store).1 ops).1.generation = _
      rw [rest, mutations, UInt64.ofNat_add, UInt64.add_assoc]

theorem applyPlain_of_not_mutates {map : BTreeMap TxIn TxOut} {op : StoreOp}
    (idle : op.mutates map = false) : (op.applyPlain map).1 = map := by
  cases op with
  | insert txIn txOut => cases idle
  | remove txIn =>
      apply ExtTreeMap.ext_getElem?
      intro other
      show (map.erase txIn)[other]? = _
      rw [BTreeMap.getElem?_erase]
      split_ifs with same
      · subst same
        have absent : map.contains txIn = false := idle
        rw [ExtTreeMap.getElem?_eq_none_of_contains_eq_false absent]
      · rfl
  | clone | compact => rfl

theorem answers_of_no_mutations {map : BTreeMap TxIn TxOut} {ops : List StoreOp}
    (idle : mutations map ops = 0) : (answers StoreOp.applyPlain map ops).1 = map := by
  induction ops generalizing map with
  | nil => rfl
  | cons op ops ih =>
      obtain ⟨first, rest⟩ := Nat.add_eq_zero_iff.mp idle
      have unchanged : (op.applyPlain map).1 = map :=
        applyPlain_of_not_mutates (by simpa using first)
      have later := ih rest
      rw [unchanged] at later
      exact (congrArg (fun map => (answers StoreOp.applyPlain map ops).1) unchanged).trans later

end

theorem StoreOrigin.toMap_store (origin : StoreOrigin) : origin.store.toMap = origin.map := by
  cases origin with
  | new => exact toMap_of_overlay_empty
  | fromMap map => exact toMap_of_overlay_empty

theorem toMap_storeAfter (bound : Nat) (origin : StoreOrigin) (ops : List StoreOp) :
    (storeAfter bound origin ops).toMap = mapAfter origin ops := by
  unfold storeAfter mapAfter
  rw [(answers_simulate origin.store ops).1, StoreOrigin.toMap_store]

theorem removedFromStore_eq (bound : Nat) (origin : StoreOrigin) (ops : List StoreOp) :
    removedFromStore bound origin ops = removedFromMap origin ops := by
  unfold removedFromStore removedFromMap
  rw [(answers_simulate origin.store ops).2, StoreOrigin.toMap_store]

theorem equals_storeAfter (bound : Nat) (origin origin' : StoreOrigin) (ops ops' : List StoreOp) :
    (storeAfter bound origin ops).equals (storeAfter bound origin' ops') = true ↔
      mapAfter origin ops = mapAfter origin' ops' := by
  unfold OverlayUtxo.equals
  rw [toMap_storeAfter, toMap_storeAfter, decide_eq_true_iff]

theorem generation_storeAfter (bound : Nat) (origin : StoreOrigin) (earlier later : List StoreOp) :
    (storeAfter bound origin (earlier ++ later)).generation =
      (storeAfter bound origin earlier).generation +
        UInt64.ofNat (mutations (mapAfter origin earlier) later) := by
  rw [← toMap_storeAfter bound, storeAfter, answers_append]
  exact generation_answers _ _

/-! ## Two stores on one line -/

def sampleTxIn : TxIn := ⟨Vector.replicate 32 1, 0⟩

def sampleTxOut : TxOut := .byron (.byron []) 1

/-- One output written again and again. -/
def rewrites (n : Nat) : List StoreOp := List.replicate n (.insert sampleTxIn sampleTxOut)

theorem mutations_rewrites (n : Nat) (map : BTreeMap TxIn TxOut) :
    mutations map (rewrites n) = n := by
  unfold rewrites
  induction n generalizing map with
  | zero => rfl
  | succ n ih =>
      rw [List.replicate_succ, mutations, ih]
      exact Nat.add_comm 1 n

theorem getElem?_rewrites (n : Nat) (origin : StoreOrigin) :
    (mapAfter origin (rewrites (n + 1)))[sampleTxIn]? = some sampleTxOut := by
  unfold rewrites mapAfter
  rw [List.replicate_succ', answers_append]
  exact ExtTreeMap.getElem?_insert_self

/-- A multiple of `2 ^ 64` mutations brings the counter back to where it was. -/
theorem generation_wraps {n : Nat} (wraps : 2 ^ 64 ∣ n) (bound : Nat) :
    (storeAfter bound .new []).generation = (storeAfter bound .new ([] ++ rewrites n)).generation := by
  have none : UInt64.ofNat n = 0 := by
    apply UInt64.toNat.inj
    rw [UInt64.toNat_ofNat']
    exact Nat.mod_eq_zero_of_dvd wraps
  rw [generation_storeAfter, mutations_rewrites, none, UInt64.add_zero]

theorem rewrites_change {n : Nat} (positive : 0 < n) :
    mapAfter .new [] ≠ mapAfter .new ([] ++ rewrites n) := by
  obtain ⟨m, rfl⟩ := Nat.exists_eq_succ_of_ne_zero positive.ne'
  intro same
  have found := getElem?_rewrites m .new
  rw [← List.nil_append (rewrites (m + 1)), ← same] at found
  simp [mapAfter, answers, StoreOrigin.map] at found

theorem sameContents_of_sameGeneration {bound n : Nat} {origin : StoreOrigin}
    {earlier later : List StoreOp} (count : mutations (mapAfter origin earlier) later = n)
    (apart : n = 0 ∨ ¬ 2 ^ 64 ∣ n)
    (sameGeneration : (storeAfter bound origin earlier).generation =
      (storeAfter bound origin (earlier ++ later)).generation) :
    mapAfter origin earlier = mapAfter origin (earlier ++ later) := by
  rw [generation_storeAfter, count] at sameGeneration
  have none : UInt64.ofNat n = 0 := left_eq_add.mp sameGeneration
  have wraps : 2 ^ 64 ∣ n := by
    rw [← UInt64.toNat_inj, UInt64.toNat_ofNat'] at none
    exact Nat.dvd_of_mod_eq_zero none
  have idle : mutations (mapAfter origin earlier) later = 0 :=
    count.trans (apart.resolve_right fun apart => apart wraps)
  unfold mapAfter at idle ⊢
  rw [answers_append, answers_of_no_mutations idle]

/-- A store reads as the plain map its history makes, and two stores on one line with the same
generation have the same contents, except where the mutations between them can wrap the counter. -/
theorem overlayUtxo_is_a_map (n : Nat) :
    (∀ (bound : Nat) (origin : StoreOrigin) (ops : List StoreOp),
      (storeAfter bound origin ops).Agrees (mapAfter origin ops) ∧
        removedFromStore bound origin ops = removedFromMap origin ops) ∧
    (∀ (bound : Nat) (origin origin' : StoreOrigin) (ops ops' : List StoreOp),
      (storeAfter bound origin ops).equals (storeAfter bound origin' ops') = true ↔
        mapAfter origin ops = mapAfter origin' ops') ∧
    ((∀ (bound : Nat) (origin : StoreOrigin) (earlier later : List StoreOp),
        mutations (mapAfter origin earlier) later = n →
        (storeAfter bound origin earlier).generation =
          (storeAfter bound origin (earlier ++ later)).generation →
        mapAfter origin earlier = mapAfter origin (earlier ++ later)) ↔
      (n = 0 ∨ ¬ 2 ^ 64 ∣ n)) := by
  refine ⟨fun bound origin ops => ⟨?_, removedFromStore_eq bound origin ops⟩, equals_storeAfter,
    fun line => ?_, fun apart bound origin earlier later count same =>
      sameContents_of_sameGeneration count apart same⟩
  · have agrees := agrees_toMap (storeAfter bound origin ops)
    rw [toMap_storeAfter] at agrees
    exact agrees
  · by_contra wraps
    push Not at wraps
    exact rewrites_change (Nat.pos_of_ne_zero wraps.1)
      (line 0 .new [] (rewrites n) (mutations_rewrites n _) (generation_wraps wraps.2 0))

theorem overlayUtxo_generation_wraps :
    (storeAfter maxOverlayEntries .new []).generation =
        (storeAfter maxOverlayEntries .new ([] ++ rewrites (2 ^ 64))).generation ∧
      (storeAfter maxOverlayEntries .new []).equals
        (storeAfter maxOverlayEntries .new ([] ++ rewrites (2 ^ 64))) = false := by
  refine ⟨generation_wraps (Nat.dvd_refl _) _, ?_⟩
  rw [← Bool.not_eq_true, equals_storeAfter]
  exact rewrites_change (Nat.pow_pos (by decide))

end Ade.Proof.Ledger
