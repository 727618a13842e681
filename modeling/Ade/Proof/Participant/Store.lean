import Ade.Proof.Rollback.Stored

/-! The tables of the persistent store under a chain of admissions. -/

namespace Ade.Proof.Participant
open Std (ExtTreeMap)
open Library Ade.ChainDb Ade.Consensus Ade.Rollback
open Ade.Proof.Rollback
open Ade.Proof.ChainDb (slot_succ_le_iff)

variable {Ledger Failure : Type} {rules : Rules Ledger Failure} {origin : Origin Ledger}
  {db : PersistentChainDb} {chain : List (Admission Ledger)}

/-- The store holds the chain, and its indexes name the hashes of the chain. -/
structure Keeps (db : PersistentChainDb) (chain : List (Admission Ledger)) : Prop where
  stores : StoresChain db chain
  hashes : ∀ (slot : SlotNo) (hash : Hash32), (db.hashBySlot.getD ∅)[slot]? = some hash ↔
    ∃ admission ∈ chain, admission.block.slot = slot ∧ admission.block.hash = hash
  index : ∀ (hash : Hash32) (slot : SlotNo), (db.slotByHash.getD ∅)[hash]? = some slot →
    (db.hashBySlot.getD ∅)[slot]? = some hash

theorem keeps_new : @Keeps Ledger PersistentChainDb.new [] where
  stores := by constructor <;> simp [PersistentChainDb.new]
  hashes := by simp [PersistentChainDb.new]
  index := by simp [PersistentChainDb.new]

/-! ## Reading -/

theorem toList_keeps (linked : Linked rules origin chain) (keeps : Keeps db chain) :
    (db.blocksBySlot.getD ∅).toList = (chain.map entryOf).reverse := by
  apply BTreeMap.toList_eq_of_ordered
  · rw [List.pairwise_reverse, List.pairwise_map]
    apply (linked_descending linked).imp
    intro newer older below
    exact Std.compare_eq_lt.mpr below
  · intro entry
    rw [keeps.stores.blocks]
    simp [entryOf, Prod.ext_iff]

theorem nil_of_noTable (linked : Linked rules origin chain) (keeps : Keeps db chain)
    (none_ : db.blocksBySlot = none) : chain = [] := by
  have listed := toList_keeps linked keeps
  have empty : (∅ : BTreeMap SlotNo Bytes).toList = [] := by simp
  rw [none_, Option.getD_none, empty] at listed
  simpa using listed.symm

theorem tip_keeps (linked : Linked rules origin chain) (keeps : Keeps db chain) :
    db.tip = .ok (chain.head?.map fun newest => ⟨newest.block.hash, newest.block.slot⟩) := by
  have last : (db.blocksBySlot.bind fun blocks => blocks.keys.getLast?) =
      chain.head?.map fun newest => newest.block.slot := by
    have listed := toList_keeps linked keeps
    cases tables : db.blocksBySlot with
    | none =>
        rw [nil_of_noTable linked keeps tables]
        rfl
    | some blocks =>
        rw [tables, Option.getD_some] at listed
        rw [Option.bind_some, ← ExtTreeMap.map_fst_toList_eq_keys, List.getLast?_map, listed,
          List.getLast?_reverse, List.head?_map, Option.map_map]
        rfl
  unfold PersistentChainDb.tip
  rw [last]
  cases chain with
  | nil => rfl
  | cons newest rest =>
      have named : (db.hashBySlot.getD ∅)[newest.block.slot]? = some newest.block.hash :=
        (keeps.hashes _ _).mpr ⟨newest, List.mem_cons_self .., rfl, rfl⟩
      simp only [List.head?_cons, Option.map_some, PersistentChainDb.hashForSlot]
      cases tables : db.hashBySlot with
      | none => simp [tables] at named
      | some bySlot =>
          rw [tables, Option.getD_some] at named
          simp [named]

theorem iterFromSlot_keeps (linked : Linked rules origin chain) (keeps : Keeps db chain) :
    db.iterFromSlot 0 = .ok (chain.map Admission.block).reverse := by
  have listed := toList_keeps linked keeps
  have created := keeps.stores.created
  unfold PersistentChainDb.iterFromSlot
  cases tables : db.blocksBySlot with
  | none =>
      rw [nil_of_noTable linked keeps tables]
      rfl
  | some blocks =>
      rw [tables, Option.getD_some] at listed
      rw [tables] at created
      obtain ⟨hashes, hashed⟩ := Option.isSome_iff_exists.mp (created rfl)
      simp only [hashed]
      have all : (blocks.toList.filter fun entry => 0 ≤ entry.1) = (chain.map entryOf).reverse := by
        rw [← listed]
        exact List.filter_eq_self.mpr fun entry _ => decide_eq_true (UInt64.zero_le)
      rw [all, ← List.map_reverse, List.mapM_map, ← List.map_reverse]
      apply mapM_ok
      intro admission member
      have named : (db.hashBySlot.getD ∅)[admission.block.slot]? = some admission.block.hash :=
        (keeps.hashes _ _).mpr ⟨admission, List.mem_reverse.mp member, rfl, rfl⟩
      cases index : db.hashBySlot with
      | none => simp [index] at named
      | some bySlot =>
          rw [index, Option.getD_some] at named
          simp [PersistentChainDb.indexedBlock, entryOf, named]

/-- A block found by its hash is one of the chain. -/
theorem getBlockByHash_keeps (keeps : Keeps db chain) (hash : Hash32) :
    ∃ found, db.getBlockByHash hash = .ok found ∧ ∀ stored ∈ found,
      ∃ admission ∈ chain, admission.block.slot = stored.slot ∧ admission.block.hash = hash := by
  unfold PersistentChainDb.getBlockByHash
  cases lookup : db.slotByHash.bind fun hashes => hashes[hash]? with
  | none => exact ⟨none, rfl, nofun⟩
  | some slot =>
      refine ⟨_, rfl, ?_⟩
      intro stored found
      obtain ⟨bytes, -, rfl⟩ := Option.map_eq_some_iff.mp found
      obtain ⟨hashes, table, entry⟩ := Option.bind_eq_some_iff.mp lookup
      have indexed := keeps.index hash slot
      rw [table, Option.getD_some] at indexed
      exact (keeps.hashes slot hash).mp (indexed entry)

/-! ## Writing -/

theorem scanForSlot_insert {hashes : BTreeMap Hash32 SlotNo} {hash : Hash32} {slot : SlotNo}
    (free : ∀ other : Hash32, hashes[other]? ≠ some slot) :
    PersistentChainDb.scanForSlot (hashes.insert hash slot) slot = some hash := by
  unfold PersistentChainDb.scanForSlot
  cases found : (hashes.insert hash slot).toList.find? (fun entry => entry.2 = slot) with
  | none =>
      have absent := List.find?_eq_none.mp found (hash, slot)
        (BTreeMap.mem_toList.mpr (by rw [BTreeMap.getElem?_insert, if_pos rfl]))
      simp at absent
  | some entry =>
      have member := BTreeMap.mem_toList.mp (List.mem_of_find?_eq_some found)
      have at_ := List.find?_some found
      simp only [decide_eq_true_eq] at at_
      rw [BTreeMap.getElem?_insert] at member
      split_ifs at member with same
      · rw [same]
        rfl
      · rw [at_] at member
        exact absurd member (free entry.1)

/-- A block above the chain is stored, and storing it again changes nothing. -/
theorem putBlock_keeps (linked : Linked rules origin chain) (keeps : Keeps db chain)
    {admission : Admission Ledger} (later : slotOf origin chain < admission.block.slot) :
    ∃ stored, db.putBlock admission.block = (.ok (), stored) ∧ Keeps stored (admission :: chain) ∧
      stored.putBlock admission.block = (.ok (), stored) ∧
      stored.snapshotsBySlot = db.snapshotsBySlot := by
  have above : ∀ other ∈ chain, other.block.slot ≠ admission.block.slot := by
    intro other member same
    have below := UInt64.lt_of_le_of_lt (slot_le_slotOf linked member) later
    rw [same] at below
    exact UInt64.lt_irrefl _ below
  have absent : (db.blocksBySlot.getD ∅).contains admission.block.slot = false := by
    rw [Bool.eq_false_iff, Ne, ExtTreeMap.contains_iff_mem, ExtTreeMap.mem_iff_isSome_getElem?]
    intro present
    obtain ⟨bytes, found⟩ := Option.isSome_iff_exists.mp present
    obtain ⟨other, member, same, -⟩ := (keeps.stores.blocks _ bytes).mp found
    exact above other member same
  have free : ∀ hash, (db.hashBySlot.getD ∅)[admission.block.slot]? ≠ some hash := by
    intro hash found
    obtain ⟨other, member, same, -⟩ := (keeps.hashes _ _).mp found
    exact above other member same
  have stores := putBlock_storesChain linked keeps.stores later
  have put : db.putBlock admission.block = (.ok (), (db.putBlock admission.block).2) := by
    simp only [PersistentChainDb.putBlock, absent, Bool.false_eq_true, if_false]
  refine ⟨_, put, ⟨stores, ?_, ?_⟩, ?_, ?_⟩
  all_goals simp only [PersistentChainDb.putBlock, absent, Bool.false_eq_true, if_false,
    Option.getD_some]
  · intro slot hash
    rw [BTreeMap.getElem?_insert]
    split_ifs with same
    · subst same
      constructor
      · intro found
        cases found
        exact ⟨admission, List.mem_cons_self .., rfl, rfl⟩
      · rintro ⟨other, member, sameSlot, rfl⟩
        rcases List.mem_cons.mp member with rfl | member
        · rfl
        · exact absurd sameSlot (above other member)
    · rw [keeps.hashes]
      simp [same]
  · intro hash slot found
    rw [BTreeMap.getElem?_insert] at found ⊢
    split_ifs at found with same
    · cases found
      rw [if_pos rfl, same]
    · have elsewhere : admission.block.slot ≠ slot := by
        rintro rfl
        exact free hash (keeps.index hash _ found)
      rw [if_neg elsewhere]
      exact keeps.index hash slot found
  · have scanned : PersistentChainDb.scanForSlot
        ((db.slotByHash.getD ∅).insert admission.block.hash admission.block.slot)
        admission.block.slot = some admission.block.hash :=
      scanForSlot_insert fun other found => free other (keeps.index other _ found)
    simp [scanned]

theorem rollbackToSlot_keeps (keeps : Keeps db chain) {slot : SlotNo}
    (notTop : slot.toNat ≠ 2 ^ 64 - 1) : Keeps (db.rollbackToSlot slot).2 (upTo slot chain) := by
  have stores := rollbackToSlot_storesChain keeps.stores notTop
  have removed : ∀ key : SlotNo,
      key ∈ (db.blocksBySlot.getD ∅).keys.filter (fun key => slot + 1 ≤ key) ↔
        ((db.blocksBySlot.getD ∅)[key]?).isSome ∧ slot < key := by
    intro key
    rw [List.mem_filter, BTreeMap.mem_keys, decide_eq_true_eq, slot_succ_le_iff notTop]
  have held : ∀ {key : SlotNo} {hash : Hash32}, (db.hashBySlot.getD ∅)[key]? = some hash →
      ((db.blocksBySlot.getD ∅)[key]?).isSome := by
    intro key hash found
    obtain ⟨admission, member, rfl, -⟩ := (keeps.hashes _ _).mp found
    rw [(keeps.stores.blocks _ _).mpr ⟨admission, member, rfl, rfl⟩]
    rfl
  refine ⟨stores, ?_, ?_⟩
  all_goals simp only [PersistentChainDb.rollbackToSlot, Option.getD_some]
  · intro key hash
    rw [BTreeMap.getElem?_foldl_erase]
    split_ifs with gone
    · constructor
      · intro absent
        cases absent
      · rintro ⟨admission, member, rfl, -⟩
        have kept := (Iff.mp mem_upTo member).2
        exact absurd kept (UInt64.not_le.mpr ((removed _).mp gone).2)
    · rw [keeps.hashes]
      constructor
      · rintro ⟨admission, member, rfl, rfl⟩
        refine ⟨admission, Iff.mpr mem_upTo ⟨member, ?_⟩, rfl, rfl⟩
        by_contra above
        refine gone ((removed _).mpr ⟨@held _ admission.block.hash ?_, UInt64.not_le.mp above⟩)
        exact (keeps.hashes _ _).mpr ⟨admission, member, rfl, rfl⟩
      · rintro ⟨admission, member, rfl, rfl⟩
        exact ⟨admission, (Iff.mp mem_upTo member).1, rfl, rfl⟩
  · intro hash key found
    rw [BTreeMap.getElem?_foldl_erase] at found ⊢
    split_ifs at found with erased
    have indexed := keeps.index hash key found
    rw [if_neg, indexed]
    intro gone
    apply erased
    rw [List.mem_map]
    refine ⟨(hash, key), List.mem_filter.mpr ⟨BTreeMap.mem_toList.mpr found, ?_⟩, rfl⟩
    exact List.contains_iff_mem.mpr gone

/-- The machine's `slot + 1` wraps at the highest slot, so a rollback to it removes everything. -/
theorem tip_rollbackToTop {slot : SlotNo} (top : slot.toNat = 2 ^ 64 - 1) :
    (db.rollbackToSlot slot).2.tip = .ok none := by
  have wraps : slot + 1 = 0 := by
    rw [← UInt64.toNat_inj, UInt64.toNat_add, top]
    rfl
  have none_ : ((db.blocksBySlot.getD ∅).keys.filter fun key => slot + 1 ≤ key).foldl
      (fun table key => table.erase key) (db.blocksBySlot.getD ∅) = ∅ := by
    apply ExtTreeMap.ext_getElem?
    intro key
    rw [BTreeMap.getElem?_foldl_erase, ExtTreeMap.getElem?_empty, wraps]
    split_ifs with gone
    · rfl
    · by_contra present
      apply gone
      rw [List.mem_filter, BTreeMap.mem_keys, decide_eq_true_eq]
      exact ⟨Option.isSome_iff_ne_none.mpr present, UInt64.zero_le⟩
  have noKeys : (∅ : BTreeMap SlotNo Bytes).keys = [] := by simp
  unfold PersistentChainDb.tip
  simp only [PersistentChainDb.rollbackToSlot, none_, Option.bind_some, noKeys, List.getLast?_nil]

end Ade.Proof.Participant
