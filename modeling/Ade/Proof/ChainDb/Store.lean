import Ade.Proof.ChainDb.Reads

namespace Ade.Proof.ChainDb
open Std (ExtTreeMap)
open Library Ade.ChainDb

/-! ## Writes keep the agreement -/

theorem putBlock_indexed {memory : InMemoryChainDb} (indexed : WellIndexed memory)
    {block : StoredBlock} (free : memory.bySlot[block.slot]? = none)
    (unique : ∀ (slot : SlotNo) stored, memory.bySlot[slot]? = some stored →
      stored.hash = block.hash → slot = block.slot) :
    WellIndexed { memory with
      bySlot := memory.bySlot.insert block.slot block
      byHash := memory.byHash.insert block.hash block.slot } := by
  constructor
  · intro slot stored found
    rw [BTreeMap.getElem?_insert] at found
    split_ifs at found with same
    · cases found
      exact same
    · exact indexed.slots slot stored found
  · intro hash slot
    rw [BTreeMap.getElem?_insert, BTreeMap.getElem?_insert]
    by_cases sameSlot : block.slot = slot
    · subst sameSlot
      rw [if_pos rfl]
      by_cases sameHash : block.hash = hash
      · simp [sameHash]
      · have elsewhere : memory.byHash[hash]? ≠ some block.slot := by
          intro found
          obtain ⟨stored, present, -⟩ := (indexed.index hash block.slot).mp found
          rw [free] at present
          cases present
        simp [sameHash, elsewhere]
    · rw [if_neg sameSlot]
      by_cases sameHash : block.hash = hash
      · subst sameHash
        have nowhere : ¬ ∃ stored, memory.bySlot[slot]? = some stored ∧ stored.hash = block.hash := by
          rintro ⟨stored, present, same⟩
          exact sameSlot (unique slot stored present same).symm
        simp [sameSlot, nowhere]
      · rw [if_neg sameHash]
        exact indexed.index hash slot

theorem putBlock_agrees {stores : Stores} (agree : Agree stores) {block : StoredBlock}
    (unique : stores.KeepsHashesUnique (.putBlock block)) :
    (stores.memory.putBlock block).1 = (stores.persistent.putBlock block).1 ∧
      Agree ⟨(stores.memory.putBlock block).2, (stores.persistent.putBlock block).2⟩ := by
  simp only [InMemoryChainDb.putBlock, PersistentChainDb.putBlock, agree.blocks_getD,
    agree.hashes_getD, agree.bySlot_getD]
  cases present : stores.memory.bySlot[block.slot]? with
  | none =>
      have absent : (bytesTable stores.memory).contains block.slot = false := by
        rw [Bool.eq_false_iff, Ne, ExtTreeMap.contains_iff_mem, ExtTreeMap.mem_iff_isSome_getElem?]
        simp [bytesTable, present]
      simp only [absent, Bool.false_eq_true, if_false]
      refine ⟨trivial, putBlock_indexed agree.indexed present unique, .inr ⟨?_, rfl, ?_⟩⟩
      · exact congrArg some (BTreeMap.map_insert _ _ _ _).symm
      · exact congrArg some (BTreeMap.map_insert _ _ _ _).symm
  | some existing =>
      have occupied : (bytesTable stores.memory).contains block.slot = true := by
        rw [ExtTreeMap.contains_iff_mem, ExtTreeMap.mem_iff_isSome_getElem?]
        simp [bytesTable, present]
      have created := agree.created_of_present present
      simp only [occupied, scanForSlot_eq agree.indexed present, if_true]
      by_cases same : existing.hash = block.hash
      · simp only [same, ne_eq, not_true_eq_false, if_false, if_true]
        exact ⟨trivial, agree.indexed, .inr ⟨rfl, rfl, created.bySlot⟩⟩
      · simp only [same, ne_eq, not_false_eq_true, if_true, Option.some.injEq, if_false]
        exact ⟨trivial, agree⟩

theorem removeBlock_lookup {memory : InMemoryChainDb} (indexed : WellIndexed memory) (slot : SlotNo) :
    (∀ k : SlotNo, (memory.removeBlock slot).bySlot[k]? =
      if k = slot then none else memory.bySlot[k]?) ∧
    (∀ hash : Hash32, (memory.removeBlock slot).byHash[hash]? =
      if memory.byHash[hash]? = some slot then none else memory.byHash[hash]?) := by
  unfold InMemoryChainDb.removeBlock
  cases present : memory.bySlot[slot]? with
  | none =>
      constructor
      · intro k
        by_cases same : k = slot
        · simp [same, present]
        · simp [same]
      · intro hash
        have elsewhere : memory.byHash[hash]? ≠ some slot := by
          intro found
          obtain ⟨block, stored, -⟩ := (indexed.index hash slot).mp found
          rw [present] at stored
          cases stored
        simp [elsewhere]
  | some block =>
      constructor
      · intro k
        rw [BTreeMap.getElem?_erase]
        simp [eq_comm]
      · intro hash
        have named : memory.byHash[hash]? = some slot ↔ block.hash = hash := by
          rw [indexed.index hash slot, present]
          simp
        rw [BTreeMap.getElem?_erase]
        simp [named]

theorem wellIndexed_of_lookup {memory next : InMemoryChainDb} (indexed : WellIndexed memory)
    {keys : List SlotNo}
    (blocks : ∀ k : SlotNo, next.bySlot[k]? = if k ∈ keys then none else memory.bySlot[k]?)
    (hashes : ∀ hash : Hash32, next.byHash[hash]? =
      memory.byHash[hash]?.bind fun slot => if slot ∈ keys then none else some slot) :
    WellIndexed next := by
  constructor
  · intro slot block found
    rw [blocks] at found
    split_ifs at found
    exact indexed.slots slot block found
  · intro hash slot
    rw [hashes, blocks, Option.bind_eq_some_iff]
    constructor
    · rintro ⟨held, found, kept⟩
      split_ifs at kept with removed
      cases kept
      rw [if_neg removed]
      exact (indexed.index hash slot).mp found
    · intro stored
      split_ifs at stored with removed
      · simp at stored
      · exact ⟨slot, (indexed.index hash slot).mpr stored, if_neg removed⟩

theorem removeAll_lookup {memory : InMemoryChainDb} (indexed : WellIndexed memory)
    (keys : List SlotNo) :
    (∀ k : SlotNo, (keys.foldl InMemoryChainDb.removeBlock memory).bySlot[k]? =
      if k ∈ keys then none else memory.bySlot[k]?) ∧
    (∀ hash : Hash32, (keys.foldl InMemoryChainDb.removeBlock memory).byHash[hash]? =
      memory.byHash[hash]?.bind fun slot => if slot ∈ keys then none else some slot) := by
  induction keys generalizing memory with
  | nil => simp
  | cons slot keys ih =>
      obtain ⟨blocks, hashes⟩ := removeBlock_lookup indexed slot
      have oneKey : ∀ hash : Hash32, (memory.removeBlock slot).byHash[hash]? =
          memory.byHash[hash]?.bind fun other => if other ∈ [slot] then none else some other := by
        intro hash
        rw [hashes]
        cases memory.byHash[hash]? with
        | none => simp
        | some other =>
            by_cases same : other = slot
            · simp [same]
            · simp [same]
      have indexed' : WellIndexed (memory.removeBlock slot) :=
        wellIndexed_of_lookup indexed (by simpa using blocks) oneKey
      obtain ⟨restBlocks, restHashes⟩ := ih indexed'
      constructor
      · intro k
        rw [List.foldl_cons, restBlocks, blocks]
        by_cases here : k = slot
        · simp [here]
        · simp [here]
      · intro hash
        rw [List.foldl_cons, restHashes, oneKey]
        cases memory.byHash[hash]? with
        | none => simp
        | some other =>
            by_cases same : other = slot
            · simp [same]
            · simp [same]

theorem keys_bytesTable (memory : InMemoryChainDb) : (bytesTable memory).keys = memory.bySlot.keys :=
  ExtTreeMap.keys_map

/-- Below the highest slot number `slot + 1` does not wrap. -/
theorem slot_succ_le_iff {slot : SlotNo} (top : slot.toNat ≠ 2 ^ 64 - 1) (key : SlotNo) :
    slot + 1 ≤ key ↔ slot < key := by
  have bound := slot.toNat_lt
  have next : (slot + 1).toNat = slot.toNat + 1 := by
    rw [UInt64.toNat_add, UInt64.toNat_one, Nat.mod_eq_of_lt (by omega)]
  rw [UInt64.le_iff_toNat_le, UInt64.lt_iff_toNat_lt, next]
  exact Nat.succ_le_iff

theorem removedKeys_eq {memory : InMemoryChainDb} {slot : SlotNo}
    (avoids : slot.toNat = 2 ^ 64 - 1 → memory.bySlot = ∅) :
    memory.bySlot.keys.filter (fun key => slot + 1 ≤ key) =
      memory.bySlot.keys.filter (fun key => slot < key) := by
  by_cases top : slot.toNat = 2 ^ 64 - 1
  · have noKeys : memory.bySlot.keys = [] := by
      rw [avoids top]
      exact ExtTreeMap.keys_eq_nil_iff.mpr rfl
    simp [noKeys]
  · apply List.filter_congr
    intro key _
    rw [decide_eq_decide]
    exact slot_succ_le_iff top key

theorem mem_removedKeys {memory : InMemoryChainDb} {slot k : SlotNo} :
    k ∈ memory.bySlot.keys.filter (fun key => slot < key) ↔
      (memory.bySlot[k]?).isSome ∧ slot < k := by
  rw [List.mem_filter, BTreeMap.mem_keys, decide_eq_true_eq]

theorem rollbackToSlot_memory {memory : InMemoryChainDb} (indexed : WellIndexed memory)
    (slot k : SlotNo) :
    (memory.rollbackToSlot slot).2.bySlot[k]? = if k ≤ slot then memory.bySlot[k]? else none := by
  simp only [InMemoryChainDb.rollbackToSlot]
  rw [(removeAll_lookup indexed _).1]
  simp only [mem_removedKeys]
  by_cases kept : k ≤ slot
  · have notAbove : ¬ slot < k := UInt64.not_lt.mpr kept
    simp [kept, notAbove]
  · have above : slot < k := UInt64.not_le.mp kept
    cases present : memory.bySlot[k]? <;> simp [kept, above]

theorem hashesToRemove_eq {memory : InMemoryChainDb} (toRemove : List SlotNo) (hash : Hash32) :
    hash ∈ (memory.byHash.toList.filter fun entry => toRemove.contains entry.2).map Prod.fst ↔
      ∃ slot ∈ toRemove, memory.byHash[hash]? = some slot := by
  rw [List.mem_map]
  constructor
  · rintro ⟨entry, member, rfl⟩
    obtain ⟨listed, removed⟩ := List.mem_filter.mp member
    exact ⟨entry.2, by simpa using removed, BTreeMap.mem_toList.mp listed⟩
  · rintro ⟨slot, removed, found⟩
    exact ⟨(hash, slot), List.mem_filter.mpr ⟨BTreeMap.mem_toList.mpr found, by simpa using removed⟩,
      rfl⟩

theorem rollbackToSlot_agrees {stores : Stores} (agree : Agree stores) {slot : SlotNo}
    (avoids : stores.AvoidsTopSlot (.rollbackToSlot slot)) :
    (stores.memory.rollbackToSlot slot).1 = (stores.persistent.rollbackToSlot slot).1 ∧
      Agree ⟨(stores.memory.rollbackToSlot slot).2, (stores.persistent.rollbackToSlot slot).2⟩ := by
  simp only [InMemoryChainDb.rollbackToSlot, PersistentChainDb.rollbackToSlot, agree.blocks_getD,
    agree.hashes_getD, agree.bySlot_getD, keys_bytesTable, removedKeys_eq avoids]
  generalize stores.memory.bySlot.keys.filter (fun key => slot < key) = toRemove
  obtain ⟨blocks, hashes⟩ := removeAll_lookup agree.indexed toRemove
  refine ⟨trivial, wellIndexed_of_lookup agree.indexed blocks hashes, .inr ⟨?_, ?_, ?_⟩⟩
  · apply congrArg some
    apply ExtTreeMap.ext_getElem?
    intro k
    rw [BTreeMap.getElem?_foldl_erase, bytesTable, bytesTable, ExtTreeMap.getElem?_map,
      ExtTreeMap.getElem?_map, blocks]
    split_ifs <;> rfl
  · apply congrArg some
    apply ExtTreeMap.ext_getElem?
    intro hash
    rw [BTreeMap.getElem?_foldl_erase, hashes]
    simp only [hashesToRemove_eq]
    cases stores.memory.byHash[hash]? with
    | none => simp
    | some held => simp
  · apply congrArg some
    apply ExtTreeMap.ext_getElem?
    intro k
    rw [BTreeMap.getElem?_foldl_erase, hashTable, hashTable, ExtTreeMap.getElem?_map,
      ExtTreeMap.getElem?_map, blocks]
    split_ifs <;> rfl

/-! ## Runs -/

theorem call_agrees {stores : Stores} (agree : Agree stores) {request : ChainDbCall}
    (unique : stores.KeepsHashesUnique request) (avoids : stores.AvoidsTopSlot request) :
    (stores.memory.call request).1 = (stores.persistent.call request).1 ∧
      Agree (stores.call request) := by
  cases request with
  | putBlock block =>
      obtain ⟨same, agree'⟩ := putBlock_agrees agree unique
      exact ⟨congrArg (Except.map fun _ => ChainDbReply.done) same, agree'⟩
  | getBlockByHash hash =>
      exact ⟨congrArg (Except.map ChainDbReply.block) (getBlockByHash_agrees agree hash), agree⟩
  | getBlockBySlot slot =>
      exact ⟨congrArg (Except.map ChainDbReply.block) (getBlockBySlot_agrees agree slot), agree⟩
  | tip => exact ⟨congrArg (Except.map ChainDbReply.tip) (tip_agrees agree), agree⟩
  | iterFromSlot start =>
      exact ⟨congrArg (Except.map ChainDbReply.blocks) (iterFromSlot_agrees agree start), agree⟩
  | rollbackToSlot slot =>
      obtain ⟨same, agree'⟩ := rollbackToSlot_agrees agree avoids
      exact ⟨congrArg (Except.map fun _ => ChainDbReply.done) same, agree'⟩

theorem run_agrees {calls : List ChainDbCall} {stores : Stores}
    (run : Run Stores.Step .new calls stores) : Agree stores := by
  apply run.invariant _ Agree.new
  rintro before request next ⟨unique, avoids, rfl⟩ agree
  exact (call_agrees agree unique avoids).2

theorem consistent_of_agree {stores : Stores} (agree : Agree stores) :
    stores.persistent.Consistent := by
  rcases agree.tables with absent | created
  · exact .inl ⟨absent.blocks, absent.hashes, absent.bySlot⟩
  · refine .inr ⟨_, _, _, created.blocks, created.hashes, created.bySlot, ?_, ?_⟩
    · intro slot
      rw [ExtTreeMap.mem_iff_isSome_getElem?, ExtTreeMap.mem_iff_isSome_getElem?]
      simp only [bytesTable, hashTable, ExtTreeMap.getElem?_map, Option.isSome_map]
    · intro slot hash
      rw [agree.indexed.index, hashTable, ExtTreeMap.getElem?_map, Option.map_eq_some_iff]

/-- After any run of calls the two stores answer the next call alike, the persistent tables stay
consistent, and a rollback leaves exactly the blocks up to its slot in both stores. -/
theorem stores_agree (calls : List ChainDbCall) (stores : Stores)
    (run : Run Stores.Step .new calls stores) (request : ChainDbCall)
    (unique : stores.KeepsHashesUnique request) (avoids : stores.AvoidsTopSlot request) :
    (stores.memory.call request).1 = (stores.persistent.call request).1 ∧
      (stores.persistent.call request).2.Consistent ∧
      ∀ slot, request = .rollbackToSlot slot →
        (stores.persistent.call request).1 = .ok .done ∧
        ∀ k, (stores.call request).persistent.getBlockBySlot k =
            (if k ≤ slot then stores.persistent.getBlockBySlot k else .ok none) ∧
          (stores.call request).memory.getBlockBySlot k =
            (if k ≤ slot then stores.memory.getBlockBySlot k else .ok none) := by
  have agree := run_agrees run
  obtain ⟨same, agree'⟩ := call_agrees agree unique avoids
  refine ⟨same, consistent_of_agree agree', ?_⟩
  rintro slot rfl
  refine ⟨rfl, fun k => ?_⟩
  have memory : (stores.call (.rollbackToSlot slot)).memory.getBlockBySlot k =
      (if k ≤ slot then stores.memory.getBlockBySlot k else .ok none) := by
    show Except.ok (stores.memory.rollbackToSlot slot).2.bySlot[k]? = _
    rw [rollbackToSlot_memory agree.indexed, InMemoryChainDb.getBlockBySlot]
    split_ifs <;> rfl
  refine ⟨?_, memory⟩
  rw [← getBlockBySlot_agrees agree' k, memory, getBlockBySlot_agrees agree k]

def sampleStored : StoredBlock := ⟨Vector.replicate 32 1, 5, [0x80]⟩

theorem stores_agree_on_rollback :
    ((Stores.new.call (.putBlock sampleStored)).memory.call (.rollbackToSlot 3)).1 =
      ((Stores.new.call (.putBlock sampleStored)).persistent.call (.rollbackToSlot 3)).1 := by
  refine (stores_agree [.putBlock sampleStored] _ (.cons ⟨?_, trivial, rfl⟩ (.nil _))
    (.rollbackToSlot 3) trivial ?_).1
  · intro slot stored found
    simp [Stores.new, InMemoryChainDb.new] at found
  · intro top
    simp at top

/-- Rolling back to the highest slot number keeps the block in memory and deletes it on disk. -/
theorem rollbackToSlot_top_diverges :
    ((Stores.new.call (.putBlock sampleStored)).call
        (.rollbackToSlot 18446744073709551615)).memory.getBlockBySlot 5 = .ok (some sampleStored) ∧
      ((Stores.new.call (.putBlock sampleStored)).call
        (.rollbackToSlot 18446744073709551615)).persistent.getBlockBySlot 5 = .ok none := by
  constructor <;> rfl

end Ade.Proof.ChainDb
