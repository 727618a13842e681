import Ade.ChainDb.Store
import Ade.Library.Except

namespace Ade.Proof.ChainDb
open Std (ExtTreeMap)
open Library Ade.ChainDb

/-- The hash index of the in-memory store inverts its blocks. -/
structure WellIndexed (memory : InMemoryChainDb) : Prop where
  slots : ∀ (slot : SlotNo) block, memory.bySlot[slot]? = some block → block.slot = slot
  index : ∀ (hash : Hash32) (slot : SlotNo), memory.byHash[hash]? = some slot ↔
    ∃ block, memory.bySlot[slot]? = some block ∧ block.hash = hash

def bytesTable (memory : InMemoryChainDb) : BTreeMap SlotNo Bytes :=
  memory.bySlot.map fun _ block => block.bytes

def hashTable (memory : InMemoryChainDb) : BTreeMap SlotNo Hash32 :=
  memory.bySlot.map fun _ block => block.hash

structure Created (memory : InMemoryChainDb) (persistent : PersistentChainDb) : Prop where
  blocks : persistent.blocksBySlot = some (bytesTable memory)
  hashes : persistent.slotByHash = some memory.byHash
  bySlot : persistent.hashBySlot = some (hashTable memory)

structure Absent (memory : InMemoryChainDb) (persistent : PersistentChainDb) : Prop where
  blocks : persistent.blocksBySlot = none
  hashes : persistent.slotByHash = none
  bySlot : persistent.hashBySlot = none
  noBlocks : memory.bySlot = ∅
  noHashes : memory.byHash = ∅

structure Agree (stores : Stores) : Prop where
  indexed : WellIndexed stores.memory
  tables : Absent stores.memory stores.persistent ∨ Created stores.memory stores.persistent

theorem map_empty {W : Type} (f : SlotNo → StoredBlock → W) :
    (∅ : BTreeMap SlotNo StoredBlock).map f = ∅ := by
  apply ExtTreeMap.ext_getElem?
  simp

namespace Agree

variable {stores : Stores}

theorem new : Agree .new where
  indexed := by
    constructor
    · intro slot block found
      simp [Stores.new, InMemoryChainDb.new] at found
    · intro hash slot
      simp [Stores.new, InMemoryChainDb.new]
  tables := .inl ⟨rfl, rfl, rfl, rfl, rfl⟩

theorem blocks_getD (agree : Agree stores) :
    stores.persistent.blocksBySlot.getD ∅ = bytesTable stores.memory := by
  rcases agree.tables with absent | created
  · rw [absent.blocks, bytesTable, absent.noBlocks, map_empty, Option.getD_none]
  · rw [created.blocks, Option.getD_some]

theorem hashes_getD (agree : Agree stores) :
    stores.persistent.slotByHash.getD ∅ = stores.memory.byHash := by
  rcases agree.tables with absent | created
  · rw [absent.hashes, absent.noHashes, Option.getD_none]
  · rw [created.hashes, Option.getD_some]

theorem bySlot_getD (agree : Agree stores) :
    stores.persistent.hashBySlot.getD ∅ = hashTable stores.memory := by
  rcases agree.tables with absent | created
  · rw [absent.bySlot, hashTable, absent.noBlocks, map_empty, Option.getD_none]
  · rw [created.bySlot, Option.getD_some]

theorem blocks_lookup (agree : Agree stores) (slot : SlotNo) :
    (stores.persistent.blocksBySlot.bind fun blocks => blocks[slot]?) =
      stores.memory.bySlot[slot]?.map StoredBlock.bytes := by
  rcases agree.tables with absent | created
  · simp [absent.blocks, absent.noBlocks]
  · simp [created.blocks, bytesTable]

theorem hashes_lookup (agree : Agree stores) (hash : Hash32) :
    (stores.persistent.slotByHash.bind fun hashes => hashes[hash]?) =
      stores.memory.byHash[hash]? := by
  rcases agree.tables with absent | created
  · simp [absent.hashes, absent.noHashes]
  · simp [created.hashes]

theorem created_of_present (agree : Agree stores) {slot : SlotNo} {block : StoredBlock}
    (present : stores.memory.bySlot[slot]? = some block) :
    Created stores.memory stores.persistent := by
  rcases agree.tables with absent | created
  · rw [absent.noBlocks] at present
    simp at present
  · exact created

end Agree

theorem scanForSlot_eq {memory : InMemoryChainDb} (indexed : WellIndexed memory) {slot : SlotNo}
    {block : StoredBlock} (present : memory.bySlot[slot]? = some block) :
    PersistentChainDb.scanForSlot memory.byHash slot = some block.hash := by
  unfold PersistentChainDb.scanForSlot
  cases found : memory.byHash.toList.find? (fun entry => entry.2 = slot) with
  | none =>
      have listed : (block.hash, slot) ∈ memory.byHash.toList :=
        BTreeMap.mem_toList.mpr ((indexed.index block.hash slot).mpr ⟨block, present, rfl⟩)
      have missed := List.find?_eq_none.mp found _ listed
      simp at missed
  | some entry =>
      have sameSlot : entry.2 = slot := by simpa using List.find?_some found
      have listed := BTreeMap.mem_toList.mp (List.mem_of_find?_eq_some found)
      rw [sameSlot] at listed
      obtain ⟨other, otherPresent, sameHash⟩ := (indexed.index entry.1 slot).mp listed
      rw [present] at otherPresent
      cases otherPresent
      simp [sameHash]

theorem hashForSlot_eq {stores : Stores} (agree : Agree stores) {slot : SlotNo}
    {block : StoredBlock} (present : stores.memory.bySlot[slot]? = some block) :
    stores.persistent.hashForSlot slot = some block.hash := by
  have created := agree.created_of_present present
  simp [PersistentChainDb.hashForSlot, created.bySlot, hashTable, present]

/-! ## Reads agree -/

theorem getBlockByHash_agrees {stores : Stores} (agree : Agree stores) (hash : Hash32) :
    stores.memory.getBlockByHash hash = stores.persistent.getBlockByHash hash := by
  unfold InMemoryChainDb.getBlockByHash PersistentChainDb.getBlockByHash
  rw [agree.hashes_lookup]
  cases found : stores.memory.byHash[hash]? with
  | none => rfl
  | some slot =>
      obtain ⟨block, present, rfl⟩ := (agree.indexed.index hash slot).mp found
      obtain rfl := agree.indexed.slots slot block present
      simp only [agree.blocks_lookup, present, Option.bind_some, Option.map_some]

theorem getBlockBySlot_agrees {stores : Stores} (agree : Agree stores) (slot : SlotNo) :
    stores.memory.getBlockBySlot slot = stores.persistent.getBlockBySlot slot := by
  unfold InMemoryChainDb.getBlockBySlot PersistentChainDb.getBlockBySlot
  rw [agree.blocks_lookup]
  cases present : stores.memory.bySlot[slot]? with
  | none => rfl
  | some block =>
      obtain rfl := agree.indexed.slots slot block present
      simp only [hashForSlot_eq agree present, Option.map_some]

theorem tip_agrees {stores : Stores} (agree : Agree stores) :
    stores.memory.tip = stores.persistent.tip := by
  unfold InMemoryChainDb.tip PersistentChainDb.tip
  have lastKey : (stores.persistent.blocksBySlot.bind fun blocks => blocks.keys.getLast?) =
      stores.memory.bySlot.toList.getLast?.map Prod.fst := by
    rw [← List.getLast?_map, ExtTreeMap.map_fst_toList_eq_keys]
    rcases agree.tables with absent | created
    · have noKeys : (∅ : BTreeMap SlotNo StoredBlock).keys = [] :=
        ExtTreeMap.keys_eq_nil_iff.mpr rfl
      simp [absent.blocks, absent.noBlocks, noKeys]
    · simp [created.blocks, bytesTable]
  rw [lastKey]
  cases last : stores.memory.bySlot.toList.getLast? with
  | none => rfl
  | some entry =>
      have present := BTreeMap.mem_toList.mp (List.mem_of_getLast? last)
      have sameSlot := agree.indexed.slots _ _ present
      simp [hashForSlot_eq agree present, sameSlot]

theorem iterFromSlot_agrees {stores : Stores} (agree : Agree stores) (start : SlotNo) :
    stores.memory.iterFromSlot start = stores.persistent.iterFromSlot start := by
  unfold InMemoryChainDb.iterFromSlot PersistentChainDb.iterFromSlot
  rcases agree.tables with absent | created
  · have noEntries : (∅ : BTreeMap SlotNo StoredBlock).toList = [] := by
      simp
    simp [absent.blocks, absent.noBlocks, noEntries]
  · simp only [created.blocks, created.hashes, created.bySlot]
    rw [bytesTable, ExtTreeMap.toList_map, List.filter_map]
    -- Each stored pair is indexed under its own slot, so the loop never fails.
    have each : ∀ entry ∈ (stores.memory.bySlot.toList.filter fun entry => start ≤ entry.1),
        PersistentChainDb.indexedBlock (some (hashTable stores.memory)) stores.memory.byHash
          (entry.1, entry.2.bytes) = .ok entry.2 := by
      intro entry member
      rcases entry with ⟨slot, block⟩
      have present : stores.memory.bySlot[slot]? = some block :=
        BTreeMap.mem_toList.mp (List.mem_filter.mp member).1
      obtain rfl := agree.indexed.slots slot block present
      simp [PersistentChainDb.indexedBlock, hashTable, present]
    rw [List.mapM_map]
    exact (mapM_ok Prod.snd _ each).symm

end Ade.Proof.ChainDb
