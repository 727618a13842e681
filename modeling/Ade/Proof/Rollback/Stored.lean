import Ade.Proof.ChainDb.Store
import Ade.Proof.Rollback.Chain

namespace Ade.Proof.Rollback
open Std (ExtTreeMap)
open Library Ade.ChainDb Ade.Consensus Ade.Rollback ChainDb

variable {Ledger Failure : Type} {rules : Rules Ledger Failure} {origin : Origin Ledger}

/-- The store holds exactly the blocks of the chain. -/
structure StoresChain (db : PersistentChainDb) (chain : List (Admission Ledger)) : Prop where
  blocks : ∀ (slot : SlotNo) (bytes : Bytes), (db.blocksBySlot.getD ∅)[slot]? = some bytes ↔
    ∃ admission ∈ chain, admission.block.slot = slot ∧ admission.block.bytes = bytes
  indexed : ∀ slot : SlotNo, ((db.blocksBySlot.getD ∅)[slot]?).isSome →
    ((db.hashBySlot.getD ∅)[slot]?).isSome
  created : db.blocksBySlot.isSome → db.slotByHash.isSome

theorem storesChain_of_tables {db other : PersistentChainDb} {chain : List (Admission Ledger)}
    (stored : StoresChain db chain) (blocks : other.blocksBySlot = db.blocksBySlot)
    (hashes : other.slotByHash = db.slotByHash) (bySlot : other.hashBySlot = db.hashBySlot) :
    StoresChain other chain := by
  constructor
  · rw [blocks]
    exact stored.blocks
  · rw [blocks, bySlot]
    exact stored.indexed
  · rw [blocks, hashes]
    exact stored.created

theorem putBlock_storesChain {db : PersistentChainDb} {chain : List (Admission Ledger)}
    (linked : Linked rules origin chain) (stored : StoresChain db chain)
    {admission : Admission Ledger} (later : slotOf origin chain < admission.block.slot) :
    StoresChain (db.putBlock admission.block).2 (admission :: chain) := by
  have free : ∀ other ∈ chain, other.block.slot ≠ admission.block.slot := by
    intro other member same
    have below := UInt64.lt_of_le_of_lt (slot_le_slotOf linked member) later
    rw [same] at below
    exact UInt64.lt_irrefl _ below
  have absent : (db.blocksBySlot.getD ∅).contains admission.block.slot = false := by
    rw [Bool.eq_false_iff, Ne, ExtTreeMap.contains_iff_mem, ExtTreeMap.mem_iff_isSome_getElem?]
    intro present
    obtain ⟨bytes, found⟩ := Option.isSome_iff_exists.mp present
    obtain ⟨other, member, same, -⟩ := (stored.blocks _ bytes).mp found
    exact free other member same
  simp only [PersistentChainDb.putBlock, absent, Bool.false_eq_true, if_false]
  constructor
  · intro slot bytes
    simp only [Option.getD_some]
    rw [BTreeMap.getElem?_insert]
    by_cases same : admission.block.slot = slot
    · subst same
      constructor
      · intro found
        rw [if_pos rfl] at found
        cases found
        exact ⟨admission, List.mem_cons_self .., rfl, rfl⟩
      · rintro ⟨other, member, sameSlot, rfl⟩
        rcases List.mem_cons.mp member with rfl | member
        · exact if_pos rfl
        · exact absurd sameSlot (free other member)
    · rw [if_neg same, stored.blocks]
      simp [same]
  · intro slot
    simp only [Option.getD_some]
    rw [BTreeMap.getElem?_insert, BTreeMap.getElem?_insert]
    split_ifs
    · simp
    · exact stored.indexed slot
  · simp

theorem rollbackToSlot_storesChain {db : PersistentChainDb} {chain : List (Admission Ledger)}
    (stored : StoresChain db chain) {slot : SlotNo} (notTop : slot.toNat ≠ 2 ^ 64 - 1) :
    StoresChain (db.rollbackToSlot slot).2 (upTo slot chain) := by
  have removed : ∀ key : SlotNo,
      key ∈ (db.blocksBySlot.getD ∅).keys.filter (fun key => slot + 1 ≤ key) ↔
        ((db.blocksBySlot.getD ∅)[key]?).isSome ∧ slot < key := by
    intro key
    rw [List.mem_filter, BTreeMap.mem_keys, decide_eq_true_eq, slot_succ_le_iff notTop]
  constructor
  · intro key bytes
    simp only [PersistentChainDb.rollbackToSlot, Option.getD_some]
    rw [BTreeMap.getElem?_foldl_erase]
    simp only [removed]
    by_cases above : slot < key
    · constructor
      · intro found
        split_ifs at found with gone
        simp [above, found] at gone
      · rintro ⟨admission, member, rfl, rfl⟩
        have kept := (Iff.mp mem_upTo member).2
        exact absurd kept (UInt64.not_le.mpr above)
    · have below := UInt64.not_lt.mp above
      rw [if_neg (fun gone => above gone.2), stored.blocks]
      constructor
      · rintro ⟨admission, member, rfl, rfl⟩
        exact ⟨admission, Iff.mpr mem_upTo ⟨member, below⟩, rfl, rfl⟩
      · rintro ⟨admission, member, rfl, rfl⟩
        exact ⟨admission, (Iff.mp mem_upTo member).1, rfl, rfl⟩
  · intro key
    simp only [PersistentChainDb.rollbackToSlot, Option.getD_some]
    rw [BTreeMap.getElem?_foldl_erase, BTreeMap.getElem?_foldl_erase]
    split_ifs
    · simp
    · exact stored.indexed key
  · simp [PersistentChainDb.rollbackToSlot]

/-! ## Reading the blocks of a segment -/

/-- On an ordered list, the entries before the first large one are all the small ones. -/
theorem takeWhile_eq_filter_of_ordered {α : Type} {small : α → Bool} {items : List α}
    (ordered : items.Pairwise fun first second => small second → small first) :
    items.takeWhile small = items.filter small := by
  induction ordered with
  | nil => rfl
  | @cons item items below ordered ih =>
      by_cases fits : small item
      · rw [List.takeWhile_cons_of_pos fits, List.filter_cons_of_pos fits, ih]
      · rw [List.takeWhile_cons_of_neg fits, List.filter_cons_of_neg fits]
        symm
        apply List.filter_eq_nil_iff.mpr
        intro other member fitsOther
        exact fits (below other member fitsOther)

theorem iterFromSlot_stored {db : PersistentChainDb} {chain : List (Admission Ledger)}
    (stored : StoresChain db chain) (start : SlotNo) :
    ∃ blocks, db.iterFromSlot start = .ok blocks ∧
      blocks.map (fun block => (block.slot, block.bytes)) =
        (db.blocksBySlot.getD ∅).toList.filter fun entry => start ≤ entry.1 := by
  unfold PersistentChainDb.iterFromSlot
  have indexed := stored.indexed
  have created := stored.created
  cases tables : db.blocksBySlot with
  | none =>
      have noEntries : (∅ : BTreeMap SlotNo Bytes).toList = [] := by simp
      exact ⟨[], rfl, by simp [noEntries]⟩
  | some blocks =>
      rw [tables] at indexed created
      obtain ⟨hashes, hashed⟩ := Option.isSome_iff_exists.mp (created rfl)
      simp only [hashed, Option.getD_some] at indexed ⊢
      let block (entry : SlotNo × Bytes) : StoredBlock :=
        ⟨((db.hashBySlot.getD ∅)[entry.1]?).getD default, entry.1, entry.2⟩
      have each : ∀ entry ∈ (blocks.toList.filter fun entry => start ≤ entry.1),
          PersistentChainDb.indexedBlock db.hashBySlot hashes entry = .ok (block entry) := by
        intro entry member
        have present := BTreeMap.mem_toList.mp (List.mem_filter.mp member).1
        have found := indexed entry.1 (by rw [present]; rfl)
        obtain ⟨hash, found⟩ := Option.isSome_iff_exists.mp found
        cases index : db.hashBySlot with
        | none => simp [index] at found
        | some bySlot =>
            simp only [index, Option.getD_some] at found
            simp [PersistentChainDb.indexedBlock, block, index, found]
      refine ⟨_, mapM_ok block _ each, ?_⟩
      rw [List.map_map]
      exact List.map_id _

def entryOf (admission : Admission Ledger) : SlotNo × Bytes :=
  (admission.block.slot, admission.block.bytes)

/-- A strictly ascending list of entries is determined by its members. -/
theorem eq_of_ascending {entries others : List (SlotNo × Bytes)}
    (ascending : entries.Pairwise fun first second => first.1 < second.1)
    (otherAscending : others.Pairwise fun first second => first.1 < second.1)
    (same : ∀ entry, entry ∈ entries ↔ entry ∈ others) : entries = others := by
  have antisymm : Std.Antisymm (fun first second : SlotNo × Bytes => first.1 < second.1) :=
    ⟨fun first second below above => absurd above (UInt64.lt_asymm below)⟩
  have irrefl : Std.Irrefl (fun first second : SlotNo × Bytes => first.1 < second.1) :=
    ⟨fun entry below => UInt64.lt_irrefl _ below⟩
  exact List.Pairwise.eq_of_mem_iff ascending otherAscending same

theorem blocksInRange_eq_segment {db : PersistentChainDb} {chain : List (Admission Ledger)}
    (linked : Linked rules origin chain) (stored : StoresChain db chain) {after upper : SlotNo}
    (ordered : after < upper) :
    blocksInRange db after upper = ((segment after upper chain).map entryOf).reverse := by
  have notTop : after.toNat ≠ 2 ^ 64 - 1 := by
    have bound := upper.toNat_lt
    have below := UInt64.lt_iff_toNat_lt.mp ordered
    omega
  have start : saturatingSucc after = after + 1 := if_neg notTop
  obtain ⟨blocks, read, listed⟩ := iterFromSlot_stored stored (after + 1)
  have ascending : ((db.blocksBySlot.getD ∅).toList.filter fun entry => after + 1 ≤ entry.1).Pairwise
      (fun first second => first.1 < second.1) := by
    apply List.Pairwise.filter
    apply ExtTreeMap.ordered_keys_toList.imp
    intro first second less
    exact Std.compare_eq_lt.mp less
  have inRange : blocksInRange db after upper =
      ((db.blocksBySlot.getD ∅).toList.filter fun entry => after + 1 ≤ entry.1).filter
        fun entry => entry.1 ≤ upper := by
    rw [← takeWhile_eq_filter_of_ordered, ← listed, List.takeWhile_map]
    · simp only [blocksInRange, start, read]
      rfl
    · apply ascending.imp
      intro first second below fits
      simp only [decide_eq_true_eq] at fits ⊢
      exact UInt64.le_trans (UInt64.le_of_lt below) fits
  rw [inRange]
  apply eq_of_ascending (ascending.filter _)
  · rw [List.pairwise_reverse, List.pairwise_map]
    exact (linked_descending linked).filter _
  · rintro ⟨slot, bytes⟩
    simp only [List.mem_filter, BTreeMap.mem_toList, stored.blocks, decide_eq_true_eq,
      slot_succ_le_iff notTop, List.mem_reverse, List.mem_map, mem_segment, entryOf, Prod.mk.injEq]
    constructor
    · rintro ⟨⟨⟨admission, member, rfl, rfl⟩, above⟩, below⟩
      exact ⟨admission, ⟨member, above, below⟩, rfl, rfl⟩
    · rintro ⟨admission, ⟨member, above, below⟩, rfl, rfl⟩
      exact ⟨⟨⟨admission, member, rfl, rfl⟩, above⟩, below⟩

/-! ## Replaying a segment -/

theorem replayForward_append (rules : Rules Ledger Failure) (targetSlot : SlotNo)
    (entries more : List (SlotNo × Bytes)) (state : Ledger × PraosChainDepState) :
    replayForward rules targetSlot (entries ++ more) state =
      replayForward rules targetSlot entries state >>= replayForward rules targetSlot more := by
  induction entries generalizing state with
  | nil => rfl
  | cons entry entries ih =>
      simp only [List.cons_append, replayForward]
      cases replayBlock rules targetSlot entry state with
      | error failure => rfl
      | ok next => exact ih next

theorem replayBlock_accepted {targetSlot : SlotNo} {entry : SlotNo × Bytes}
    {before after replayed : Ledger × PraosChainDepState}
    (trusted : rules.trustedReplay targetSlot before.1 before.2 entry.2 = .ok after)
    (returned : replayBlock rules targetSlot entry before = .ok replayed) : replayed = after := by
  unfold replayBlock at returned
  cases era : rules.envelopeEra entry.2 with
  | error failure => simp [era] at returned
  | ok era' =>
      simp only [era, trusted] at returned
      split_ifs at returned
      cases returned
      rfl

theorem replayForward_segment (trusted : ∀ target ledger chainDep block state,
      rules.validate ledger chainDep block = .ok state →
        rules.trustedReplay target ledger chainDep block = .ok state)
    {targetSlot : SlotNo} {above base : List (Admission Ledger)}
    (linked : Linked rules origin (above ++ base)) {state : Ledger × PraosChainDepState}
    (returned : replayForward rules targetSlot (above.map entryOf).reverse (stateOf origin base) =
      .ok state) : state = stateOf origin (above ++ base) := by
  induction above generalizing state with
  | nil =>
      cases returned
      rfl
  | cons newest above ih =>
      cases linked with
      | cons accepted later settled below =>
          rw [List.map_cons, List.reverse_cons, replayForward_append] at returned
          cases prior : replayForward rules targetSlot (above.map entryOf).reverse
              (stateOf origin base) with
          | error failure =>
              rw [prior] at returned
              cases returned
          | ok middle =>
              obtain rfl := ih below prior
              rw [prior] at returned
              change (replayBlock rules targetSlot (entryOf newest)
                (stateOf origin (above ++ base)) >>= pure) = .ok state at returned
              rw [bind_pure] at returned
              have replayed := trusted targetSlot _ _ _ _ accepted
              exact replayBlock_accepted replayed returned

end Ade.Proof.Rollback
