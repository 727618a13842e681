import Ade.Network.ServedChain
import Ade.Proof.ChainDb.Store

namespace Ade.Proof.Network
open Std (ExtTreeMap)
open Library Ade.Codec Ade.ChainDb Ade.Network Ade.Proof.ChainDb

variable {codec : BlockCodec} {memory : InMemoryChainDb}

/-! ## Either store serves the same -/

theorem toList_bytesTable (memory : InMemoryChainDb) :
    (bytesTable memory).toList = memory.bySlot.toList.map fun entry => (entry.1, entry.2.bytes) := by
  rw [bytesTable, ExtTreeMap.toList_map]

theorem rangeBytesCapped_agrees {stores : Stores} (agree : Agree stores) (from_ to_ : SlotNo)
    (max : Nat) : stores.memory.rangeBytesCapped from_ to_ max =
      stores.persistent.rangeBytesCapped from_ to_ max := by
  unfold InMemoryChainDb.rangeBytesCapped PersistentChainDb.rangeBytesCapped
  split_ifs with inverted
  · rfl
  · rcases agree.tables with absent | created
    · have noEntries : (∅ : BTreeMap SlotNo StoredBlock).toList = [] := by simp
      simp [absent.blocks, absent.noBlocks, noEntries, cappedRange]
    · simp only [created.blocks, toList_bytesTable]

theorem lastBlockBytes_agrees {stores : Stores} (agree : Agree stores) :
    stores.memory.lastBlockBytes = stores.persistent.lastBlockBytes := by
  unfold InMemoryChainDb.lastBlockBytes PersistentChainDb.lastBlockBytes
  rcases agree.tables with absent | created
  · have noEntries : (∅ : BTreeMap SlotNo StoredBlock).toList = [] := by simp
    simp [absent.blocks, absent.noBlocks, noEntries]
  · simp only [created.blocks, Option.bind_some, toList_bytesTable, List.getLast?_map]
    cases last : stores.memory.bySlot.toList.getLast? with
    | none => rfl
    | some entry =>
        have present := BTreeMap.mem_toList.mp (List.mem_of_getLast? last)
        simp [agree.indexed.slots _ _ present]

theorem reads_agree {stores : Stores} (agree : Agree stores) :
    stores.memory.reads = stores.persistent.reads := by
  simp only [InMemoryChainDb.reads, PersistentChainDb.reads, ChainDbReads.mk.injEq]
  exact ⟨funext (getBlockByHash_agrees agree),
    funext fun from_ => funext fun to_ => funext (rangeBytesCapped_agrees agree from_ to_),
    lastBlockBytes_agrees agree⟩

/-! ## Slots in order -/

theorem slots_ordered (memory : InMemoryChainDb) :
    memory.bySlot.toList.Pairwise fun earlier later => earlier.1 < later.1 :=
  memory.bySlot.ordered_keys_toList.imp Std.compare_eq_lt.mp

theorem le_maxSlot (slot : SlotNo) : slot ≤ maxSlot := by
  rw [UInt64.le_iff_toNat_le]
  have bound := slot.toNat_lt
  have top : maxSlot.toNat = 2 ^ 64 - 1 := rfl
  omega

theorem pastCursor_of_slot {cursor key : Ade.Point} (later : cursor.slot < key.slot) :
    pastCursor key (some cursor) := by
  have above : compare key.slot cursor.slot = .gt :=
    Std.OrientedCmp.gt_iff_lt.mpr (Std.compare_eq_lt.mpr later)
  show decide ((compareOn Ade.Point.slot key cursor).then _ = .gt) = true
  rw [compareOn, above]
  rfl

theorem slot_of_pastCursor {cursor key : Ade.Point} (past : pastCursor key (some cursor)) :
    cursor.slot < key.slot ∨ cursor.slot = key.slot ∧ key ≠ cursor := by
  have greater : compare key cursor = .gt := by simpa [pastCursor] using past
  have different : key ≠ cursor := by
    rintro rfl
    have same : compare key key = .eq := Std.ReflCmp.compare_self
    rw [same] at greater
    cases greater
  have split : (compareOn Ade.Point.slot key cursor).then
      (compareOn Ade.Point.hash key cursor) = .gt := greater
  rw [Ordering.then_eq_gt] at split
  rcases split with above | ⟨same, -⟩
  · exact .inl (Std.compare_eq_lt.mp (Std.OrientedCmp.gt_iff_lt.mp above))
  · exact .inr ⟨(Std.LawfulEqOrd.eq_of_compare same).symm, different⟩

/-! ## The stored chain -/

/-- Each block decodes to its own slot and hash and names the block below it as its parent. -/
structure WellLinked (codec : BlockCodec) (memory : InMemoryChainDb) : Prop where
  indexed : WellIndexed memory
  decodes : ∀ (slot : SlotNo) block, memory.bySlot[slot]? = some block →
    ∃ decoded, codec.decodeBlock block.bytes = .ok decoded ∧ decoded.slot = slot ∧
      decoded.blockHash = block.hash
  links : ∀ (lower upper : SlotNo) below above decoded, memory.bySlot[lower]? = some below →
    memory.bySlot[upper]? = some above → lower < upper →
    (∀ slot, lower < slot → slot < upper → memory.bySlot[slot]? = none) →
    codec.decodeBlock above.bytes = .ok decoded → decoded.prevHash = .block below.hash

theorem new_wellLinked : WellLinked codec .new where
  indexed := Agree.new.indexed
  decodes := by
    intro slot block found
    simp [InMemoryChainDb.new] at found
  links := by
    intro lower upper below above decoded found
    simp [InMemoryChainDb.new] at found

theorem tip_of_highest {slot : SlotNo} {block : StoredBlock}
    (found : memory.bySlot[slot]? = some block)
    (highest : ∀ other stored, memory.bySlot[other]? = some stored → ¬ slot < other) :
    memory.tip = .ok (some ⟨block.hash, block.slot⟩) := by
  have listed : (slot, block) ∈ memory.bySlot.toList := BTreeMap.mem_toList.mpr found
  have same : memory.bySlot.toList.getLast? = some (slot, block) := by
    cases last : memory.bySlot.toList.getLast? with
    | none => simp [List.getLast?_eq_none_iff.mp last] at listed
    | some entry =>
        obtain ⟨earlier, split⟩ := List.getLast?_eq_some_iff.mp last
        have ordered := slots_ordered memory
        rw [split] at ordered listed
        rcases List.mem_append.mp listed with before | here
        · have less := (List.pairwise_append.mp ordered).2.2 _ before entry (List.mem_singleton_self _)
          have present := BTreeMap.mem_toList.mp (List.mem_of_getLast? last)
          exact absurd less (highest _ _ present)
        · rw [List.mem_singleton.mp here]
  rw [InMemoryChainDb.tip, same]
  rfl

theorem extend_wellLinked (linked : WellLinked codec memory) {block : StoredBlock}
    (extends_ : ExtendsTip codec memory block) : WellLinked codec (memory.putBlock block).2 := by
  obtain ⟨decoded, decodes, sameSlot, sameHash, above, onTip⟩ := extends_
  have free : memory.bySlot[block.slot]? = none := by
    cases found : memory.bySlot[block.slot]? with
    | none => rfl
    | some stored => exact absurd (above _ _ found).1 (UInt64.lt_irrefl _)
  have stored : (memory.putBlock block).2 = { memory with
      bySlot := memory.bySlot.insert block.slot block
      byHash := memory.byHash.insert block.hash block.slot } := by
    simp only [InMemoryChainDb.putBlock, free]
  have lookup (slot : SlotNo) : (memory.putBlock block).2.bySlot[slot]? =
      if block.slot = slot then some block else memory.bySlot[slot]? := by
    rw [stored]
    exact BTreeMap.getElem?_insert ..
  constructor
  · rw [stored]
    refine putBlock_indexed linked.indexed free fun slot other found same => ?_
    exact absurd same (above slot other found).2
  · intro slot other found
    rw [lookup] at found
    split_ifs at found with same
    · cases found
      exact ⟨decoded, decodes, sameSlot.trans same, sameHash⟩
    · exact linked.decodes slot other found
  · intro lower upper below top topDecoded foundLower foundUpper less between decodesTop
    rw [lookup] at foundLower foundUpper
    have noneBetween : ∀ slot, lower < slot → slot < upper → memory.bySlot[slot]? = none := by
      intro slot after before
      have nothing := between slot after before
      rw [lookup] at nothing
      split_ifs at nothing with same
      exact nothing
    split_ifs at foundUpper with newTop
    · cases foundUpper
      have notNew : block.slot ≠ lower := by
        rintro rfl
        exact absurd less (newTop ▸ UInt64.lt_irrefl _)
      rw [if_neg notNew] at foundLower
      rw [decodes] at decodesTop
      cases decodesTop
      refine onTip ⟨below.hash, below.slot⟩ (tip_of_highest foundLower ?_)
      intro other stored found after
      have before := (above other stored found).1
      rw [noneBetween other after (newTop ▸ before)] at found
      cases found
    · have notNew : block.slot ≠ lower := by
        rintro rfl
        exact UInt64.lt_irrefl _ (UInt64.lt_trans less (above upper top foundUpper).1)
      rw [if_neg notNew] at foundLower
      exact linked.links lower upper below top topDecoded foundLower foundUpper less noneBetween
        decodesTop

theorem rollback_wellLinked (linked : WellLinked codec memory) (slot : SlotNo) :
    WellLinked codec (memory.rollbackToSlot slot).2 := by
  have lookup := rollbackToSlot_memory linked.indexed slot
  have kept {k : SlotNo} {block : StoredBlock}
      (found : (memory.rollbackToSlot slot).2.bySlot[k]? = some block) :
      k ≤ slot ∧ memory.bySlot[k]? = some block := by
    rw [lookup] at found
    split_ifs at found with below
    exact ⟨below, found⟩
  constructor
  · obtain ⟨blocks, hashes⟩ := removeAll_lookup linked.indexed
      (memory.bySlot.keys.filter (fun key => slot < key))
    exact wellIndexed_of_lookup linked.indexed blocks hashes
  · intro k block found
    exact linked.decodes k block (kept found).2
  · intro lower upper below above decoded foundLower foundUpper less between decodes
    refine linked.links lower upper below above decoded (kept foundLower).2 (kept foundUpper).2 less ?_
      decodes
    intro k after before
    have nothing := between k after before
    rw [lookup, if_pos (UInt64.le_trans (UInt64.le_of_lt before) (kept foundUpper).1)] at nothing
    exact nothing

theorem storeStep_wellLinked {event : StoreEvent} {next : InMemoryChainDb}
    (step : StoreStep codec memory event next) (linked : WellLinked codec memory) :
    WellLinked codec next := by
  cases event with
  | extend block =>
      obtain ⟨extends_, rfl⟩ := step
      exact extend_wellLinked linked extends_
  | rollback slot =>
      obtain ⟨-, rfl⟩ := step
      exact rollback_wellLinked linked slot

/-! ## The next block -/

def asBytes (entry : SlotNo × StoredBlock) : SlotNo × Bytes := (entry.1, entry.2.bytes)

structure Projected (codec : BlockCodec) (cursor : Option Ade.Point) (entry : SlotNo × StoredBlock)
    (decoded : DecodedBlock) (proj : HeaderProjection) : Prop where
  decodes : codec.decodeBlock entry.2.bytes = .ok decoded
  header : codec.blockHeaderBytes entry.2.bytes = .ok proj.headerBytes
  era : proj.era = decoded.era
  hash : proj.hash = decoded.blockHash
  slot : proj.slot = entry.1
  past : pastCursor ⟨entry.1, decoded.blockHash⟩ cursor

theorem firstPast_some {cursor : Option Ade.Point} {proj : HeaderProjection} :
    ∀ {entries : List (SlotNo × StoredBlock)}, firstPast codec cursor (entries.map asBytes) = some proj →
      ∃ earlier entry later decoded, entries = earlier ++ entry :: later ∧
        Projected codec cursor entry decoded proj ∧
        ∀ skipped ∈ earlier, ∃ other, codec.decodeBlock skipped.2.bytes = .ok other ∧
          pastCursor ⟨skipped.1, other.blockHash⟩ cursor = false
  | [], found => by cases found
  | entry :: rest, found => by
      rw [List.map_cons, asBytes, firstPast] at found
      cases decodes : codec.decodeBlock entry.2.bytes with
      | error failure => simp [decodes] at found
      | ok decoded =>
          simp only [decodes] at found
          by_cases past : pastCursor ⟨entry.1, decoded.blockHash⟩ cursor = true
          · rw [if_pos past] at found
            cases header : codec.blockHeaderBytes entry.2.bytes with
            | error failure => simp [header] at found
            | ok bytes =>
                simp only [header, Option.some.injEq] at found
                subst found
                exact ⟨[], entry, rest, decoded, rfl, ⟨decodes, header, rfl, rfl, rfl, past⟩, by simp⟩
          · rw [if_neg past] at found
            obtain ⟨earlier, next, later, nextDecoded, rfl, projected, skips⟩ := firstPast_some found
            refine ⟨entry :: earlier, next, later, nextDecoded, rfl, projected, ?_⟩
            intro skipped member
            rcases List.mem_cons.mp member with rfl | inside
            · exact ⟨decoded, decodes, by simpa using past⟩
            · exact skips skipped inside

theorem rangeBytesCapped_blocks (memory : InMemoryChainDb) (from_ : SlotNo) (max : Nat) :
    ∃ truncated, memory.rangeBytesCapped from_ maxSlot max =
      .ok ⟨((memory.bySlot.toList.filter fun entry => from_ ≤ entry.1).take max).map asBytes, truncated⟩ := by
  have upright : ¬ maxSlot < from_ := UInt64.not_lt.mpr (le_maxSlot from_)
  have sameBlocks : ((memory.bySlot.toList.map asBytes).filter fun entry =>
      from_ ≤ entry.1 ∧ entry.1 ≤ maxSlot) =
        (memory.bySlot.toList.filter fun entry => from_ ≤ entry.1).map asBytes := by
    rw [List.filter_map]
    simp only [Function.comp_def, le_maxSlot, and_true]
    rfl
  have taken := congrArg (List.take max) sameBlocks
  rw [← List.map_take] at taken
  simp only [InMemoryChainDb.rangeBytesCapped, if_neg upright, cappedRange]
  exact ⟨_, congrArg (fun blocks => Except.ok (CappedSlotRange.mk blocks _)) taken⟩

/-- The block whose header is served: the first one past the cursor. -/
structure Next (codec : BlockCodec) (memory : InMemoryChainDb) (cursor : Option Ade.Point)
    (proj : HeaderProjection) (block : StoredBlock) (decoded : DecodedBlock) : Prop where
  stored : memory.bySlot[block.slot]? = some block
  slot : decoded.slot = block.slot
  hash : decoded.blockHash = block.hash
  projected : Projected codec cursor (block.slot, block) decoded proj
  first : ∀ (slot : SlotNo) other, memory.bySlot[slot]? = some other →
    pastCursor ⟨slot, other.hash⟩ cursor → block.slot ≤ slot

theorem fromSlot_le {cursor : Option Ade.Point} {key : Ade.Point} (past : pastCursor key cursor) :
    (cursor.map Ade.Point.slot).getD 0 ≤ key.slot := by
  cases cursor with
  | none => exact UInt64.le_iff_toNat_le.mpr (Nat.zero_le _)
  | some cursor =>
      rcases slot_of_pastCursor past with later | ⟨same, -⟩
      · exact UInt64.le_of_lt later
      · exact UInt64.le_of_eq same

theorem nextAfter_some (linked : WellLinked codec memory) {cursor : Option Ade.Point}
    {proj : HeaderProjection} (found : nextAfter codec memory.reads cursor = some proj) :
    ∃ block decoded, Next codec memory cursor proj block decoded := by
  obtain ⟨truncated, range⟩ :=
    rangeBytesCapped_blocks memory ((cursor.map Ade.Point.slot).getD 0) 2
  simp only [nextAfter, InMemoryChainDb.reads, range] at found
  obtain ⟨earlier, ⟨slot, block⟩, later, decoded, split, projected, skips⟩ := firstPast_some found
  generalize inRange : (memory.bySlot.toList.filter fun entry =>
    (cursor.map Ade.Point.slot).getD 0 ≤ entry.1) = blocks at split
  have whole : blocks = earlier ++ (slot, block) :: (later ++ blocks.drop 2) := by
    rw [← List.cons_append, ← List.append_assoc, ← split, List.take_append_drop]
  have stored {entry : SlotNo × StoredBlock} (member : entry ∈ blocks) :
      memory.bySlot[entry.1]? = some entry.2 := by
    rw [← inRange] at member
    exact BTreeMap.mem_toList.mp (List.mem_filter.mp member).1
  have here : memory.bySlot[slot]? = some block := by
    apply @stored (slot, block)
    rw [whole]
    simp
  obtain rfl := linked.indexed.slots slot block here
  obtain ⟨decoded', decodes, sameSlot, sameHash⟩ := linked.decodes _ block here
  obtain rfl : decoded = decoded' := Except.ok.inj (projected.decodes.symm.trans decodes)
  refine ⟨block, decoded, here, sameSlot, sameHash, projected, ?_⟩
  intro key other present past
  have member : (key, other) ∈ blocks := by
    rw [← inRange]
    exact List.mem_filter.mpr ⟨BTreeMap.mem_toList.mpr present, decide_eq_true (fromSlot_le past)⟩
  have ordered : blocks.Pairwise fun before after => before.1 < after.1 := by
    rw [← inRange]
    exact (slots_ordered memory).filter _
  rw [whole] at member ordered
  rcases List.mem_append.mp member with before | after
  · obtain ⟨otherDecoded, otherDecodes, skipped⟩ := skips _ before
    obtain ⟨again, decodesAgain, -, hashAgain⟩ := linked.decodes key other present
    obtain rfl : otherDecoded = again := Except.ok.inj (otherDecodes.symm.trans decodesAgain)
    rw [hashAgain, past] at skipped
    cases skipped
  · rcases List.mem_cons.mp after with same | behind
    · exact UInt64.le_of_eq (congrArg Prod.fst same).symm
    · have rest := (List.pairwise_append.mp ordered).2.1
      exact UInt64.le_of_lt ((List.pairwise_cons.mp rest).1 _ behind)

/-- The next block goes on the point that the cursor stands for. -/
theorem next_names (linked : WellLinked codec memory) {point : Network.Point}
    (anchors : Anchors codec memory point) {proj : HeaderProjection} {block : StoredBlock}
    {decoded : DecodedBlock} (next : Next codec memory point.cursor proj block decoded) :
    decoded.prevHash.Names point := by
  have past : pastCursor ⟨block.slot, block.hash⟩ point.cursor := by
    rw [← next.hash]
    exact next.projected.past
  rcases anchors with ⟨held, present, rfl⟩ | ⟨earliest, other, ⟨present, lowest⟩, decodes, names, after⟩
  · have above : held.slot < block.slot := by
      rcases slot_of_pastCursor past with later | ⟨same, different⟩
      · exact later
      · dsimp only at same
        rw [same, next.stored] at present
        cases present
        exact absurd rfl different
    have between : ∀ slot, held.slot < slot → slot < block.slot → memory.bySlot[slot]? = none := by
      intro slot later before
      cases found : memory.bySlot[slot]? with
      | none => rfl
      | some stored =>
          have lower := next.first slot stored found (pastCursor_of_slot later)
          exact absurd before (UInt64.not_lt.mpr lower)
    have parent := linked.links _ _ held block decoded present next.stored above between
      next.projected.decodes
    rw [parent]
    rfl
  · have same : earliest.slot = block.slot :=
      UInt64.le_antisymm (lowest _ _ next.stored) (next.first _ _ present after)
    rw [same, next.stored] at present
    cases present
    rw [Except.ok.inj (next.projected.decodes.symm.trans decodes)]
    exact names

end Ade.Proof.Network
