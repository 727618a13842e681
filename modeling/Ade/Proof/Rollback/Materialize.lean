import Ade.Proof.Rollback.Stored

namespace Ade.Proof.Rollback
open Std (ExtTreeMap)
open Library Ade.ChainDb Ade.Consensus Ade.Rollback

variable {Ledger Failure : Type} {rules : Rules Ledger Failure} {origin : Origin Ledger}

/-! ## Snapshots -/

def snapshotAt (db : PersistentChainDb) (slot : SlotNo) : Option Bytes :=
  db.snapshotsBySlot.bind fun snapshots => snapshots[slot]?

structure SameBlocks (db other : PersistentChainDb) : Prop where
  blocks : other.blocksBySlot = db.blocksBySlot
  hashes : other.slotByHash = db.slotByHash
  bySlot : other.hashBySlot = db.hashBySlot

theorem putSnapshot_cases (db : PersistentChainDb) (slot : SlotNo) (bytes : Bytes) :
    ((db.putSnapshot slot bytes).1 = .ok () ∧ SameBlocks db (db.putSnapshot slot bytes).2 ∧
      ∀ other, snapshotAt (db.putSnapshot slot bytes).2 other =
        if slot = other then some bytes else snapshotAt db other) ∨
    (∃ failure, db.putSnapshot slot bytes = (.error failure, db)) := by
  have lookup : ∀ other : SlotNo, (db.snapshotsBySlot.getD ∅)[other]? = snapshotAt db other := by
    intro other
    unfold snapshotAt
    cases db.snapshotsBySlot with
    | none => simp
    | some snapshots => rfl
  cases present : (db.snapshotsBySlot.getD ∅)[slot]? with
  | none =>
      simp only [PersistentChainDb.putSnapshot, present]
      refine .inl ⟨trivial, ⟨rfl, rfl, rfl⟩, fun other => ?_⟩
      show ((db.snapshotsBySlot.getD ∅).insert slot bytes)[other]? = _
      rw [BTreeMap.getElem?_insert, lookup]
  | some existing =>
      simp only [PersistentChainDb.putSnapshot, present]
      by_cases same : existing = bytes
      · simp only [same, if_true]
        refine .inl ⟨trivial, ⟨rfl, rfl, rfl⟩, fun other => ?_⟩
        show (db.snapshotsBySlot.getD ∅)[other]? = _
        by_cases here : slot = other
        · rw [if_pos here, ← here, present, same]
        · rw [if_neg here, lookup]
      · simp only [same, if_false]
        exact .inr ⟨_, rfl⟩

theorem onAdmitted_cases (rules : Rules Ledger Failure) (writer : PersistentSnapshotWriter)
    (slot : SlotNo) (blockNo : BlockNo) (ledger : Ledger) (chainDep : PraosChainDepState) :
    (∃ bytes next, rules.encodeSnapshot ledger chainDep = .ok bytes ∧
      onAdmitted rules writer slot blockNo ledger chainDep = (.ok true, next) ∧
      SameBlocks writer.db next.db ∧
      ∀ other, snapshotAt next.db other =
        if slot = other then some bytes else snapshotAt writer.db other) ∨
    (∃ result, onAdmitted rules writer slot blockNo ledger chainDep = (result, writer) ∧
      ∀ taken, result = .ok taken → taken = false) := by
  unfold onAdmitted capture
  split_ifs with due
  · cases encoded : rules.encodeSnapshot ledger chainDep with
    | error failure => exact .inr ⟨_, rfl, fun taken same => by cases same⟩
    | ok bytes =>
        rcases putSnapshot_cases writer.db slot bytes with ⟨stored, blocks, lookup⟩ | ⟨failure, full⟩
        · cases result : writer.db.putSnapshot slot bytes with
          | mk reply db =>
              rw [result] at stored blocks lookup
              obtain rfl : reply = .ok () := stored
              exact .inl ⟨bytes, ⟨db, writer.cadence, some slot⟩, rfl, by simp only [result], blocks, lookup⟩
        · simp only [full]
          exact .inr ⟨_, rfl, fun taken same => by cases same⟩
  · exact .inr ⟨_, rfl, fun taken same => by cases same; rfl⟩

theorem nearestSlot_le {db : PersistentChainDb} {targetSlot slot : SlotNo}
    (nearest : nearestSlot db targetSlot = some slot) : slot ≤ targetSlot := by
  have found := List.find?_some nearest
  simpa using found

theorem nearestLe_spec {db : PersistentChainDb} {targetSlot slot : SlotNo} {ledger : Ledger}
    {chainDep : PraosChainDepState}
    (found : nearestLe rules db targetSlot = some (slot, ledger, chainDep)) :
    nearestSlot db targetSlot = some slot ∧
      ∃ bytes, snapshotAt db slot = some bytes ∧
        rules.decodeSnapshot bytes = .ok (ledger, chainDep) := by
  unfold nearestLe at found
  cases nearest : nearestSlot db targetSlot with
  | none => simp [nearest] at found
  | some candidate =>
      cases stored : snapshotAt db candidate with
      | none =>
          simp only [snapshotAt] at stored
          simp [nearest, PersistentChainDb.getSnapshot, Except.toOption, stored] at found
      | some bytes =>
          cases decoded : rules.decodeSnapshot bytes with
          | error failure =>
              simp only [snapshotAt] at stored
              simp [nearest, PersistentChainDb.getSnapshot, Except.toOption, stored, decoded] at found
          | ok state =>
              have lookup := stored
              simp only [snapshotAt] at stored
              simp [nearest, PersistentChainDb.getSnapshot, Except.toOption, stored, decoded] at found
              obtain ⟨rfl, rfl⟩ := found
              exact ⟨rfl, bytes, lookup, decoded⟩

/-! ## The invariant of a run -/

/-- A stored snapshot decodes to the state after the chain it was taken on. -/
def SnapshotsRecorded (rules : Rules Ledger Failure) (origin : Origin Ledger)
    (node : Node Ledger) : Prop :=
  ∀ slot bytes, snapshotAt node.writer.db slot = some bytes →
    ∃ chain ledger chainDep, Linked rules origin chain ∧
      node.takenOn slot = chain.map Admission.block ∧
      rules.decodeSnapshot bytes = .ok (ledger, chainDep) ∧
      (ledger, overlay origin.recoveredEta0 chainDep) = stateOf origin chain

structure Tracks (rules : Rules Ledger Failure) (origin : Origin Ledger) (node : Node Ledger) :
    Prop where
  linked : Linked rules origin node.chain
  state : (node.ledger, node.chainDep) = stateOf origin node.chain
  stored : StoresChain node.writer.db node.chain
  snapshots : SnapshotsRecorded rules origin node

theorem overlay_settled {chainDep : PraosChainDepState} (settled : Settled origin chainDep) :
    overlay origin.recoveredEta0 chainDep = chainDep := by
  unfold overlay
  cases recovered : origin.recoveredEta0 with
  | none => rfl
  | some eta0 => exact if_pos (settled (by rw [recovered]; rfl))

theorem tipSlot_eq_slotOf (node : Node Ledger) : node.tipSlot origin = slotOf origin node.chain := by
  unfold Node.tipSlot slotOf
  cases node.chain <;> rfl

section Runs

variable
  (roundTrip : ∀ ledger chainDep bytes, rules.encodeSnapshot ledger chainDep = .ok bytes →
    rules.decodeSnapshot bytes = .ok (ledger, chainDep))
  (trusted : ∀ target ledger chainDep block state, rules.validate ledger chainDep block = .ok state →
    rules.trustedReplay target ledger chainDep block = .ok state)

include roundTrip in
theorem start_tracks {bytes : Bytes}
    (encoded : rules.encodeSnapshot origin.ledger origin.chainDep = .ok bytes)
    (cadence : SnapshotCadence) (lastCapture : Option SlotNo) :
    Tracks rules origin (Node.start origin bytes cadence lastCapture) := by
  have noBlocks : ∀ slot : SlotNo, (∅ : BTreeMap SlotNo Bytes)[slot]? = none := by simp
  constructor
  · exact .nil
  · rfl
  · constructor
    · intro slot found
      simp [Node.start, PersistentChainDb.new, PersistentChainDb.putSnapshot]
    · intro slot present
      simp [Node.start, PersistentChainDb.new, PersistentChainDb.putSnapshot] at present
    · intro present
      simp [Node.start, PersistentChainDb.new, PersistentChainDb.putSnapshot] at present
  · intro slot stored present
    have only : stored = bytes := by
      simp only [snapshotAt, Node.start, PersistentChainDb.new, PersistentChainDb.putSnapshot,
        Option.getD_none, noBlocks, Option.bind_some] at present
      rw [BTreeMap.getElem?_insert] at present
      split_ifs at present
      · cases present
        rfl
      · simp at present
    rw [only]
    exact ⟨[], origin.ledger, origin.chainDep, .nil, rfl, roundTrip _ _ _ encoded, rfl⟩

include roundTrip in
theorem extend_tracks {node : Node Ledger} (tracks : Tracks rules origin node)
    {admission : Admission Ledger} {blockNo : BlockNo}
    (later : node.tipSlot origin < admission.block.slot)
    (accepted : rules.validate node.ledger node.chainDep admission.block.bytes =
      .ok (admission.ledger, admission.chainDep))
    (settled : Settled origin admission.chainDep) :
    Tracks rules origin (node.extend rules admission blockNo) := by
  rw [tipSlot_eq_slotOf] at later
  have linked : Linked rules origin (admission :: node.chain) := by
    apply Linked.cons _ later settled tracks.linked
    rw [← tracks.state]
    exact accepted
  have stored := putBlock_storesChain tracks.linked tracks.stored later
  have snapshots : ∀ slot, snapshotAt (node.writer.db.putBlock admission.block).2 slot =
      snapshotAt node.writer.db slot := by
    intro slot
    unfold PersistentChainDb.putBlock snapshotAt
    dsimp only
    split_ifs <;> rfl
  rcases onAdmitted_cases rules { node.writer with db := (node.writer.db.putBlock admission.block).2 }
      admission.block.slot blockNo admission.ledger admission.chainDep with
    ⟨bytes, next, encoded, offered, same, lookup⟩ | ⟨result, offered, skipped⟩
  · constructor
    · exact linked
    · rfl
    · simp only [Node.extend, offered]
      exact storesChain_of_tables stored same.blocks same.hashes same.bySlot
    · intro slot bytes' present
      simp only [Node.extend, offered] at present ⊢
      rw [lookup] at present
      by_cases here : admission.block.slot = slot
      · rw [if_pos here] at present
        cases present
        refine ⟨admission :: node.chain, admission.ledger, admission.chainDep, linked, ?_,
          roundTrip _ _ _ encoded, ?_⟩
        · rw [here, Function.update_self]
          rfl
        · rw [overlay_settled settled]
          rfl
      · rw [if_neg here, snapshots] at present
        rw [Function.update_of_ne (Ne.symm here)]
        exact tracks.snapshots slot bytes' present
  · have kept : (node.extend rules admission blockNo).takenOn = node.takenOn := by
      simp only [Node.extend, offered]
      cases result with
      | error failure => rfl
      | ok taken => rw [skipped taken rfl]
    constructor
    · exact linked
    · rfl
    · simp only [Node.extend, offered]
      exact stored
    · intro slot bytes' present
      rw [kept]
      simp only [Node.extend, offered] at present
      rw [snapshots] at present
      exact tracks.snapshots slot bytes' present

include trusted in
/-- The nearest snapshot is the state of the chain below it, and the replay adds the rest. -/
theorem materialize_tracks {node : Node Ledger} (tracks : Tracks rules origin node)
    {target : Admission Ledger} (member : target ∈ node.chain)
    (onChain : node.SnapshotOnChain target.block.slot) {state : Ledger × PraosChainDepState}
    (returned : materializeRolledBackState rules node.writer.db origin.recoveredEta0
      target.block.slot = .ok state) : state = (target.ledger, target.chainDep) := by
  unfold materializeRolledBackState at returned
  cases found : nearestLe rules node.writer.db target.block.slot with
  | none => simp [found] at returned
  | some snapshot =>
      obtain ⟨slot, ledger, chainDep⟩ := snapshot
      obtain ⟨nearest, bytes, present, decoded⟩ := nearestLe_spec found
      obtain ⟨chain, ledger', chainDep', linked, taken, decoded', recorded⟩ :=
        tracks.snapshots slot bytes present
      rw [decoded] at decoded'
      cases decoded'
      have base : chain = upTo slot node.chain := by
        apply linked_unique linked (linked_upTo tracks.linked slot)
        rw [← taken, onChain slot nearest, Node.blocks, List.filter_map]
        rfl
      simp only [found, recorded, base] at returned
      by_cases exact : slot = target.block.slot
      · rw [if_pos exact] at returned
        cases returned
        rw [exact]
        exact stateOf_upTo tracks.linked member
      · rw [if_neg exact] at returned
        have below := nearestSlot_le nearest
        have strict : slot < target.block.slot := UInt64.lt_of_le_of_ne below exact
        have split := upTo_split tracks.linked below
        rw [blocksInRange_eq_segment tracks.linked tracks.stored strict] at returned
        have linkedUp := linked_upTo tracks.linked target.block.slot
        rw [split] at linkedUp
        rw [replayForward_segment trusted linkedUp returned, ← split]
        exact stateOf_upTo tracks.linked member

include trusted in
theorem rewind_tracks {node : Node Ledger} (tracks : Tracks rules origin node)
    {above below : List (Admission Ledger)} {target : Admission Ledger}
    {state : Ledger × PraosChainDepState} (split : node.chain = above ++ target :: below)
    (returned : materializeRolledBackState rules node.writer.db origin.recoveredEta0
      target.block.slot = .ok state)
    (onChain : node.SnapshotOnChain target.block.slot)
    (notTop : target.block.slot.toNat ≠ 2 ^ 64 - 1) :
    Tracks rules origin (node.rewind target.block.slot state (target :: below)) := by
  have member : target ∈ node.chain := by
    rw [split]
    exact List.mem_append_right _ (List.mem_cons_self ..)
  have linked := tracks.linked
  rw [split] at linked
  obtain rfl := materialize_tracks trusted tracks member onChain returned
  constructor
  · exact linked_of_append linked
  · rfl
  · have stored := rollbackToSlot_storesChain tracks.stored notTop
    rw [split, upTo_append linked] at stored
    exact stored
  · exact tracks.snapshots

include roundTrip trusted in
theorem step_tracks {node next : Node Ledger} {action : NodeAction}
    (step : SafeStep rules origin node action next) (tracks : Tracks rules origin node) :
    Tracks rules origin next := by
  obtain ⟨taken, safe⟩ := step
  cases taken with
  | admitBlock admission blockNo later accepted stored =>
      exact extend_tracks roundTrip tracks later accepted safe
  | rollBack above below target state split materialized =>
      exact rewind_tracks trusted tracks split materialized safe.1 safe.2

end Runs

section Samples

/-- A ledger that records the bytes of its blocks. -/
def appendRules : Rules Bytes Unit where
  validate ledger chainDep block := .ok (ledger ++ block, chainDep)
  trustedReplay _ ledger chainDep block := .ok (ledger ++ block, chainDep)
  envelopeEra _ := .ok .conway
  encodeSnapshot ledger chainDep :=
    if chainDep = .genesis Nonce.zero then .ok ledger else .error ()
  decodeSnapshot bytes := .ok (bytes, .genesis Nonce.zero)

theorem appendRules_roundTrip : ∀ ledger chainDep bytes,
    appendRules.encodeSnapshot ledger chainDep = .ok bytes →
      appendRules.decodeSnapshot bytes = .ok (ledger, chainDep) := by
  intro ledger chainDep bytes encoded
  simp only [appendRules] at encoded ⊢
  split_ifs at encoded with same
  cases encoded
  rw [same]

def appendOrigin : Origin Bytes := ⟨0, [], .genesis Nonce.zero, none⟩

def sampleAdmission (slot : SlotNo) (ledger block : Bytes) : Admission Bytes where
  block := ⟨Vector.replicate 32 (block.headD 0), slot, block⟩
  ledger := ledger ++ block
  chainDep := .genesis Nonce.zero

def firstBlock : Admission Bytes := sampleAdmission 1 [] [1]
def secondBlock : Admission Bytes := sampleAdmission 2 [1] [2]
def forkBlock (slot : SlotNo) : Admission Bytes := sampleAdmission slot [1] [3]

/-- Two blocks, with a snapshot at every `every`-th. -/
def twoBlocks (every : UInt32) : Node Bytes :=
  ((Node.start appendOrigin [] ⟨every⟩ none).extend appendRules firstBlock 1).extend appendRules
    secondBlock 2

/-- Back to the first block and on to another second block. -/
def switched (every : UInt32) (slot : SlotNo) : Node Bytes :=
  ((twoBlocks every).rewind firstBlock.block.slot ([1], .genesis Nonce.zero) [firstBlock]).extend appendRules
    (forkBlock slot) 2

def switchActions (slot : SlotNo) : List NodeAction :=
  [.admitBlock firstBlock.block 1, .admitBlock secondBlock.block 2, .rollBack firstBlock.block.slot,
    .admitBlock (forkBlock slot).block 2]

theorem snapshotOnChain_of_nearest {node : Node Ledger} {targetSlot : SlotNo} (nearest : SlotNo)
    (found : nearestSlot node.writer.db targetSlot = some nearest)
    (taken : node.takenOn nearest = node.blocks.filter fun block => block.slot ≤ nearest) :
    node.SnapshotOnChain targetSlot := by
  intro slot member
  rw [found] at member
  cases member
  exact taken

end Samples

end Ade.Proof.Rollback
