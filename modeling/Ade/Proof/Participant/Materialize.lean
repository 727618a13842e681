import Ade.Participant.History
import Ade.Proof.Participant.Pump
import Ade.Proof.Participant.Store

/-! What a rollback rebuilds where the only snapshot is that of the origin. -/

namespace Ade.Proof.Participant
open Std (ExtTreeMap)
open Library Ade.ChainDb Ade.Codec.Shelley Ade.Consensus Ade.Receive Ade.Rollback Ade.ForwardSync
open Ade.BlockValidity Ade.Participant
open Proof.BlockValidity Proof.Rollback
open Proof.Consensus (Follows Reaches)

variable {env : Environment} {shell : Shell env}

/-! ## An accepted block -/

theorem decodeBlock_envelope {blockBytes : Bytes} {decoded : BlockValidity.DecodedBlock}
    (decodes : decodeBlock env blockBytes = .ok decoded) :
    ∃ envelope, decodeBlockEnvelope blockBytes = .ok envelope ∧ isSupportedEra envelope.era = true := by
  unfold decodeBlock at decodes
  obtain ⟨envelope, read, decodes⟩ := bind_ok decodes
  dsimp only at decodes
  obtain ⟨block, inner, decodes⟩ := bind_ok decodes
  refine ⟨envelope, mapError_ok read, ?_⟩
  unfold decodeInner at inner
  split at inner
  · rename_i babbage
    rw [babbage]
    rfl
  · rename_i conway
    rw [conway]
    rfl
  · cases inner

/-- What an accepted block is, and how it follows the state that accepts it. -/
theorem validate_ok {ledger after : env.Ledger} {chainDep chainDep' : PraosChainDepState}
    {blockBytes : Bytes}
    (accepted : shell.rules.validate ledger chainDep blockBytes = .ok (after, chainDep')) :
    ∃ decoded tip blockNo body, decodeBlock env blockBytes = .ok decoded ∧
      Follows chainDep decoded.headerInput chainDep' ∧
      tip = ⟨decoded.headerInput.slot, decoded.blockHash⟩ ∧
      (∃ location, env.eraSchedule.locate decoded.headerInput.slot = .ok location) ∧
      (blockValidity (authorities env) ledger chainDep blockBytes).verdict = .valid tip blockNo body ∧
      (blockValidity (authorities env) ledger chainDep blockBytes).ledger = after ∧
      (blockValidity (authorities env) ledger chainDep blockBytes).chainDep = chainDep' := by
  unfold Shell.rules verdictState at accepted
  dsimp only at accepted
  split at accepted
  · rename_i tip blockNo body valid
    cases accepted
    obtain ⟨decoded, decodes, point, -, -, follows⟩ := blockValidity_valid valid
    obtain ⟨given, applied, newLedger, found, validated, -, -⟩ := blockValidity_eq_valid valid
    obtain ⟨again, ran, rfl⟩ := map_ok found
    rw [decodes] at ran
    cases ran
    obtain ⟨header, checked, -⟩ := map_ok validated
    exact ⟨decoded, tip, blockNo, body, decodes, follows, point, (located_of_accepted checked).2, valid,
      rfl, rfl⟩
  · cases accepted

section
variable {seed : EraSummary} {count : Nat}

/-- An accepted block replays up to any located slot at or after it. -/
theorem replayBlock_ok (reaches : Reaches seed count env.eraSchedule) (body : BodyLocates env)
    {target slot : SlotNo} (located : ∃ location, env.eraSchedule.locate target = .ok location)
    {ledger after : env.Ledger} {chainDep chainDep' : PraosChainDepState} {blockBytes : Bytes}
    (accepted : shell.rules.validate ledger chainDep blockBytes = .ok (after, chainDep'))
    {decoded : BlockValidity.DecodedBlock} (decodes : decodeBlock env blockBytes = .ok decoded)
    (le : decoded.headerInput.slot ≤ target) :
    replayBlock shell.rules target (slot, blockBytes) (ledger, chainDep) = .ok (after, chainDep') := by
  obtain ⟨again, tip, blockNo, verdict, -, -, -, -, valid, rfl, rfl⟩ := validate_ok accepted
  obtain ⟨envelope, read, supported⟩ := decodeBlock_envelope decodes
  have replayed := @trustedReplay_eq env seed count ledger chainDep blockBytes target reaches body
    located decoded decodes le tip blockNo verdict valid
  have era : shell.rules.envelopeEra blockBytes = .ok envelope.era := by
    unfold Shell.rules
    dsimp only
    rw [read]
    rfl
  unfold replayBlock
  rw [era]
  dsimp only
  rw [if_pos supported]
  unfold Shell.rules
  dsimp only
  rw [replayed]
  unfold verdictState
  rw [valid]

end

/-! ## The snapshot of the origin -/

/-- The same origin, with its recovered nonce already in its state. -/
def rootOf (origin : Origin env.Ledger) : Origin env.Ledger :=
  ⟨origin.slot, origin.ledger, overlay origin.recoveredEta0 origin.chainDep, none⟩

theorem settled_root (origin : Origin env.Ledger) (chainDep : PraosChainDepState) :
    Settled (rootOf origin) chainDep := nofun

def originSnapshots (origin : Origin env.Ledger) (snapshot : Bytes) : BTreeMap SlotNo Bytes :=
  (∅ : BTreeMap SlotNo Bytes).insert origin.slot snapshot

variable {origin : Origin env.Ledger} {snapshot : Bytes} {db : PersistentChainDb}

theorem nearestLe_origin (held : db.snapshotsBySlot = some (originSnapshots origin snapshot))
    (decodes : shell.decodeSnapshot snapshot = .ok (origin.ledger, origin.chainDep))
    {target : SlotNo} (le : origin.slot ≤ target) :
    nearestLe shell.rules db target = some (origin.slot, origin.ledger, origin.chainDep) := by
  have keys : (originSnapshots origin snapshot).keys = [origin.slot] := by
    apply BTreeMap.keys_eq_of_ordered (List.pairwise_singleton _ _)
    intro slot
    rw [originSnapshots, BTreeMap.mem_insert, List.mem_singleton]
    simp [eq_comm]
  have lookup : (originSnapshots origin snapshot)[origin.slot]? = some snapshot := by
    rw [originSnapshots, BTreeMap.getElem?_insert, if_pos rfl]
  have nearest : nearestSlot db target = some origin.slot := by
    simp [nearestSlot, PersistentChainDb.listSnapshotSlots, held, keys, le, Except.toOption]
  simp [nearestLe, nearest, PersistentChainDb.getSnapshot, held, lookup, Except.toOption, Shell.rules,
    decodes]

/-! ## Replaying the chain -/

/-- The blocks of the chain are stored under what they decode to. -/
def AllNamed (env : Environment) (chain : List (Admission env.Ledger)) : Prop :=
  ∀ admission ∈ chain, Named env admission.block

section
variable {seed : EraSummary} {count : Nat} {chain : List (Admission env.Ledger)}

theorem replayForward_chain (reaches : Reaches seed count env.eraSchedule) (body : BodyLocates env)
    {target : SlotNo} (located : ∃ location, env.eraSchedule.locate target = .ok location)
    (linked : Linked shell.rules (rootOf origin) chain) (named : AllNamed env chain)
    (below : ∀ admission ∈ chain, admission.block.slot ≤ target) :
    replayForward shell.rules target (chain.map entryOf).reverse (originState origin) =
      .ok (stateOf (rootOf origin) chain) := by
  induction linked with
  | nil => rfl
  | @cons newest chain accepted later settled rest ih =>
      have first : newest ∈ newest :: chain := List.mem_cons_self ..
      obtain ⟨decoded, decodes, -, slot⟩ := named newest first
      have le := below newest first
      rw [slot] at le
      have replayed := @replayBlock_ok env shell seed count reaches body target newest.block.slot
        located _ _ _ _ _ accepted decoded decodes le
      rw [List.map_cons, List.reverse_cons, replayForward_append,
        ih (fun admission member => named admission (List.mem_cons_of_mem _ member))
          fun admission member => below admission (List.mem_cons_of_mem _ member)]
      change (replayBlock shell.rules target (entryOf newest) (stateOf (rootOf origin) chain) >>= pure) = _
      rw [bind_pure]
      exact replayed

theorem origin_le_slotOf (linked : Linked shell.rules (rootOf origin) chain) :
    origin.slot ≤ slotOf (rootOf origin) chain := by
  induction linked with
  | nil => exact UInt64.le_refl _
  | cons accepted later settled rest ih => exact UInt64.le_of_lt (UInt64.lt_of_le_of_lt ih later)

/-- Every block of the chain is after the origin, and was accepted there. -/
theorem linked_mem (linked : Linked shell.rules (rootOf origin) chain)
    {admission : Admission env.Ledger} (member : admission ∈ chain) :
    origin.slot < admission.block.slot ∧ ∃ ledger chainDep,
      shell.rules.validate ledger chainDep admission.block.bytes =
        .ok (admission.ledger, admission.chainDep) := by
  induction linked with
  | nil => cases member
  | cons accepted later settled rest ih =>
      rcases List.mem_cons.mp member with rfl | member
      · exact ⟨UInt64.lt_of_le_of_lt (origin_le_slotOf rest) later, _, _, accepted⟩
      · exact ih member

/-- A rollback to a block of the chain rebuilds the state after it. -/
theorem materialize_chain (reaches : Reaches seed count env.eraSchedule) (body : BodyLocates env)
    (linked : Linked shell.rules (rootOf origin) chain) (named : AllNamed env chain)
    (keeps : Keeps db chain) (held : db.snapshotsBySlot = some (originSnapshots origin snapshot))
    (decodes : shell.decodeSnapshot snapshot = .ok (origin.ledger, origin.chainDep))
    {target : Admission env.Ledger} (member : target ∈ chain) :
    materializeRolledBackState shell.rules db origin.recoveredEta0 target.block.slot =
      .ok (target.ledger, target.chainDep) := by
  obtain ⟨later, ledger, chainDep, accepted⟩ := linked_mem linked member
  obtain ⟨decoded, tip, blockNo, verdict, ran, -, -, located, -⟩ := validate_ok accepted
  obtain ⟨again, found, -, slot⟩ := named target member
  rw [ran] at found
  cases found
  rw [← slot] at located
  have none_ : upTo origin.slot chain = [] := by
    apply List.filter_eq_nil_iff.mpr
    intro admission listed
    simpa using (linked_mem linked listed).1
  have whole : segment origin.slot target.block.slot chain = upTo target.block.slot chain := by
    rw [upTo_split linked (UInt64.le_of_lt later), none_, List.append_nil]
  unfold materializeRolledBackState
  rw [nearestLe_origin held decodes (UInt64.le_of_lt later)]
  dsimp only
  rw [if_neg (UInt64.ne_of_lt later), blocksInRange_eq_segment linked keeps.stores later, whole]
  have replayed := replayForward_chain reaches body located (linked_upTo linked target.block.slot)
    (fun admission listed => named admission (Iff.mp mem_upTo listed).1)
    fun admission listed => (Iff.mp mem_upTo listed).2
  rw [stateOf_upTo linked member] at replayed
  exact replayed

end

end Ade.Proof.Participant
