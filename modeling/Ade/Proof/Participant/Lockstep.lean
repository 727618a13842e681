import Ade.Proof.Participant.Materialize

/-! The store, the log and the state in memory of a participant stay in lockstep. -/

namespace Ade.Proof.Participant
open Library Ade.ChainDb Ade.Consensus Ade.Receive Ade.Rollback Ade.ForwardSync Ade.Wal
open Ade.BlockValidity Ade.Participant
open Proof.Rollback
open Proof.BlockValidity (BodyLocates)
open Proof.Consensus (Follows Reaches)

variable {env : Environment} {shell : Shell env} {origin : Origin env.Ledger} {snapshot : Bytes}
  {state : State env} {chain : List (Admission env.Ledger)}

/-! ## The invariant -/

def liveBlock (shell : Shell env) (admission : Admission env.Ledger) : LiveBlock :=
  ⟨admission.block.slot, admission.block.hash, shell.fingerprint admission.ledger⟩

/-- The state is that of a chain of admissions, newest first. -/
structure Holds (shell : Shell env) (origin : Origin env.Ledger) (snapshot : Bytes)
    (state : State env) (chain : List (Admission env.Ledger)) : Prop where
  linked : Linked shell.rules (rootOf origin) chain
  live : (state.fwd.receive.ledger, state.fwd.receive.chainDep) = stateOf (rootOf origin) chain
  keeps : Keeps state.chaindb chain
  named : AllNamed env chain
  held : state.chaindb.snapshotsBySlot = some (originSnapshots origin snapshot)
  log : LiveRun (shell.fingerprint origin.ledger) .empty state.wal ⟨chain.map (liveBlock shell), false⟩
  priorFp : state.fwd.priorFp = shell.fingerprint state.fwd.receive.ledger
  position : state.fwd.receive.chainDep.lastSlot = some (slotOf (rootOf origin) chain)
  eta0 : state.recoveredEta0 = origin.recoveredEta0

theorem putSnapshot_new (slot : SlotNo) (bytes : Bytes) :
    PersistentChainDb.new.putSnapshot slot bytes = (.ok (), { PersistentChainDb.new with
      snapshotsBySlot := some ((∅ : BTreeMap SlotNo Bytes).insert slot bytes) }) := by
  simp [PersistentChainDb.putSnapshot, PersistentChainDb.new]

theorem overlay_lastSlot (eta0 : Option Nonce) (chainDep : PraosChainDepState) :
    (overlay eta0 chainDep).lastSlot = chainDep.lastSlot := by
  unfold overlay PraosChainDepState.overlayRecoveredEta0
  split
  · split_ifs <;> rfl
  · rfl

theorem holds_start (settled : origin.chainDep.lastSlot = some origin.slot)
    (recoveredAnchor : Option ChainTip) (cadence : ForwardSync.SnapshotCadence) :
    Holds shell origin snapshot (State.start shell origin snapshot recoveredAnchor cadence) [] where
  linked := .nil
  live := rfl
  keeps := by
    unfold State.start
    rw [putSnapshot_new]
    have none_ := @keeps_new env.Ledger
    exact ⟨storesChain_of_tables none_.stores rfl rfl rfl, none_.hashes, none_.index⟩
  named := nofun
  held := by
    unfold State.start
    rw [putSnapshot_new]
    rfl
  log := .nil _
  priorFp := rfl
  position := (overlay_lastSlot _ _).trans settled
  eta0 := rfl

/-- The fingerprint that the next entry starts from is that at the top of the log's stack. -/
theorem Holds.tipFp_eq (holds : Holds shell origin snapshot state chain) :
    tipFp (shell.fingerprint origin.ledger) (chain.map (liveBlock shell)) = state.fwd.priorFp := by
  have live : state.fwd.receive.ledger = (stateOf (rootOf origin) chain).1 :=
    congrArg Prod.fst holds.live
  rw [holds.priorFp, live]
  cases chain <;> rfl

/-! ## Admitting -/

theorem Holds.later (holds : Holds shell origin snapshot state chain)
    {after : env.Ledger × PraosChainDepState} {blockBytes : Bytes}
    (accepted : shell.rules.validate state.fwd.receive.ledger state.fwd.receive.chainDep blockBytes =
      .ok after) {decoded : BlockValidity.DecodedBlock}
    (decodes : decodeBlock env blockBytes = .ok decoded) :
    slotOf (rootOf origin) chain < decoded.headerInput.slot ∧
      after.2.lastSlot = some decoded.headerInput.slot := by
  obtain ⟨again, tip, blockNo, verdict, ran, follows, -⟩ := validate_ok accepted
  rw [decodes] at ran
  cases ran
  have below := follows.lastSlot_lt
  rw [holds.position, follows.lastSlot, Option.some_lt_some] at below
  exact ⟨below, follows.lastSlot⟩

/-- What a block does to the chain, by what the pump answers. -/
inductive Grows (blockBytes : Bytes) (chain : List (Admission env.Ledger)) :
    Except (PumpError env) (Option PumpTip) → List (Admission env.Ledger) → Prop
  | refused (error : PumpError env) : Grows blockBytes chain (.error error) chain
  | repeated : Grows blockBytes chain (.ok none) chain
  | admitted (decoded : BlockValidity.DecodedBlock) (ledger : env.Ledger)
      (chainDep : PraosChainDepState) (decodes : decodeBlock env blockBytes = .ok decoded) :
      Grows blockBytes chain (.ok (some (pumpTip decoded)))
        (⟨storedBlock decoded blockBytes, ledger, chainDep⟩ :: chain)

theorem Holds.withPending (holds : Holds shell origin snapshot state chain)
    (pending : PendingHeaderCache) : Holds shell origin snapshot (withPending state pending) chain :=
  ⟨holds.linked, holds.live, holds.keeps, holds.named, holds.held, holds.log, holds.priorFp,
    holds.position, holds.eta0⟩

theorem Holds.pumped (holds : Holds shell origin snapshot state chain) {blockBytes : Bytes}
    {decoded : BlockValidity.DecodedBlock} {ledger : env.Ledger} {chainDep : PraosChainDepState}
    {chaindb : PersistentChainDb} {after : State env}
    (decodes : decodeBlock env blockBytes = .ok decoded)
    (accepted : shell.rules.validate state.fwd.receive.ledger state.fwd.receive.chainDep blockBytes =
      .ok (ledger, chainDep))
    (stored : state.chaindb.putBlock (storedBlock decoded blockBytes) = (.ok (), chaindb))
    (pumped : Pumped shell state decoded ledger chainDep chaindb after) :
    Holds shell origin snapshot after (⟨storedBlock decoded blockBytes, ledger, chainDep⟩ :: chain) := by
  obtain ⟨later, lastSlot⟩ := holds.later accepted decodes
  obtain ⟨kept, put, keeps, -, snapshots⟩ := @putBlock_keeps _ _ shell.rules (rootOf origin)
    state.chaindb chain holds.linked holds.keeps ⟨storedBlock decoded blockBytes, ledger, chainDep⟩
    later
  rw [show state.chaindb.putBlock (storedBlock decoded blockBytes) = _ from put] at stored
  cases stored
  have live := holds.live
  have fp := congrArg Prod.fst pumped.live
  have dep := congrArg Prod.snd pumped.live
  dsimp only at fp dep
  refine ⟨.cons ?_ later (settled_root origin chainDep) holds.linked, pumped.live, ?_, ?_, ?_, ?_, ?_,
    ?_, pumped.recoveredEta0.trans holds.eta0⟩
  · rw [← live]
    exact accepted
  · rw [pumped.chaindb]
    exact keeps
  · exact List.forall_mem_cons.mpr ⟨⟨decoded, decodes, rfl, rfl⟩, holds.named⟩
  · rw [pumped.chaindb, snapshots]
    exact holds.held
  · rw [pumped.wal, ← holds.tipFp_eq]
    refine holds.log.append (.cons (.push ⟨decoded.headerInput.slot, decoded.blockHash,
      shell.fingerprint ledger⟩ .valid ?_) (.nil _))
    intro top first
    rw [List.head?_map] at first
    obtain ⟨newest, head, rfl⟩ := Option.map_eq_some_iff.mp first
    cases chain with
    | nil => cases head
    | cons older rest =>
        cases head
        exact later
  · rw [pumped.priorFp, fp]
  · rw [dep, lastSlot]
    rfl

theorem Holds.pump (holds : Holds shell origin snapshot state chain) (blockBytes : Bytes) :
    ∃ grown, Holds shell origin snapshot (pumpBlock shell state blockBytes).2 grown ∧
      Grows blockBytes chain (pumpBlock shell state blockBytes).1 grown := by
  have pumps : Pumps shell state blockBytes (pumpBlock shell state blockBytes) := by
    apply pumpBlock_pumps
    intro decoded after chaindb decodes accepted stored
    obtain ⟨later, -⟩ := holds.later accepted decodes
    obtain ⟨kept, put, -, again, -⟩ := @putBlock_keeps _ _ shell.rules (rootOf origin) state.chaindb
      chain holds.linked holds.keeps ⟨storedBlock decoded blockBytes, after.1, after.2⟩ later
    rw [show state.chaindb.putBlock (storedBlock decoded blockBytes) = _ from put] at stored
    cases stored
    exact again
  generalize pumpBlock shell state blockBytes = outcome at pumps ⊢
  cases pumps with
  | refused error pending => exact ⟨chain, holds.withPending pending, .refused error⟩
  | repeated => exact ⟨chain, holds, .repeated⟩
  | admitted decoded ledger chainDep chaindb after decodes accepted stored pumped =>
      exact ⟨_, holds.pumped decodes accepted stored pumped, .admitted decoded ledger chainDep decodes⟩

/-! ## Rolling back -/

/-- The state once a rollback is committed and logged. -/
def rewound (shell : Shell env) (state : State env) (target : Point)
    (after : env.Ledger × PraosChainDepState) (reason : RollbackReason) : State env :=
  let committed := rolledBackState shell state ⟨after.1, after.2, .new⟩
    (state.chaindb.rollbackToSlot target.slot).2
  { committed with
    wal := state.wal ++ [rollbackEntry state target (after.2.lastBlockNo.getD 0) reason] }

theorem applyChainEvent_rolledBack {target : Point} {after : env.Ledger × PraosChainDepState}
    (materialized : materializeRolledBackState shell.rules state.chaindb state.recoveredEta0
      target.slot = .ok after) (reason : RollbackReason) :
    applyChainEvent shell state (.rolledBack target) reason none =
      reconcile (rewound shell state target after reason) target := by
  unfold applyChainEvent
  dsimp only
  rw [materialized]
  rfl

theorem reconcile_ok {expected : Point} {outcome : Option Point × State env}
    (reconciled : reconcile state expected = .ok outcome) :
    outcome.2 = state ∧ state.tip = some ⟨expected.hash, expected.slot⟩ := by
  unfold reconcile durableTipMatches at reconciled
  cases tip : state.tip with
  | none =>
      rw [tip] at reconciled
      cases reconciled
  | some at_ =>
      simp only [tip, decide_eq_true_eq] at reconciled
      split_ifs at reconciled with same
      cases reconciled
      rw [← same.1, ← same.2]
      exact ⟨rfl, rfl⟩

theorem reconcile_tip {expected : Point} (tip : state.tip = some ⟨expected.hash, expected.slot⟩) :
    reconcile state expected = .ok (some expected, state) := by
  simp [reconcile, durableTipMatches, tip]

theorem Holds.tip (holds : Holds shell origin snapshot state chain) :
    state.tip = chain.head?.map fun newest => ⟨newest.block.hash, newest.block.slot⟩ := by
  unfold State.tip
  rw [tip_keeps holds.linked holds.keeps]

/-- The state recorded with a block of the chain has the slot of the block. -/
theorem Holds.lastSlot (holds : Holds shell origin snapshot state chain)
    {target : Admission env.Ledger} (member : target ∈ chain) :
    target.chainDep.lastSlot = some target.block.slot := by
  obtain ⟨-, ledger, chainDep, accepted⟩ := linked_mem holds.linked member
  obtain ⟨decoded, tip, blockNo, verdict, ran, follows, -⟩ := validate_ok accepted
  obtain ⟨again, found, -, slot⟩ := holds.named target member
  rw [ran] at found
  cases found
  rw [follows.lastSlot, slot]

theorem Holds.rewound (holds : Holds shell origin snapshot state chain)
    {above below : List (Admission env.Ledger)} {target : Admission env.Ledger}
    (split : chain = above ++ target :: below) (notTop : target.block.slot.toNat ≠ 2 ^ 64 - 1)
    (reason : RollbackReason) :
    Holds shell origin snapshot (rewound shell state ⟨target.block.slot, target.block.hash⟩
      (target.ledger, target.chainDep) reason) (target :: below) := by
  have whole := holds.linked
  rw [split] at whole
  have linked := linked_of_append whole
  have member : ∀ admission ∈ target :: below, admission ∈ chain := by
    intro admission listed
    rw [split]
    exact List.mem_append_right _ listed
  refine ⟨linked, rfl, ?_, fun admission listed => holds.named admission (member admission listed),
    holds.held, ?_, rfl, holds.lastSlot (member target (List.mem_cons_self ..)), holds.eta0⟩
  · have kept := rollbackToSlot_keeps holds.keeps notTop
    rw [split, upTo_append whole] at kept
    exact kept
  · refine holds.log.append (.cons (.rollBack (above.map (liveBlock shell))
      (below.map (liveBlock shell)) (liveBlock shell target) _ reason _ _ ?_) (.nil _))
    rw [split, List.map_append, List.map_cons]

section
variable {seed : EraSummary} {count : Nat} (reaches : Reaches seed count env.eraSchedule)
  (body : BodyLocates env) (decodes : shell.decodeSnapshot snapshot = .ok (origin.ledger, origin.chainDep))
include reaches body decodes

theorem Holds.materialize (holds : Holds shell origin snapshot state chain)
    {target : Admission env.Ledger} (member : target ∈ chain) :
    materializeRolledBackState shell.rules state.chaindb state.recoveredEta0 target.block.slot =
      .ok (target.ledger, target.chainDep) := by
  rw [holds.eta0]
  exact materialize_chain reaches body holds.linked holds.named holds.keeps holds.held decodes member

/-- A rollback that succeeds has returned to a block of the chain. -/
theorem Holds.rolledBack (holds : Holds shell origin snapshot state chain) {target : Point}
    {reason : RollbackReason} {outcome : Option Point × State env}
    (applied : applyChainEvent shell state (.rolledBack target) reason none = .ok outcome) :
    ∃ above admission below, chain = above ++ admission :: below ∧
      target = ⟨admission.block.slot, admission.block.hash⟩ ∧
      outcome.2 = Participant.rewound shell state target (admission.ledger, admission.chainDep) reason ∧
      Holds shell origin snapshot outcome.2 (admission :: below) := by
  cases materialized : materializeRolledBackState shell.rules state.chaindb state.recoveredEta0
      target.slot with
  | error failure =>
      unfold applyChainEvent at applied
      dsimp only at applied
      rw [materialized] at applied
      cases applied
  | ok after =>
      rw [applyChainEvent_rolledBack materialized] at applied
      obtain ⟨same, tip⟩ := reconcile_ok applied
      by_cases top : target.slot.toNat = 2 ^ 64 - 1
      · unfold State.tip at tip
        rw [show (Participant.rewound shell state target after reason).chaindb.tip = .ok none from
          tip_rollbackToTop top] at tip
        cases tip
      · have kept := rollbackToSlot_keeps holds.keeps top
        have last := tip_keeps (linked_upTo holds.linked target.slot) kept
        unfold State.tip at tip
        rw [show (Participant.rewound shell state target after reason).chaindb.tip = _ from last] at tip
        obtain ⟨admission, head, point⟩ := Option.map_eq_some_iff.mp tip
        obtain ⟨hash, slot⟩ := ChainTip.mk.inj point
        have member := (Iff.mp mem_upTo (List.mem_of_head? head)).1
        have target_eq : target = ⟨admission.block.slot, admission.block.hash⟩ := by
          rw [hash, slot]
        have rebuilt := holds.materialize reaches body decodes member
        rw [slot, materialized] at rebuilt
        cases rebuilt
        obtain ⟨above, below, split⟩ := List.append_of_mem member
        refine ⟨above, admission, below, split, target_eq, same, ?_⟩
        rw [same, target_eq]
        rw [target_eq] at top
        exact holds.rewound split top reason

/-- A rollback to a block of the chain succeeds. -/
theorem Holds.rollback (holds : Holds shell origin snapshot state chain)
    {above below : List (Admission env.Ledger)} {target : Admission env.Ledger}
    (split : chain = above ++ target :: below) (notTop : target.block.slot.toNat ≠ 2 ^ 64 - 1)
    (reason : RollbackReason) :
    applyChainEvent shell state (.rolledBack ⟨target.block.slot, target.block.hash⟩) reason none =
      .ok (some ⟨target.block.slot, target.block.hash⟩, Participant.rewound shell state
        ⟨target.block.slot, target.block.hash⟩ (target.ledger, target.chainDep) reason) := by
  have member : target ∈ chain := by
    rw [split]
    exact List.mem_append_right _ (List.mem_cons_self ..)
  rw [applyChainEvent_rolledBack (holds.materialize reaches body decodes member)]
  apply reconcile_tip
  exact (holds.rewound split notTop reason).tip

end

end Ade.Proof.Participant
