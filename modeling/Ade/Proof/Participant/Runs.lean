import Ade.Proof.Consensus.OpCert
import Ade.Proof.Participant.ForkSwitch

/-! Whole runs of the participant's loop. -/

namespace Ade.Proof.Participant
open Library Ade.ChainDb Ade.Codec.Shelley Ade.Consensus Ade.Receive Ade.Rollback Ade.ForwardSync
open Ade.Wal Ade.BlockValidity Ade.Participant
open Proof.Rollback
open Proof.BlockValidity (BodyLocates)
open Proof.Consensus (Reaches)

variable {env : Environment} {shell : Shell env} {origin : Origin env.Ledger} {snapshot : Bytes}
  {state : State env} {chain : List (Admission env.Ledger)}

/-! ## The blocks of the store -/

theorem Holds.blocks (holds : Holds shell origin snapshot state chain) :
    state.chaindb.iterFromSlot 0 = .ok (chain.map Admission.block).reverse :=
  iterFromSlot_keeps holds.linked holds.keeps

theorem validateAll_linked (linked : Linked shell.rules (rootOf origin) chain) :
    validateAll shell (originState origin) (chain.map Admission.block).reverse =
      .ok (stateOf (rootOf origin) chain) := by
  induction linked with
  | nil => rfl
  | @cons newest chain accepted later settled below ih =>
      unfold validateAll at ih ⊢
      rw [List.map_cons, List.reverse_cons, List.foldlM_append, ih]
      change (shell.rules.validate (stateOf (rootOf origin) chain).1 (stateOf (rootOf origin) chain).2
        newest.block.bytes >>= pure) = _
      rw [bind_pure, accepted]
      rfl

theorem Holds.lockstep (holds : Holds shell origin snapshot state chain) :
    Lockstep shell origin state (chain.map Admission.block).reverse where
  stored := holds.blocks
  ascending := by
    rw [List.pairwise_reverse, List.pairwise_map]
    exact linked_descending holds.linked
  named := by
    intro block member
    obtain ⟨admission, listed, rfl⟩ := List.mem_map.mp (List.mem_reverse.mp member)
    exact holds.named admission listed
  live := by
    rw [holds.live]
    exact validateAll_linked holds.linked
  priorFp := holds.priorFp
  logged := by
    refine ⟨chain.map (liveBlock shell), holds.log, ?_, holds.tipFp_eq⟩
    rw [← List.map_reverse, List.reverse_reverse, List.map_map, List.map_map]
    rfl

theorem isChain_blocks : (chain.map Admission.block).reverse.IsChain (NamesParent env) ↔
    NamesChain chain := by
  rw [List.isChain_reverse, List.isChain_map]
  rfl

/-- A block of the store is one of the chain, and what is stored before it is the chain below it. -/
theorem split_of_stored {before after : List StoredBlock} {block : StoredBlock}
    (stored : (chain.map Admission.block).reverse = before ++ block :: after) :
    ∃ above admission below, chain = above ++ admission :: below ∧ admission.block = block ∧
      (below.map Admission.block).reverse = before ∧ (above.map Admission.block).reverse = after := by
  rw [List.reverse_eq_iff, List.reverse_append, List.reverse_cons, List.append_assoc] at stored
  obtain ⟨above, rest, rfl, aboveBlocks, restBlocks⟩ := List.map_eq_append_iff.mp stored
  obtain ⟨admission, below, rfl, block_, belowBlocks⟩ := List.map_eq_cons_iff.mp restBlocks
  exact ⟨above, admission, below, rfl, block_, by simp [belowBlocks],
    by simp [aboveBlocks]⟩

/-- A branch that follows a block leaves a slot after it. -/
theorem proven_notTop (holds : Holds shell origin snapshot state chain)
    {target : Admission env.Ledger} (member : target ∈ chain) {expected : Hash32}
    {blocks : List ProvenBlock} (nonempty : blocks ≠ [])
    (proven : Proven shell expected (target.ledger, target.chainDep) blocks) :
    target.block.slot.toNat ≠ 2 ^ 64 - 1 := by
  cases proven with
  | nil => exact absurd rfl nonempty
  | cons decodes parent accepted further =>
      obtain ⟨decoded, tip, blockNo, verdict, -, follows, -⟩ := validate_ok accepted
      have below := follows.lastSlot_lt
      rw [holds.lastSlot member, follows.lastSlot, Option.some_lt_some, UInt64.lt_iff_toNat_lt] at below
      have top := UInt64.toNat_lt decoded.headerInput.slot
      omega

section
variable {seed : EraSummary} {count : Nat} (reaches : Reaches seed count env.eraSchedule)
  (body : BodyLocates env) (decodes : shell.decodeSnapshot snapshot = .ok (origin.ledger, origin.chainDep))
include reaches body decodes

/-! ## Turns -/

theorem forkSwitch_continues (holds : Holds shell origin snapshot state chain)
    {accumulator : AccumulatorStore} {switch : PendingForkSwitch} {bodySource : BranchBodySource}
    {outcome : ForkSwitchOutcome × State env}
    (applied : applyForkSwitch shell accumulator state switch bodySource = .ok outcome) :
    Continues shell origin snapshot chain outcome.2 := by
  have same : ∀ {error : BranchProofError}, outcome = (.proofFailed error, state) →
      Continues shell origin snapshot chain outcome.2 := by
    rintro error rfl
    exact ⟨chain, holds, id⟩
  unfold applyForkSwitch at applied
  cases proof : proveForkSwitch shell state switch bodySource with
  | error error =>
      rw [proof] at applied
      exact same (Except.ok.inj applied).symm
  | ok proven =>
      rw [proof] at applied
      dsimp only at applied
      obtain ⟨before, -, -, checked⟩ := proveForkSwitch_ok proof
      split at applied
      · exact same (Except.ok.inj applied).symm
      · obtain ⟨_, -, applied⟩ := bind_ok applied
        obtain ⟨rolledBack, ran, applied⟩ := bind_ok applied
        obtain ⟨adopted, folded, done⟩ := bind_ok applied
        cases done
        obtain ⟨above, admission, below, split, target, -, rolledHolds⟩ :=
          holds.rolledBack reaches body decodes (mapError_ok ran)
        have top : TopIs switch.forkAnchor.hash (admission :: below) := by
          rintro newest head
          cases head
          exact (congrArg Point.hash target).symm
        obtain ⟨next, nextHolds, names⟩ := adoptBlocks_continues checked rolledHolds top folded
        refine ⟨next, nextHolds, fun linked => names ?_⟩
        rw [split] at linked
        exact namesChain_below linked

/-- A switch to a block of the chain fails its proof, or puts the whole branch above that block. -/
theorem Holds.forkSwitch (holds : Holds shell origin snapshot state chain)
    {above below : List (Admission env.Ledger)} {target : Admission env.Ledger}
    (split : chain = above ++ target :: below) {switch : PendingForkSwitch}
    (point : switch.forkAnchor.point = ⟨target.block.slot, target.block.hash⟩)
    {accumulator : AccumulatorStore} (admits : accumulator.admitAndClear switch.forkAnchor.point = true)
    (bodySource : BranchBodySource) :
    (∃ error, applyForkSwitch shell accumulator state switch bodySource =
      .ok (.proofFailed error, state)) ∨
    ∃ proven tip adopted newer, proveForkSwitch shell state switch bodySource = .ok proven ∧
      proven.blocks.getLast? = some tip ∧
      applyForkSwitch shell accumulator state switch bodySource =
        .ok (.adopted tip.tip (newTipPrev switch.forkAnchor proven.blocks), adopted) ∧
      Holds shell origin snapshot adopted (newer ++ target :: below) ∧
      (newer.map Admission.block).reverse = proven.blocks.map storedOf := by
  have slot : switch.forkAnchor.slot = target.block.slot := congrArg Point.slot point
  cases proof : proveForkSwitch shell state switch bodySource with
  | error error =>
      refine .inl ⟨error, ?_⟩
      unfold applyForkSwitch
      rw [proof]
  | ok proven =>
      obtain ⟨start, materialized, nonempty, checked⟩ := proveForkSwitch_ok proof
      have member : target ∈ chain := by
        rw [split]
        exact List.mem_append_right _ (List.mem_cons_self ..)
      have rebuilt := holds.materialize reaches body decodes member
      rw [← slot, materialized] at rebuilt
      cases rebuilt
      have notTop := proven_notTop holds member nonempty checked
      have rolled := holds.rollback reaches body decodes split notTop .forkChoiceWin
      rw [← point] at rolled
      have rewound := holds.rewound split notTop .forkChoiceWin
      rw [← point] at rewound
      obtain ⟨adopted, newer, folded, final, blocks⟩ := adoptBlocks_admits checked rewound rfl (by
        intro other
        exact Std.ExtTreeMap.getElem?_empty)
      have last := List.getLast?_eq_some_getLast nonempty
      refine .inr ⟨proven, _, adopted, newer, rfl, last, ?_, final, blocks⟩
      unfold applyForkSwitch
      rw [proof]
      dsimp only
      rw [last]
      refine bind_eq_ok.mpr ⟨(), if_pos admits, ?_⟩
      refine bind_eq_ok.mpr ⟨_, mapError_eq_ok.mpr rolled, ?_⟩
      exact bind_eq_ok.mpr ⟨adopted, folded, rfl⟩

/-- Every turn leaves the state of a chain, and every turn that is no refetch a linked one. -/
theorem turn_holds (holds : Holds shell origin snapshot state chain) {item : Turn} {after : State env}
    (taken : turn shell state item = .ok after) : ∃ next, Holds shell origin snapshot after next ∧
      (item.isRefetch = false → NamesChain chain → NamesChain next) := by
  cases item with
  | block blockBytes =>
      obtain ⟨next, nextHolds, names⟩ := receiveBlock_continues holds taken
      exact ⟨next, nextHolds, fun _ => names⟩
  | rollBack accumulator point =>
      obtain ⟨next, nextHolds, names⟩ := peerRollback_continues reaches body decodes holds taken
      exact ⟨next, nextHolds, fun _ => names⟩
  | forkSwitch accumulator switch bodySource =>
      obtain ⟨outcome, applied, rfl⟩ := map_ok taken
      obtain ⟨next, nextHolds, names⟩ := forkSwitch_continues reaches body decodes holds applied
      exact ⟨next, nextHolds, fun _ => names⟩
  | refetch toDescendant bodies =>
      cases taken
      obtain ⟨above, nextHolds, -⟩ := recoverMissingRange_grows holds toDescendant bodies
      exact ⟨above ++ chain, nextHolds, nofun⟩

theorem turns_holds (holds : Holds shell origin snapshot state chain) {items : List Turn}
    {after : State env} (ran : turns shell state items = .ok after) :
    ∃ next, Holds shell origin snapshot after next :=
  @foldlM_invariant _ _ _ _ _ (fun state => ∃ chain, Holds shell origin snapshot state chain) _ _
    (fun _ _ _ _ taken ⟨_, held⟩ => (turn_holds reaches body decodes held taken).imp fun _ next => next.1)
    ran ⟨chain, holds⟩

theorem turns_names (holds : Holds shell origin snapshot state chain) (names : NamesChain chain)
    {items : List Turn} (noRefetch : ∀ item ∈ items, item.isRefetch = false) {after : State env}
    (ran : turns shell state items = .ok after) :
    ∃ next, Holds shell origin snapshot after next ∧ NamesChain next := by
  refine @foldlM_invariant _ _ _ _ _ (fun state => ∃ chain,
    Holds shell origin snapshot state chain ∧ NamesChain chain) _ _ ?_ ran ⟨chain, holds, names⟩
  rintro before item after member taken ⟨current, held, linked⟩
  obtain ⟨next, nextHolds, keeps⟩ := turn_holds reaches body decodes held taken
  exact ⟨next, nextHolds, keeps (noRefetch item member) linked⟩

/-! ## From the start of a node -/

variable (settled : origin.chainDep.lastSlot = some origin.slot) {recoveredAnchor : Option ChainTip}
  {cadence : ForwardSync.SnapshotCadence} {items : List Turn}
  (ran : turns shell (State.start shell origin snapshot recoveredAnchor cadence) items = .ok state)
include settled ran

theorem reached_holds : ∃ chain, Holds shell origin snapshot state chain :=
  turns_holds reaches body decodes (holds_start settled recoveredAnchor cadence) ran

end

/-! ## A node with one block -/

section Samples

def zeroBytes (count : Nat) : Bytes := List.replicate count 0

def zeroString32 : Bytes := [0x58, 0x20] ++ zeroBytes 32

/-- Block 1 at slot 5, whose parent, keys, signatures and hashes are all zeros. -/
def sampleBlockBytes : Bytes :=
  [0x82, 0x07, 0x85, 0x82, 0x8a, 0x01, 0x05] ++ zeroString32 ++ zeroString32 ++ zeroString32 ++
    [0x82, 0x58, 0x40] ++ zeroBytes 64 ++ [0x58, 0x50] ++ zeroBytes 80 ++ [0x00] ++ zeroString32 ++
    [0x84] ++ zeroString32 ++ [0x00, 0x00, 0x58, 0x40] ++ zeroBytes 64 ++ [0x82, 0x0a, 0x00] ++
    [0x59, 0x01, 0xc0] ++ zeroBytes 448 ++ [0x80, 0x80, 0xa0, 0x80]

def sampleEnv : Environment where
  Ledger := Unit
  BodyVerdict := Unit
  verifiers := Proof.Consensus.sampleVerifiers
  blake2b224 _ := Vector.replicate 28 1
  ledgerView := Proof.Consensus.sampleView
  eraSchedule := Proof.Consensus.seedSchedule
  applyBlockWithVerdicts _ _ _ _ := .ok ((), ())

def sampleOrigin : Origin Unit where
  slot := 0
  ledger := ()
  chainDep := { PraosChainDepState.genesis Nonce.zero with lastSlot := some 0, lastBlockNo := some 0 }
  recoveredEta0 := none

def sampleShell : Shell sampleEnv where
  encodeSnapshot _ _ := .ok []
  decodeSnapshot _ := .ok (sampleOrigin.ledger, sampleOrigin.chainDep)
  fingerprint _ := Vector.replicate 32 0

def sampleStart : State sampleEnv :=
  State.start sampleShell sampleOrigin [] (some ⟨Vector.replicate 32 0, 0⟩) ⟨1⟩

theorem sample_reaches : Reaches Proof.Consensus.sampleSeed 0 sampleEnv.eraSchedule where
  eras := rfl
  inRange := ⟨by decide, by decide⟩

theorem sample_body : BodyLocates sampleEnv := fun _ _ => rfl

theorem sample_decodes : (decodeBlock sampleEnv sampleBlockBytes).toOption.map
    (fun decoded => (decoded.headerInput.slot, decoded.blockHash)) =
      some (5, Vector.replicate 32 0) := by
  decide +kernel

theorem sample_accepted : (sampleShell.rules.validate sampleOrigin.ledger sampleOrigin.chainDep
    sampleBlockBytes).toOption.isSome = true := by
  decide +kernel

/-- The block as the store keeps it. -/
def sampleStored : StoredBlock := ⟨Vector.replicate 32 0, 5, sampleBlockBytes⟩

theorem sample_indexed : (sampleStart.chaindb.putBlock sampleStored).2.getBlockByHash
    (Vector.replicate 32 0) = .ok (some sampleStored) := by
  decide +kernel

theorem sample_turn : ∃ state ledger chainDep,
    turns sampleShell sampleStart [.block sampleBlockBytes] = .ok state ∧
      Holds sampleShell sampleOrigin [] state [⟨sampleStored, ledger, chainDep⟩] ∧
      state.chaindb = (sampleStart.chaindb.putBlock sampleStored).2 ∧
      state.recoveredAnchor = sampleStart.recoveredAnchor := by
  have holds : Holds sampleShell sampleOrigin [] sampleStart [] := holds_start rfl _ _
  cases decodes : decodeBlock sampleEnv sampleBlockBytes with
  | error failure =>
      have known := sample_decodes
      rw [decodes] at known
      cases known
  | ok decoded =>
      have known := sample_decodes
      rw [decodes] at known
      obtain ⟨slot, hash⟩ := Prod.mk.inj (Option.some.inj known)
      have stored : storedBlock decoded sampleBlockBytes = sampleStored := by
        unfold storedBlock sampleStored
        rw [slot, hash]
      cases accepted : sampleShell.rules.validate sampleOrigin.ledger sampleOrigin.chainDep
          sampleBlockBytes with
      | error failure =>
          have known := sample_accepted
          rw [accepted] at known
          cases known
      | ok after =>
          obtain ⟨state, pumped, next, -, chaindb, anchor⟩ := pump_admits holds
            (fun point => Std.ExtTreeMap.getElem?_empty) decodes accepted
          rw [stored] at next chaindb
          refine ⟨state, after.1, after.2, ?_, next, chaindb, anchor⟩
          have received : receiveBlock sampleShell sampleStart sampleBlockBytes = .ok state := by
            unfold receiveBlock
            refine bind_eq_ok.mpr ⟨decoded, mapError_eq_ok.mpr decodes, ?_⟩
            refine bind_eq_ok.mpr ⟨none, rfl, ?_⟩
            unfold admitBlock
            rw [pumped]
          exact bind_eq_ok.mpr ⟨state, received, rfl⟩

/-- A switch at the block itself, to a branch without headers. -/
def sampleSwitch : PendingForkSwitch where
  forkAnchor := ⟨5, Vector.replicate 32 0, 1⟩
  winningPeer := "peer"
  winningCandidate := ⟨⟨5, Vector.replicate 32 0⟩, 1, [],
    ⟨0, Vector.replicate 28 0, 0, Vector.replicate 8 0⟩, 0⟩
  winnerTip := ⟨5, Vector.replicate 32 0⟩

end Samples

end Ade.Proof.Participant
