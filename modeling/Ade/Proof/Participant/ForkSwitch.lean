import Ade.Proof.Participant.Turns

/-! A branch that is proved, and the switch to it. -/

namespace Ade.Proof.Participant
open Library Ade.ChainDb Ade.Codec.Shelley Ade.Consensus Ade.Receive Ade.Rollback Ade.ForwardSync
open Ade.Wal Ade.BlockValidity Ade.Participant
open Proof.Rollback
open Proof.BlockValidity (BodyLocates blockValidity_valid)
open Proof.Consensus (Reaches)

variable {env : Environment} {shell : Shell env} {origin : Origin env.Ledger} {snapshot : Bytes}
  {state : State env} {chain : List (Admission env.Ledger)}

/-! ## What a proof establishes -/

/-- The blocks are accepted one after the other, and each names the one before it. -/
inductive Proven (shell : Shell env) :
    Hash32 → env.Ledger × PraosChainDepState → List ProvenBlock → Prop
  | nil (expected : Hash32) (before : env.Ledger × PraosChainDepState) :
      Proven shell expected before []
  | cons {expected : Hash32} {before after : env.Ledger × PraosChainDepState} {blockBytes : Bytes}
      {rest : List ProvenBlock} {decoded : BlockValidity.DecodedBlock}
      (decodes : decodeBlock env blockBytes = .ok decoded)
      (parent : decoded.prevHash = .block expected)
      (accepted : shell.rules.validate before.1 before.2 blockBytes = .ok after)
      (further : Proven shell decoded.blockHash after rest) :
      Proven shell expected before
        (⟨blockBytes, ⟨decoded.headerInput.slot, decoded.blockHash⟩⟩ :: rest)

theorem validateBranch_length {index : Nat} {ledger : env.Ledger} {chainDep : PraosChainDepState}
    {bodies : List Bytes} {blocks : List ProvenBlock}
    (validated : validateBranch index ledger chainDep bodies = .ok blocks) :
    blocks.length = bodies.length := by
  induction bodies generalizing index ledger chainDep blocks with
  | nil =>
      cases validated
      rfl
  | cons body bodies ih =>
      unfold validateBranch at validated
      dsimp only at validated
      split at validated
      · obtain ⟨rest, ran, done⟩ := bind_ok validated
        cases done
        simp [ih ran]
      · cases validated

theorem proven_of_checks {shell : Shell env} {index place : Nat} {expected : Hash32}
    {ledger : env.Ledger} {chainDep : PraosChainDepState} {headers : List HeaderSummary}
    {bodies : List Bytes} {blocks : List ProvenBlock} (same : bodies.length = headers.length)
    (bound : bindBranch env index expected (headers.zip bodies) = .ok ())
    (validated : validateBranch place ledger chainDep bodies = .ok blocks) :
    Proven shell expected (ledger, chainDep) blocks := by
  induction bodies generalizing index place expected ledger chainDep headers blocks with
  | nil =>
      cases validated
      exact .nil expected _
  | cons body bodies ih =>
      cases headers with
      | nil => cases same
      | cons header headers =>
          unfold validateBranch at validated
          unfold bindBranch at bound
          dsimp only [List.zip_cons_cons] at validated bound
          split at validated
          · rename_i tip blockNo verdict valid
            obtain ⟨rest, ran, done⟩ := bind_ok validated
            cases done
            obtain ⟨decoded, decodes, rfl, -⟩ := blockValidity_valid valid
            rw [decodes] at bound
            dsimp only at bound
            split_ifs at bound with mismatch broken
            refine .cons decodes (not_not.mp broken) ?_ (ih (Nat.succ.inj same) bound ran)
            unfold Shell.rules verdictState
            dsimp only
            rw [valid]
          · cases validated

theorem proven_of_prevalidate {switch : PendingForkSwitch} {bodies : List Bytes}
    {before : env.Ledger × PraosChainDepState} {proven : ProvenBranch}
    (checked : prevalidateBranch switch.forkAnchor switch.winningCandidate bodies before.1 before.2 =
      .ok proven) : proven.blocks ≠ [] ∧ Proven shell switch.forkAnchor.hash before proven.blocks := by
  unfold prevalidateBranch at checked
  dsimp only at checked
  by_cases empty : switch.winningCandidate.headers.isEmpty
  · rw [if_pos empty] at checked
    cases checked
  by_cases short : bodies.length ≠ switch.winningCandidate.headers.length
  · rw [if_neg empty, if_pos short] at checked
    cases checked
  rw [if_neg empty, if_neg short] at checked
  obtain ⟨_, bound, checked⟩ := bind_ok checked
  obtain ⟨blocks, validated, done⟩ := bind_ok checked
  cases done
  have same := not_not.mp short
  refine ⟨?_, proven_of_checks same bound validated⟩
  have length := validateBranch_length validated
  rintro rfl
  rw [List.isEmpty_iff_length_eq_zero, ← same, ← length] at empty
  exact empty rfl

/-- A proved switch starts at the state that a rollback to its anchor rebuilds. -/
theorem proveForkSwitch_ok {switch : PendingForkSwitch} {bodySource : BranchBodySource}
    {proven : ProvenBranch} (proof : proveForkSwitch shell state switch bodySource = .ok proven) :
    ∃ before, materializeRolledBackState shell.rules state.chaindb state.recoveredEta0
        switch.forkAnchor.slot = .ok before ∧ proven.blocks ≠ [] ∧
      Proven shell switch.forkAnchor.hash before proven.blocks := by
  unfold proveForkSwitch at proof
  obtain ⟨bodies, -, proof⟩ := bind_ok proof
  cases materialized : materializeRolledBackState shell.rules state.chaindb state.recoveredEta0
      switch.forkAnchor.slot with
  | error failure =>
      rw [materialized] at proof
      cases proof
  | ok before =>
      rw [materialized] at proof
      exact ⟨before, rfl, proven_of_prevalidate proof⟩

/-! ## Adopting the branch -/

/-- The newest block of the chain is the given one, where the chain has a block. -/
def TopIs (hash : Hash32) (chain : List (Admission env.Ledger)) : Prop :=
  ∀ newest ∈ chain.head?, newest.block.hash = hash

theorem adoptBlock_ok {block : ProvenBlock} {after : State env}
    (adopted : adoptBlock shell state block = .ok after) :
    ∃ result, pumpBlock shell state block.bytes = (.ok result, after) ∧
      after.tip = some ⟨block.tip.hash, block.tip.slot⟩ := by
  unfold adoptBlock at adopted
  obtain ⟨outcome, applied, done⟩ := bind_ok adopted
  cases done
  have ran := mapError_ok applied
  unfold applyChainEvent at ran
  dsimp only at ran
  cases pumped : pumpBlock shell state block.bytes with
  | mk result next =>
      rw [pumped] at ran
      cases result with
      | error failure => cases ran
      | ok tip =>
          obtain ⟨same, atTip⟩ := reconcile_ok ran
          rw [same]
          exact ⟨tip, rfl, atTip⟩

/-- Adopting a branch that is bound by its hashes keeps a linked chain linked. -/
theorem adoptBlocks_continues {expected : Hash32} {before : env.Ledger × PraosChainDepState}
    {blocks : List ProvenBlock} (proven : Proven shell expected before blocks)
    (holds : Holds shell origin snapshot state chain) (top : TopIs expected chain)
    {after : State env} (adopted : blocks.foldlM (adoptBlock shell) state = .ok after) :
    Continues shell origin snapshot chain after := by
  induction proven generalizing state chain with
  | nil expected before =>
      cases adopted
      exact ⟨chain, holds, id⟩
  | @cons expected before reached blockBytes rest decoded decodes parent accepted further ih =>
      rw [List.foldlM_cons] at adopted
      obtain ⟨next, first, adopted⟩ := bind_ok adopted
      obtain ⟨result, pumped, tip⟩ := adoptBlock_ok first
      obtain ⟨grown, nextHolds, grows⟩ := holds.pump blockBytes
      rw [pumped] at nextHolds grows
      have nextTop : TopIs decoded.blockHash grown := by
        intro newest head
        rw [nextHolds.tip, head] at tip
        exact (ChainTip.mk.inj (Option.some.inj tip)).1
      obtain ⟨final, finalHolds, linked⟩ := ih nextHolds nextTop adopted
      refine ⟨final, finalHolds, fun names => linked (grows_names decodes names ?_ grows)⟩
      intro newest head
      rw [parent, top newest head]

/-- A block that is accepted where no header is pending is admitted. -/
theorem pump_admits (holds : Holds shell origin snapshot state chain)
    (quiet : ∀ point : Point, state.fwd.receive.pendingHeaders.entries[point]? = none)
    {blockBytes : Bytes} {decoded : BlockValidity.DecodedBlock} {ledger : env.Ledger}
    {chainDep : PraosChainDepState} (decodes : decodeBlock env blockBytes = .ok decoded)
    (accepted : shell.rules.validate (stateOf (rootOf origin) chain).1
      (stateOf (rootOf origin) chain).2 blockBytes = .ok (ledger, chainDep)) :
    ∃ after, pumpBlock shell state blockBytes = (.ok (some (pumpTip decoded)), after) ∧
      Holds shell origin snapshot after (⟨storedBlock decoded blockBytes, ledger, chainDep⟩ :: chain) ∧
      (∀ point : Point, after.fwd.receive.pendingHeaders.entries[point]? = none) ∧
      after.chaindb = (state.chaindb.putBlock (storedBlock decoded blockBytes)).2 ∧
      after.recoveredAnchor = state.recoveredAnchor := by
  rw [← holds.live] at accepted
  obtain ⟨later, -⟩ := holds.later accepted decodes
  obtain ⟨kept, put, -, again, -⟩ := @putBlock_keeps _ _ shell.rules (rootOf origin) state.chaindb
    chain holds.linked holds.keeps ⟨storedBlock decoded blockBytes, ledger, chainDep⟩ later
  obtain ⟨found, looked, known⟩ := getBlockByHash_keeps holds.keeps decoded.blockHash
  have new : found.map StoredBlock.slot ≠ some decoded.headerInput.slot := by
    intro same
    obtain ⟨stored, member, slot⟩ := Option.map_eq_some_iff.mp same
    obtain ⟨admission, listed, at_, -⟩ := known stored member
    have below := slot_le_slotOf holds.linked listed
    rw [at_, slot] at below
    exact UInt64.lt_irrefl _ (UInt64.lt_of_le_of_lt below later)
  obtain ⟨after, ran, pumped⟩ := pumpBlock_admits decodes looked new (quiet _) accepted put again
  refine ⟨after, ran, holds.pumped decodes accepted put pumped, ?_, ?_, pumped.recoveredAnchor⟩
  · intro point
    rw [pumped.pending]
    split_ifs
    · rfl
    · exact quiet point
  · rw [pumped.chaindb]
    exact (congrArg Prod.snd put).symm

theorem adoptBlock_admits (holds : Holds shell origin snapshot state chain)
    (quiet : ∀ point : Point, state.fwd.receive.pendingHeaders.entries[point]? = none)
    {blockBytes : Bytes} {decoded : BlockValidity.DecodedBlock} {ledger : env.Ledger}
    {chainDep : PraosChainDepState} (decodes : decodeBlock env blockBytes = .ok decoded)
    (accepted : shell.rules.validate (stateOf (rootOf origin) chain).1
      (stateOf (rootOf origin) chain).2 blockBytes = .ok (ledger, chainDep)) :
    ∃ after, adoptBlock shell state
        ⟨blockBytes, ⟨decoded.headerInput.slot, decoded.blockHash⟩⟩ = .ok after ∧
      Holds shell origin snapshot after (⟨storedBlock decoded blockBytes, ledger, chainDep⟩ :: chain) ∧
      ∀ point : Point, after.fwd.receive.pendingHeaders.entries[point]? = none := by
  obtain ⟨after, ran, next, quietAfter, -⟩ := pump_admits holds quiet decodes accepted
  refine ⟨after, ?_, next, quietAfter⟩
  unfold adoptBlock applyChainEvent
  dsimp only
  rw [ran]
  dsimp only
  rw [reconcile_tip next.tip]
  rfl

def storedOf (block : ProvenBlock) : StoredBlock :=
  ⟨block.tip.hash, block.tip.slot, block.bytes⟩

/-- A branch that is proved from the state of the chain is adopted whole. -/
theorem adoptBlocks_admits {expected : Hash32} {before : env.Ledger × PraosChainDepState}
    {blocks : List ProvenBlock} (proven : Proven shell expected before blocks)
    (holds : Holds shell origin snapshot state chain)
    (live : before = stateOf (rootOf origin) chain)
    (quiet : ∀ point : Point, state.fwd.receive.pendingHeaders.entries[point]? = none) :
    ∃ after above, blocks.foldlM (adoptBlock shell) state = .ok after ∧
      Holds shell origin snapshot after (above ++ chain) ∧
      (above.map Admission.block).reverse = blocks.map storedOf := by
  induction proven generalizing state chain with
  | nil expected before => exact ⟨state, [], rfl, holds, rfl⟩
  | @cons expected before reached blockBytes rest decoded decodes parent accepted further ih =>
      subst live
      obtain ⟨next, first, nextHolds, nextQuiet⟩ := adoptBlock_admits holds quiet decodes accepted
      obtain ⟨after, above, adopted, final, blocks⟩ := ih nextHolds rfl nextQuiet
      refine ⟨after, above ++ [⟨storedBlock decoded blockBytes, reached.1, reached.2⟩], ?_, ?_, ?_⟩
      · rw [List.foldlM_cons]
        exact bind_eq_ok.mpr ⟨next, first, adopted⟩
      · rw [List.append_assoc]
        exact final
      · simp [blocks, storedOf, storedBlock]

end Ade.Proof.Participant
