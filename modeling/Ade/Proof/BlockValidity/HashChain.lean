import Ade.BlockValidity.HashChain
import Ade.Proof.Consensus.HeaderRuns
import Ade.Proof.Receive.Reducer

/-! What the admission of blocks preserves along a sequence of events. -/

namespace Ade.Proof.BlockValidity
open Library Ade.Consensus Ade.Receive Ade.ForwardSync Ade.Wal Ade.BlockValidity
open Ade.Proof.Consensus (Admits Follows follows_of_admits)
open Ade.Proof.Receive (rollForward_kept receiveApply_blockDelivered)

variable {env : Environment} {W C : Type} {write : ChainDbWrite W}
  {rollbackCtx : Option (RollbackContext env.kinds)}

/-! ## One event -/

theorem logged_ok {block : AdmittedBlock} {store : W} {log : List AdmittedBlock}
    {after : W × List AdmittedBlock}
    (written : write.logged.writeAdmitted block (store, log) = (.ok (), after)) :
    after.2 = log ++ [block] := by
  dsimp only [ChainDbWrite.logged] at written
  split at written
  · cases written
    rfl
  · cases written

theorem logged_error {block : AdmittedBlock} {store : W} {log : List AdmittedBlock}
    {error : ChainWriteError} {after : W × List AdmittedBlock}
    (written : write.logged.writeAdmitted block (store, log) = (.error error, after)) :
    after.2 = log := by
  dsimp only [ChainDbWrite.logged] at written
  split at written
  · cases written
  · cases written
    rfl

/-- The summary of an accepted header repeats its fields. -/
theorem summary_of_accepted {verifiers : Verifiers} {state : PraosChainDepState}
    {header : HeaderInput} {ledgerView : LedgerView} {schedule : EraSchedule}
    {leaderEligibility : Consensus.LeaderEligibility} {applied : HeaderApplied}
    (accepted : validateAndApplyHeader verifiers state header ledgerView schedule
      leaderEligibility = .ok applied) :
    applied.summary.slot = header.slot ∧ applied.summary.blockNo = header.blockNo ∧
      applied.summary.bodyHash = header.bodyHash := by
  unfold validateAndApplyHeader at accepted
  obtain ⟨_, -, accepted⟩ := bind_ok accepted
  obtain ⟨_, -, accepted⟩ := bind_ok accepted
  obtain ⟨_, -, accepted⟩ := bind_ok accepted
  obtain ⟨_, -, accepted⟩ := bind_ok accepted
  obtain ⟨_, -, accepted⟩ := bind_ok accepted
  obtain ⟨_, -, accepted⟩ := bind_ok accepted
  obtain ⟨_, -, accepted⟩ := bind_ok accepted
  obtain ⟨_, -, accepted⟩ := bind_ok accepted
  obtain ⟨_, -, accepted⟩ := bind_ok accepted
  obtain ⟨_, -, accepted⟩ := bind_ok accepted
  obtain ⟨_, -, accepted⟩ := bind_ok accepted
  cases accepted
  exact ⟨rfl, rfl, rfl⟩

/-- A valid block has passed every stage, and its outcome is made of what they returned. -/
theorem blockValidity_eq_valid {K : Kinds} {authorities : Authorities K} {blockBytes : Bytes}
    {ledger : K.Ledger} {chainDep : PraosChainDepState} {tip : Point} {blockNo : BlockNo}
    {body : K.BodyVerdict}
    (valid : (blockValidity authorities ledger chainDep blockBytes).verdict =
      .valid tip blockNo body) :
    ∃ decoded applied newLedger, authorities.decodeBlock blockBytes = .ok decoded ∧
      authorities.validateAndApplyHeader chainDep decoded.headerInput .enforce = .ok applied ∧
      decoded.computedBodyHash = applied.bodyHash ∧
      blockValidity authorities ledger chainDep blockBytes =
        ⟨.valid ⟨applied.slot, decoded.blockHash⟩ applied.blockNo body, newLedger,
          applied.newState⟩ := by
  unfold blockValidity blockValidityWithEligibility at valid ⊢
  cases decodes : authorities.decodeBlock blockBytes with
  | error failure =>
      rw [decodes] at valid
      cases valid
  | ok decoded =>
      simp only [decodes] at valid ⊢
      cases accepted : authorities.validateAndApplyHeader chainDep decoded.headerInput .enforce with
      | error failure =>
          rw [accepted] at valid
          cases valid
      | ok applied =>
          simp only [accepted] at valid ⊢
          by_cases bound : decoded.computedBodyHash = applied.bodyHash
          · simp only [bound, ne_eq, not_true_eq_false, if_false] at valid ⊢
            split at valid
            · cases valid
            · rename_i verdict newLedger applies
              cases valid
              exact ⟨decoded, applied, newLedger, rfl, accepted, bound, rfl⟩
          · rw [if_pos bound] at valid
            cases valid

/-- A valid block has decoded, its header follows the state and its tip is its own point. -/
theorem blockValidity_valid {blockBytes : Bytes} {ledger : env.Ledger}
    {chainDep : PraosChainDepState} {tip : Point} {blockNo : BlockNo} {body : env.BodyVerdict}
    (valid : (blockValidity (authorities env) ledger chainDep blockBytes).verdict =
      .valid tip blockNo body) :
    ∃ decoded, decodeBlock env blockBytes = .ok decoded ∧
      tip = ⟨decoded.headerInput.slot, decoded.blockHash⟩ ∧
      blockNo = decoded.headerInput.blockNo ∧
      decoded.computedBodyHash = decoded.headerInput.bodyHash ∧
      Follows chainDep decoded.headerInput
        (blockValidity (authorities env) ledger chainDep blockBytes).chainDep := by
  obtain ⟨given, applied, newLedger, decodes, accepted, bound, outcome⟩ :=
    blockValidity_eq_valid valid
  obtain ⟨decoded, ran, rfl⟩ := map_ok decodes
  obtain ⟨header, validated, rfl⟩ := map_ok accepted
  obtain ⟨slot, number, bodyHash⟩ := summary_of_accepted validated
  have admits : Admits env.verifiers chainDep
      ⟨decoded.headerInput, env.ledgerView, env.eraSchedule, .enforce⟩ header.newState :=
    ⟨header.summary, validated⟩
  rw [outcome] at valid ⊢
  cases valid
  refine ⟨decoded, ran, ?_, number, bound.trans bodyHash, follows_of_admits admits⟩
  exact congrArg (Point.mk · decoded.blockHash) slot

/-- An admitted block has decoded, and its header follows the state. -/
theorem admitViaBlockValidity_follows {blockBytes : Bytes} {ledger : env.Ledger}
    {chainDep : PraosChainDepState} {outcome : AdmittedOutcome env.kinds}
    (admitted : admitViaBlockValidity (authorities env) blockBytes ledger chainDep = .ok outcome) :
    ∃ decoded, decodeBlock env blockBytes = .ok decoded ∧ outcome.admitted = ⟨blockBytes⟩ ∧
      Follows chainDep decoded.headerInput outcome.chainDep := by
  unfold admitViaBlockValidity at admitted
  dsimp only at admitted
  split at admitted
  · rename_i tip blockNo body valid
    obtain ⟨decoded, ran, -, -, -, follows⟩ := blockValidity_valid valid
    cases admitted
    exact ⟨decoded, ran, rfl, follows⟩
  · cases admitted

/-- What an event without a rollback can do to the header state and to the log of the writes. -/
inductive Moves (env : Environment) (state : ReceiveState env.kinds) (log : List AdmittedBlock)
    (event : ReceiveEvent) (received : Received env.kinds (W × List AdmittedBlock)) : Prop
  | stays (chainDep : received.state.chainDep = state.chainDep) (written : received.store.2 = log)
      (other : ∀ slot hash, received.result ≠ .ok (.admitted slot hash))
  | admits (blockBytes : Bytes) (decoded : BlockValidity.DecodedBlock)
      (delivered : event = .blockDelivered blockBytes)
      (decodes : decodeBlock env blockBytes = .ok decoded)
      (known : state.pendingHeaders.contains decoded.headerInput.slot decoded.blockHash = true)
      (follows : Follows state.chainDep decoded.headerInput received.state.chainDep)
      (result : received.result = .ok (.admitted decoded.headerInput.slot decoded.blockHash))
      (written : received.store.2 = log ++ [⟨blockBytes⟩])

theorem rollForward_not_admitted (state : ReceiveState env.kinds) (slot : SlotNo) (hash : Hash32)
    (headerBytes : Bytes) (at_ : SlotNo) (of_ : Hash32) :
    (rollForward state slot hash headerBytes).1 ≠ .ok (.admitted at_ of_) := by
  unfold rollForward
  dsimp only
  split
  · split_ifs <;> nofun
  · nofun

theorem blockDelivered_moves (state : ReceiveState env.kinds) (store : W)
    (log : List AdmittedBlock) (blockBytes : Bytes) :
    Moves env state log (.blockDelivered blockBytes)
      (blockDelivered (authorities env) write.logged state (store, log) blockBytes) := by
  unfold blockDelivered
  cases decodes : (authorities env).decodeBlock blockBytes with
  | error failure => exact .stays rfl rfl nofun
  | ok given =>
      obtain ⟨decoded, ran, rfl⟩ := map_ok decodes
      dsimp only
      split_ifs with known
      · cases admitted : admitViaBlockValidity (authorities env) blockBytes state.ledger
            state.chainDep with
        | error failure => exact .stays rfl rfl nofun
        | ok outcome =>
            obtain ⟨same, again, block, follows⟩ := admitViaBlockValidity_follows admitted
            rw [ran] at again
            cases again
            dsimp only
            cases written : write.logged.writeAdmitted outcome.admitted (store, log) with
            | mk result after =>
                cases result with
                | error failure => exact .stays rfl (logged_error written) nofun
                | ok done =>
                    refine .admits blockBytes decoded rfl ran known follows rfl ?_
                    rw [← block]
                    exact logged_ok written
      · exact .stays rfl rfl nofun

theorem receiveApply_moves {state : ReceiveState env.kinds} {store : W} {log : List AdmittedBlock}
    {event : ReceiveEvent} (forward : event.isRollBackward = false) :
    Moves env state log event
      (receiveApply (authorities env) write.logged rollbackCtx state (store, log) event) := by
  cases event with
  | rollForward slot hash headerBytes tip =>
      exact .stays (rollForward_kept state slot hash headerBytes).2 rfl
        (rollForward_not_admitted state slot hash headerBytes)
  | blockDelivered blockBytes => exact blockDelivered_moves state store log blockBytes
  | rollBackward targetPoint tip => cases forward

/-! ## Positions -/

/-- The last admitted block is where the headers stand. -/
def TipTold (env : Environment) (chainDep : PraosChainDepState) (log : List AdmittedBlock) : Prop :=
  ∀ last, log.getLast? = some last → ∃ decoded, decodeBlock env last.bytes = .ok decoded ∧
    chainDep.lastSlot = some decoded.headerInput.slot ∧
    chainDep.lastBlockNo = some decoded.headerInput.blockNo

theorem isChain_concat {α : Type} {related : α → α → Prop} {items : List α} {item : α}
    (chain : items.IsChain related)
    (next : ∀ last, items.getLast? = some last → related last item) :
    (items ++ [item]).IsChain related := by
  rw [List.isChain_append]
  refine ⟨chain, List.isChain_singleton item, ?_⟩
  intro last ends first starts
  cases starts
  exact next last ends

section
variable {state : ReceiveState env.kinds} {log : List AdmittedBlock} {event : ReceiveEvent}
  {received : Received env.kinds (W × List AdmittedBlock)}

theorem tipTold_moves (moves : Moves env state log event received)
    (told : TipTold env state.chainDep log) :
    TipTold env received.state.chainDep received.store.2 := by
  cases moves with
  | stays chainDep written other =>
      rw [chainDep, written]
      exact told
  | admits blockBytes decoded delivered decodes known follows result written =>
      rw [written]
      intro last ends
      rw [List.getLast?_concat] at ends
      cases ends
      exact ⟨decoded, decodes, follows.lastSlot, follows.lastBlockNo⟩

theorem ascends_moves (moves : Moves env state log event received)
    (told : TipTold env state.chainDep log) (ascends : log.IsChain (Ascends env)) :
    received.store.2.IsChain (Ascends env) := by
  cases moves with
  | stays chainDep written other =>
      rw [written]
      exact ascends
  | admits blockBytes decoded delivered decodes known follows result written =>
      rw [written]
      refine isChain_concat ascends fun last ends => ?_
      obtain ⟨above, ran, slot, blockNo⟩ := told last ends
      have later := follows.lastSlot_lt
      have higher := follows.lastBlockNo_lt
      rw [slot, follows.lastSlot, Option.some_lt_some] at later
      rw [blockNo, follows.lastBlockNo, Option.some_lt_some] at higher
      exact ⟨above, decoded, ran, decodes, later, higher⟩

end

end Ade.Proof.BlockValidity
