import Ade.Proof.BlockValidity.HashChain

/-! What the forward sync plans along a sequence of events. -/

namespace Ade.Proof.BlockValidity
open Library Ade.ChainDb Ade.Consensus Ade.Receive Ade.ForwardSync Ade.Wal Ade.BlockValidity

variable {env : Environment} {W C : Type} {write : ChainDbWrite W}
  {fingerprint : C → env.Ledger → C × Hash32}

/-! ## One event -/

theorem forwardSyncStep_receive (state : ForwardSyncState env.kinds C)
    (store : W × List AdmittedBlock) (event : ReceiveEvent) :
    (forwardSyncStep (authorities env) write.logged fingerprint state store event).state.receive =
        (receiveApply (authorities env) write.logged none state.receive store event).state ∧
      (forwardSyncStep (authorities env) write.logged fingerprint state store event).store =
        (receiveApply (authorities env) write.logged none state.receive store event).store := by
  unfold forwardSyncStep
  dsimp only
  split
  · exact ⟨rfl, rfl⟩
  · unfold recordAdmitted
    dsimp only
    split
    · exact ⟨rfl, rfl⟩
    · split_ifs <;> exact ⟨rfl, rfl⟩
  · exact ⟨rfl, rfl⟩

/-- Without a rollback context an event that asks for one fails and changes nothing. -/
theorem receiveApply_none_moves {state : ReceiveState env.kinds} {store : W}
    {log : List AdmittedBlock} (event : ReceiveEvent) :
    Moves env state log event
      (receiveApply (authorities env) write.logged none state (store, log) event) := by
  cases event with
  | rollForward slot hash headerBytes tip => exact receiveApply_moves rfl
  | blockDelivered blockBytes => exact receiveApply_moves rfl
  | rollBackward targetPoint tip => exact .stays rfl rfl nofun

/-- What an event makes the forward sync plan and remember. -/
inductive Syncs (env : Environment) (state : ForwardSyncState env.kinds C)
    (log : List AdmittedBlock) (synced : Synced env.kinds (W × List AdmittedBlock) C) : Prop
  | idle (effects : synced.effects = []) (written : synced.store.2 = log)
      (priorFp : synced.state.priorFp = state.priorFp)
      (lastCheckpoint : synced.state.lastCheckpoint = state.lastCheckpoint)
  | admits (blockBytes : Bytes) (decoded : BlockValidity.DecodedBlock) (postFp : Hash32)
      (checkpoint : Option SlotNo) (decodes : decodeBlock env blockBytes = .ok decoded)
      (effects : synced.effects =
        (AdmitPlan.durable ⟨decoded.blockHash, decoded.headerInput.slot, blockBytes⟩
          (.admitBlock state.priorFp decoded.blockHash decoded.headerInput.slot .valid postFp)
          checkpoint decoded.headerInput.slot decoded.blockHash).effects)
      (written : synced.store.2 = log ++ [⟨blockBytes⟩])
      (priorFp : synced.state.priorFp = postFp)
      (later : ∀ slot, checkpoint = some slot → state.lastCheckpoint < some slot)
      (lastCheckpoint : synced.state.lastCheckpoint = checkpoint.or state.lastCheckpoint)

theorem shouldSnapshot_later {slot : SlotNo} {blockNo : BlockNo} {cadence : SnapshotCadence}
    {last : Option SlotNo}
    (due : shouldSnapshotAfterBlock slot blockNo cadence last = true) : last < some slot := by
  unfold shouldSnapshotAfterBlock at due
  split_ifs at due
  cases last with
  | none => exact Option.none_lt_some
  | some earlier =>
      simp only [ge_iff_le, decide_eq_true_eq] at due
      exact Option.some_lt_some.mpr (UInt64.not_le.mp (by simpa using due))

theorem forwardSyncStep_syncs (state : ForwardSyncState env.kinds C) (store : W)
    (log : List AdmittedBlock) (event : ReceiveEvent) :
    Syncs env state log
      (forwardSyncStep (authorities env) write.logged fingerprint state (store, log) event) := by
  have moves := @receiveApply_none_moves env W write state.receive store log event
  unfold forwardSyncStep
  cases moves with
  | stays chainDep written other =>
      dsimp only
      split
      · exact .idle rfl written rfl rfl
      · rename_i slot hash result
        exact absurd result (other slot hash)
      · exact .idle rfl written rfl rfl
  | admits blockBytes decoded delivered decodes known follows result written =>
      subst delivered
      simp only [result, recordAdmitted]
      split
      · exact .admits blockBytes decoded _ none decodes rfl written rfl nofun rfl
      · split_ifs with due
        · refine .admits blockBytes decoded _ (some decoded.headerInput.slot) decodes rfl written rfl
            ?_ rfl
          intro slot same
          cases same
          exact shouldSnapshot_later due
        · exact .admits blockBytes decoded _ none decodes rfl written rfl nofun rfl

/-! ## Breaking off between two effects -/

theorem durableBeforeTip_nil : DurableBeforeTip [] := by
  intro done cut
  rw [List.prefix_nil.mp cut]
  exact ⟨List.nil_prefix, List.nil_prefix⟩

/-- A plan is done as a whole before the next one begins. -/
theorem durableBeforeTip_append {stored : StoredBlock} {priorFp postFp : Hash32}
    {checkpoint : Option SlotNo} {rest : List SyncEffect} (durable : DurableBeforeTip rest) :
    DurableBeforeTip ((AdmitPlan.durable stored
      (.admitBlock priorFp stored.hash stored.slot .valid postFp) checkpoint stored.slot
      stored.hash).effects ++ rest) := by
  intro done cut
  cases checkpoint with
  | none =>
      simp only [AdmitPlan.durable, Option.map_none, Option.toList_none, List.append_nil,
        List.cons_append, List.nil_append] at cut
      rcases List.prefix_cons_iff.mp cut with rfl | ⟨logs, rfl, afterStore⟩
      · exact ⟨List.nil_prefix, List.nil_prefix⟩
      rcases List.prefix_cons_iff.mp afterStore with rfl | ⟨tips, rfl, afterLog⟩
      · exact ⟨List.nil_prefix, List.nil_prefix⟩
      rcases List.prefix_cons_iff.mp afterLog with rfl | ⟨later, rfl, afterThird⟩
      · exact ⟨List.nil_prefix, List.prefix_rfl⟩
      exact (durable later afterThird).imp (List.prefix_cons_inj _).mpr (List.prefix_cons_inj _).mpr
  | some slot =>
      simp only [AdmitPlan.durable, Option.map_some, Option.toList_some, List.cons_append,
        List.nil_append] at cut
      rcases List.prefix_cons_iff.mp cut with rfl | ⟨logs, rfl, afterStore⟩
      · exact ⟨List.nil_prefix, List.nil_prefix⟩
      rcases List.prefix_cons_iff.mp afterStore with rfl | ⟨snapshots, rfl, afterLog⟩
      · exact ⟨List.nil_prefix, List.nil_prefix⟩
      rcases List.prefix_cons_iff.mp afterLog with rfl | ⟨tips, rfl, afterThird⟩
      · exact ⟨List.nil_prefix, List.prefix_rfl⟩
      rcases List.prefix_cons_iff.mp afterThird with rfl | ⟨later, rfl, afterFourth⟩
      · exact ⟨List.nil_prefix, List.prefix_rfl⟩
      exact (durable later afterFourth).imp (List.prefix_cons_inj _).mpr (List.prefix_cons_inj _).mpr

/-! ## Sequences of events -/

theorem synchronized_nil (state : ForwardSyncState env.kinds C) : Synchronized env state [] [] where
  records := trivial
  stored := rfl
  durable := durableBeforeTip_nil
  checkpoints := .nil
  fresh := nofun

theorem synchronized_cons {state : ForwardSyncState env.kinds C} {log : List AdmittedBlock}
    {synced : Synced env.kinds (W × List AdmittedBlock) C} {blocks : List AdmittedBlock}
    {effects : List SyncEffect} (syncs : Syncs env state log synced)
    (rest : Synchronized env synced.state blocks effects) :
    ∃ first, synced.store.2 = log ++ first ∧
      Synchronized env state (first ++ blocks) (synced.effects ++ effects) := by
  cases syncs with
  | idle none_ written priorFp lastCheckpoint =>
      refine ⟨[], by rw [written, List.append_nil], ?_⟩
      rw [none_]
      exact ⟨priorFp ▸ rest.records, rest.stored, rest.durable, rest.checkpoints,
        lastCheckpoint ▸ rest.fresh⟩
  | admits blockBytes decoded postFp checkpoint decodes planned written priorFp later
      lastCheckpoint =>
      refine ⟨[⟨blockBytes⟩], written, ?_⟩
      rw [planned]
      have records := rest.records
      rw [priorFp] at records
      have fresh := rest.fresh
      rw [lastCheckpoint] at fresh
      refine ⟨?_, ?_, durableBeforeTip_append rest.durable, ?_, ?_⟩
      · cases checkpoint <;> exact ⟨rfl, ⟨decoded, decodes, rfl, rfl⟩, records⟩
      · cases checkpoint <;> exact congrArg (blockBytes :: ·) rest.stored
      · cases checkpoint with
        | none => exact rest.checkpoints
        | some slot =>
            refine List.pairwise_cons.mpr ⟨fun after member => ?_, rest.checkpoints⟩
            exact Option.some_lt_some.mp (fresh after member)
      · cases checkpoint with
        | none => exact fresh
        | some slot =>
            intro after member
            rcases List.mem_cons.mp member with rfl | member
            · exact later after rfl
            · exact Proof.Consensus.option_lt_trans (later slot rfl) (fresh after member)

theorem forwardSyncAll_synchronized (events : List ReceiveEvent)
    (state : ForwardSyncState env.kinds C) (store : W) (log : List AdmittedBlock) :
    ∃ blocks, (forwardSyncAll (authorities env) write.logged fingerprint state (store, log)
        events).2.1.2 = log ++ blocks ∧
      Synchronized env state blocks (forwardSyncAll (authorities env) write.logged fingerprint state
        (store, log) events).2.2 := by
  induction events generalizing state store log with
  | nil => exact ⟨[], (List.append_nil log).symm, synchronized_nil state⟩
  | cons event events ih =>
      have syncs := @forwardSyncStep_syncs env W C write fingerprint state store log event
      obtain ⟨blocks, written, rest⟩ := ih
        (forwardSyncStep (authorities env) write.logged fingerprint state (store, log) event).state
        (forwardSyncStep (authorities env) write.logged fingerprint state (store, log) event).store.1
        (forwardSyncStep (authorities env) write.logged fingerprint state (store, log) event).store.2
      obtain ⟨first, began, whole⟩ := synchronized_cons syncs rest
      refine ⟨first ++ blocks, ?_, whole⟩
      rw [← List.append_assoc, ← began]
      exact written

theorem ascends_trans {first second third : AdmittedBlock} (before : Ascends env first second)
    (after : Ascends env second third) : Ascends env first third := by
  obtain ⟨above, middle, decodesAbove, decodesMiddle, slot, blockNo⟩ := before
  obtain ⟨again, below, decodesAgain, decodesBelow, laterSlot, laterBlockNo⟩ := after
  rw [decodesMiddle] at decodesAgain
  cases decodesAgain
  exact ⟨above, below, decodesAbove, decodesBelow, UInt64.lt_trans slot laterSlot,
    UInt64.lt_trans blockNo laterBlockNo⟩

theorem pairwise_ascends {blocks : List AdmittedBlock} (chain : blocks.IsChain (Ascends env)) :
    blocks.Pairwise (Ascends env) := by
  have : IsTrans AdmittedBlock (Ascends env) := ⟨fun _ _ _ => ascends_trans⟩
  exact List.isChain_iff_pairwise.mp chain

theorem forwardSyncAll_ascends (events : List ReceiveEvent) (state : ForwardSyncState env.kinds C)
    (store : W) (log : List AdmittedBlock) (told : TipTold env state.receive.chainDep log)
    (ascends : log.IsChain (Ascends env)) :
    (forwardSyncAll (authorities env) write.logged fingerprint state (store, log)
      events).2.1.2.IsChain (Ascends env) := by
  induction events generalizing state store log with
  | nil => exact ascends
  | cons event events ih =>
      have moves := @receiveApply_none_moves env W write state.receive store log event
      obtain ⟨receive, written⟩ :=
        @forwardSyncStep_receive env W C write fingerprint state (store, log) event
      have ascends := ascends_moves moves told ascends
      have told := tipTold_moves moves told
      rw [← written] at told ascends
      rw [← receive] at told
      exact ih _ _ _ told ascends

/-- Whatever arrives, the admitted blocks ascend in slot and in number, the transitions of the log are
theirs in order, and a crash between two effects leaves no tip without its log entry and bytes. -/
theorem forwardSyncAll_log (state : ForwardSyncState env.kinds C) (store : W)
    (events : List ReceiveEvent) :
    let run := forwardSyncAll (authorities env) write.logged fingerprint state (store, []) events
    run.2.1.2.Pairwise (Ascends env) ∧ Synchronized env state run.2.1.2 run.2.2 := by
  have ascends := @forwardSyncAll_ascends env W C write fingerprint events state store [] nofun .nil
  obtain ⟨blocks, written, synchronized⟩ :=
    @forwardSyncAll_synchronized env W C write fingerprint events state store []
  rw [List.nil_append] at written
  rw [← written] at synchronized
  exact ⟨pairwise_ascends ascends, synchronized⟩

end Ade.Proof.BlockValidity
