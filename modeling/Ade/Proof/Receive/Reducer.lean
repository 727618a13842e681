import Ade.Receive.Reducer

namespace Ade.Proof.Receive
open Library Ade.Consensus Ade.ChainDb Ade.Rollback Ade.Receive

variable {K : Kinds} {W : Type} {authorities : Authorities K} {write : ChainDbWrite W}
  {rollbackCtx : Option (RollbackContext K)}

/-! ## One event -/

theorem rollForward_kept (state : ReceiveState K) (slot : SlotNo) (hash : Hash32)
    (headerBytes : Bytes) :
    (rollForward state slot hash headerBytes).2.ledger = state.ledger ∧
      (rollForward state slot hash headerBytes).2.chainDep = state.chainDep := by
  unfold rollForward
  dsimp only
  split
  · split_ifs <;> exact ⟨rfl, rfl⟩
  · exact ⟨rfl, rfl⟩

theorem rollForward_error {state : ReceiveState K} {slot : SlotNo} {hash : Hash32}
    {headerBytes : Bytes} {error : ReceiveError K}
    (failed : (rollForward state slot hash headerBytes).1 = .error error) :
    (rollForward state slot hash headerBytes).2 = state := by
  unfold rollForward PendingHeaderCache.insert at failed ⊢
  cases cached : state.pendingHeaders.entries[(⟨slot, hash⟩ : Point)]? with
  | none =>
      simp only [cached] at failed
      split_ifs at failed
  | some existing =>
      by_cases same : existing = headerBytes
      · simp only [cached, same, if_true] at failed
        split_ifs at failed
      · simp only [same, if_false]

/-- Everything that a delivered block can lead to. -/
theorem blockDelivered_cases (authorities : Authorities K) (write : ChainDbWrite W)
    (state : ReceiveState K) (store : W) (blockBytes : Bytes) :
    (∃ error, blockDelivered authorities write state store blockBytes =
      ⟨.error error, state, store⟩) ∨
    (∃ outcome error after, write.writeAdmitted outcome store = (.error error, after) ∧
      blockDelivered authorities write state store blockBytes =
        ⟨.error (.chainDb error), state, after⟩) ∨
    (∃ outcome effect after pendingHeaders,
      admitViaBlockValidity authorities blockBytes state.ledger state.chainDep = .ok outcome ∧
      outcome.admitted.bytes = blockBytes ∧
      write.writeAdmitted outcome.admitted store = (.ok (), after) ∧
      blockDelivered authorities write state store blockBytes =
        ⟨.ok effect, ⟨outcome.ledger, outcome.chainDep, pendingHeaders⟩, after⟩) := by
  unfold blockDelivered
  cases authorities.decodeBlock blockBytes with
  | error error => exact .inl ⟨_, rfl⟩
  | ok decoded =>
      dsimp only
      split_ifs with known
      · cases admitted : admitViaBlockValidity authorities blockBytes state.ledger
            state.chainDep with
        | error error => exact .inl ⟨_, rfl⟩
        | ok outcome =>
            dsimp only
            cases written : write.writeAdmitted outcome.admitted store with
            | mk result after =>
                cases result with
                | error error => exact .inr (.inl ⟨_, error, after, written, rfl⟩)
                | ok done =>
                    refine .inr (.inr ⟨outcome, _, after, _, rfl, ?_, written, rfl⟩)
                    unfold admitViaBlockValidity at admitted
                    dsimp only at admitted
                    split at admitted
                    · cases admitted
                      rfl
                    · cases admitted
      · exact .inl ⟨_, rfl⟩

theorem rollBackward_error {context : RollbackContext K} {state : ReceiveState K} {store : W}
    {targetPoint : Point} {error : ReceiveError K}
    (failed : (rollBackward write context state store targetPoint).result = .error error) :
    (rollBackward write context state store targetPoint).state = state ∧
      (write.KeepsStoreOnError →
        (rollBackward write context state store targetPoint).store = store) := by
  unfold rollBackward commitRollback at failed ⊢
  cases materialized : context targetPoint.slot with
  | error failure => exact ⟨rfl, fun _ => rfl⟩
  | ok states =>
      simp only [materialized] at failed ⊢
      cases rolled : write.rollbackToSlot targetPoint.slot store with
      | mk result after =>
          cases result with
          | ok done => simp only [rolled, reduceCtorEq] at failed
          | error reason =>
              simp only
              exact ⟨trivial, fun keeps => keeps.rollbackToSlot _ _ _ _ rolled⟩

theorem receiveApply_blockDelivered (authorities : Authorities K) (write : ChainDbWrite W)
    (rollbackCtx : Option (RollbackContext K)) (state : ReceiveState K) (store : W)
    (blockBytes : Bytes) :
    receiveApply authorities write rollbackCtx state store (.blockDelivered blockBytes) =
      blockDelivered authorities write state store blockBytes := rfl

theorem receiveApply_error {state : ReceiveState K} {store : W} {event : ReceiveEvent}
    {error : ReceiveError K}
    (failed : (receiveApply authorities write rollbackCtx state store event).result = .error error) :
    (receiveApply authorities write rollbackCtx state store event).state = state ∧
      (write.KeepsStoreOnError →
        (receiveApply authorities write rollbackCtx state store event).store = store) := by
  cases event with
  | rollForward slot hash headerBytes tip => exact ⟨rollForward_error failed, fun _ => rfl⟩
  | blockDelivered blockBytes =>
      rw [receiveApply_blockDelivered] at failed ⊢
      rcases blockDelivered_cases authorities write state store blockBytes with
        ⟨reason, returned⟩ | ⟨block, reason, after, written, returned⟩ |
          ⟨outcome, effect, after, pendingHeaders, -, -, -, returned⟩
      · rw [returned]
        exact ⟨rfl, fun _ => rfl⟩
      · rw [returned]
        exact ⟨rfl, fun keeps => keeps.writeAdmitted _ _ _ _ written⟩
      · rw [returned] at failed
        cases failed
  | rollBackward targetPoint tip =>
      unfold receiveApply at failed ⊢
      cases rollbackCtx with
      | none => exact ⟨rfl, fun _ => rfl⟩
      | some context => exact rollBackward_error failed

/-! ## Sequences -/

/-- The log does not change what the implementation does. -/
theorem receiveApply_logged (state : ReceiveState K) (store : W) (log : List AdmittedBlock)
    (event : ReceiveEvent) :
    (receiveApply authorities write.logged rollbackCtx state (store, log) event).state =
        (receiveApply authorities write rollbackCtx state store event).state ∧
      (receiveApply authorities write.logged rollbackCtx state (store, log) event).store.1 =
        (receiveApply authorities write rollbackCtx state store event).store := by
  cases event with
  | rollForward slot hash headerBytes tip => exact ⟨rfl, rfl⟩
  | blockDelivered blockBytes =>
      rw [receiveApply_blockDelivered, receiveApply_blockDelivered]
      unfold blockDelivered
      cases authorities.decodeBlock blockBytes with
      | error error => exact ⟨rfl, rfl⟩
      | ok decoded =>
          dsimp only
          split_ifs with known
          · cases admitViaBlockValidity authorities blockBytes state.ledger state.chainDep with
            | error error => exact ⟨rfl, rfl⟩
            | ok outcome =>
                dsimp only [ChainDbWrite.logged]
                cases write.writeAdmitted outcome.admitted store with
                | mk result after =>
                    cases result with
                    | error error => exact ⟨rfl, rfl⟩
                    | ok done => exact ⟨rfl, rfl⟩
          · exact ⟨rfl, rfl⟩
  | rollBackward targetPoint tip =>
      cases rollbackCtx with
      | none => exact ⟨rfl, rfl⟩
      | some context =>
          show (rollBackward write.logged context state (store, log) targetPoint).state =
              (rollBackward write context state store targetPoint).state ∧
            (rollBackward write.logged context state (store, log) targetPoint).store.1 =
              (rollBackward write context state store targetPoint).store
          unfold rollBackward commitRollback
          cases context targetPoint.slot with
          | error failure => exact ⟨rfl, rfl⟩
          | ok states =>
              cases rolled : write.rollbackToSlot targetPoint.slot store with
              | mk result after =>
                  simp only [ChainDbWrite.logged, rolled]
                  cases result with
                  | error error => exact ⟨rfl, rfl⟩
                  | ok done => exact ⟨rfl, rfl⟩

/-- The states are what the logged blocks lead to from the genesis states. -/
def Lockstep (authorities : Authorities K) (genesis : K.Ledger × PraosChainDepState)
    (state : ReceiveState K) (log : List AdmittedBlock) : Prop :=
  log.foldlM (applyValid authorities) genesis = .ok (state.ledger, state.chainDep)

theorem receiveApply_lockstep {genesis : K.Ledger × PraosChainDepState} {state : ReceiveState K}
    {store : W} {log : List AdmittedBlock} {event : ReceiveEvent}
    (forward : event.isRollBackward = false) (lockstep : Lockstep authorities genesis state log) :
    Lockstep authorities genesis
      (receiveApply authorities write.logged rollbackCtx state (store, log) event).state
      (receiveApply authorities write.logged rollbackCtx state (store, log) event).store.2 := by
  cases event with
  | rollForward slot hash headerBytes tip =>
      obtain ⟨ledger, chainDep⟩ := rollForward_kept state slot hash headerBytes
      unfold Lockstep at lockstep ⊢
      show log.foldlM (applyValid authorities) genesis =
        .ok ((rollForward state slot hash headerBytes).2.ledger,
          (rollForward state slot hash headerBytes).2.chainDep)
      rw [ledger, chainDep]
      exact lockstep
  | rollBackward targetPoint tip => cases forward
  | blockDelivered blockBytes =>
      rw [receiveApply_blockDelivered]
      rcases blockDelivered_cases authorities write.logged state (store, log) blockBytes with
        ⟨reason, returned⟩ | ⟨block, reason, after, written, returned⟩ |
          ⟨outcome, effect, after, pendingHeaders, admitted, bytes, written, returned⟩
      · rw [returned]
        exact lockstep
      · have kept : after.2 = log := by
          dsimp only [ChainDbWrite.logged] at written
          split at written
          · cases written
          · cases written
            rfl
        rw [returned]
        show Lockstep authorities genesis state after.2
        rw [kept]
        exact lockstep
      · have appended : after.2 = log ++ [outcome.admitted] := by
          dsimp only [ChainDbWrite.logged] at written
          split at written
          · cases written
            rfl
          · cases written
        rw [returned]
        unfold Lockstep at lockstep ⊢
        dsimp only
        rw [appended, List.foldlM_append, lockstep]
        show (applyValid authorities (state.ledger, state.chainDep) outcome.admitted >>= pure) = _
        rw [bind_pure, applyValid, bytes, admitted]
        rfl

theorem receiveAll_lockstep {genesis : K.Ledger × PraosChainDepState} {events : List ReceiveEvent}
    {state : ReceiveState K} {store : W} {log : List AdmittedBlock}
    (forward : ∀ event ∈ events, event.isRollBackward = false)
    (lockstep : Lockstep authorities genesis state log) :
    Lockstep authorities genesis
        (receiveAll authorities write.logged rollbackCtx events (state, (store, log))).1
        (receiveAll authorities write.logged rollbackCtx events (state, (store, log))).2.2 ∧
      receiveAll authorities write rollbackCtx events (state, store) =
        ((receiveAll authorities write.logged rollbackCtx events (state, (store, log))).1,
          (receiveAll authorities write.logged rollbackCtx events (state, (store, log))).2.1) := by
  induction events generalizing state store log with
  | nil => exact ⟨lockstep, rfl⟩
  | cons event events ih =>
      have next := @receiveApply_lockstep K W authorities write rollbackCtx genesis state store log
        event (forward event (List.mem_cons_self ..)) lockstep
      obtain ⟨sameState, sameStore⟩ := @receiveApply_logged K W authorities write rollbackCtx state
        store log event
      obtain ⟨folded, same⟩ :=
        ih (fun other member => forward other (List.mem_cons_of_mem _ member)) next
      refine ⟨folded, Eq.trans ?_ same⟩
      rw [sameState, sameStore]
      rfl

/-! ## The shipped writer -/

theorem mapError_error {ε δ α : Type} {f : ε → δ} {result : Except ε α} {error : δ}
    (failed : result.mapError f = .error error) : ∃ cause, result = .error cause := by
  cases result with
  | error cause => exact ⟨cause, rfl⟩
  | ok value => cases failed

/-- The adapter keeps the store wherever the database does. -/
theorem chainDbWriter_keepsStore {D : Type} {db : ChainDbCalls D}
    (put : ∀ store block cause, (db.putBlock store block).1 = .error cause →
      (db.putBlock store block).2 = store)
    (rollback : ∀ store slot cause, (db.rollbackToSlot store slot).1 = .error cause →
      (db.rollbackToSlot store slot).2 = store) :
    (chainDbWriter authorities db).KeepsStoreOnError where
  writeAdmitted := by
    intro block store error after written
    unfold chainDbWriter at written
    dsimp only at written
    split at written
    · cases written
      rfl
    · obtain ⟨failed, rfl⟩ := Prod.mk.inj written
      obtain ⟨cause, failed⟩ := mapError_error failed
      exact put _ _ cause failed
  rollbackToSlot := by
    intro slot store error after written
    obtain ⟨failed, rfl⟩ := Prod.mk.inj written
    obtain ⟨cause, failed⟩ := mapError_error failed
    exact rollback _ _ cause failed

theorem inMemoryWriter_keepsStore :
    (chainDbWriter authorities inMemoryCalls).KeepsStoreOnError := by
  apply chainDbWriter_keepsStore
  · intro store block cause failed
    simp only [inMemoryCalls, InMemoryChainDb.putBlock] at failed ⊢
    split at failed
    · split_ifs at failed ⊢
      rfl
    · cases failed
  · intro store slot cause failed
    cases failed

theorem persistentWriter_keepsStore :
    (chainDbWriter authorities persistentCalls).KeepsStoreOnError := by
  apply chainDbWriter_keepsStore
  · intro store block cause failed
    simp only [persistentCalls, PersistentChainDb.putBlock] at failed ⊢
    split_ifs at failed ⊢
    rfl
  · intro store slot cause failed
    cases failed

/-! ## The contract -/

/-- An error leaves the state alone, and the store too if failing writes do, as those of the shipped
writer do. A header changes only the cache. Without rollbacks the states stay in step with the blocks
written. -/
theorem receiveApply_atomic (authorities : Authorities K) (write : ChainDbWrite W)
    (rollbackCtx : Option (RollbackContext K)) :
    (∀ state store event error,
      (receiveApply authorities write rollbackCtx state store event).result = .error error →
        (receiveApply authorities write rollbackCtx state store event).state = state ∧
          (write.KeepsStoreOnError →
            (receiveApply authorities write rollbackCtx state store event).store = store)) ∧
    (∀ state store slot hash headerBytes tip,
      (receiveApply authorities write rollbackCtx state store
          (.rollForward slot hash headerBytes tip)).state.ledger = state.ledger ∧
        (receiveApply authorities write rollbackCtx state store
          (.rollForward slot hash headerBytes tip)).state.chainDep = state.chainDep ∧
        (receiveApply authorities write rollbackCtx state store
          (.rollForward slot hash headerBytes tip)).store = store) ∧
    (∀ genesis events state store log, (∀ event ∈ events, event.isRollBackward = false) →
      Lockstep authorities genesis state log →
      ∃ after stored written,
        receiveAll authorities write rollbackCtx events (state, store) = (after, stored) ∧
        receiveAll authorities write.logged rollbackCtx events (state, (store, log)) =
          (after, (stored, written)) ∧
        Lockstep authorities genesis after written) ∧
    (chainDbWriter authorities inMemoryCalls).KeepsStoreOnError ∧
    (chainDbWriter authorities persistentCalls).KeepsStoreOnError := by
  refine ⟨?_, ?_, ?_, inMemoryWriter_keepsStore, persistentWriter_keepsStore⟩
  · intro state store event error failed
    exact receiveApply_error failed
  · intro state store slot hash headerBytes tip
    obtain ⟨ledger, chainDep⟩ := rollForward_kept state slot hash headerBytes
    exact ⟨ledger, chainDep, rfl⟩
  · intro genesis events state store log forward lockstep
    obtain ⟨folded, same⟩ :=
      @receiveAll_lockstep K W authorities write rollbackCtx genesis events state store log forward
        lockstep
    exact ⟨_, _, _, same, rfl, folded⟩

/-! ## A writer that fails after it has written -/

def unitKinds : Kinds := ⟨Unit, Unit, Unit, Unit, Unit, Unit, Unit⟩

/-- Every block is valid, at slot 1. -/
def lenient : Authorities unitKinds where
  decodeBlock bytes :=
    .ok ⟨.conway, (), 1, Vector.replicate 32 0, Vector.replicate 32 0, 0, bytes.length⟩
  validateAndApplyHeader chainDep _ _ := .ok ⟨1, 1, Vector.replicate 32 0, chainDep⟩
  applyBlockWithVerdicts _ _ _ := .ok ((), ())

def careless : ChainDbWrite (List AdmittedBlock) where
  writeAdmitted block store := (.error (.underlying .io), store ++ [block])
  rollbackToSlot _ store := (.ok (), store)

def announced : ReceiveState unitKinds :=
  ⟨(), .genesis Nonce.zero, (PendingHeaderCache.new.insert 1 (Vector.replicate 32 0) []).2⟩

/-- The error of the writer is reported and its block stays in the store. -/
theorem receiveApply_error_changes_store :
    (receiveApply lenient careless none announced [] (.blockDelivered [0x80])).result =
        .error (.chainDb (.underlying .io)) ∧
      (receiveApply lenient careless none announced [] (.blockDelivered [0x80])).store =
        [⟨[0x80]⟩] := by
  have known : announced.pendingHeaders.contains 1 (Vector.replicate 32 0) = true := by
    decide +kernel
  have delivered : blockDelivered lenient careless announced [] [0x80] =
      ⟨.error (.chainDb (.underlying .io)), announced, [⟨[0x80]⟩]⟩ := by
    unfold blockDelivered
    simp only [lenient, known, not_true_eq_false, if_false]
    rfl
  rw [receiveApply_blockDelivered, delivered]
  exact ⟨rfl, rfl⟩

end Ade.Proof.Receive
