import Ade.Participant.Pump
import Ade.Proof.BlockValidity.Replay

/-! What the pump does with a block. -/

namespace Ade.Proof.Participant
open Proof.BlockValidity
open Library Ade.ChainDb Ade.Consensus Ade.Receive Ade.ForwardSync Ade.Wal Ade.BlockValidity
open Ade.Participant

variable {env : Environment} {shell : Shell env} {state : State env} {blockBytes : Bytes}

def withPending (state : State env) (pendingHeaders : PendingHeaderCache) : State env :=
  { state with fwd := { state.fwd with receive := { state.fwd.receive with pendingHeaders } } }

/-! ## The header -/

/-- An event that admits nothing plans nothing. -/
theorem forwardSyncStep_of_not_admitted {K : Kinds} {W C : Type} {authorities : Authorities K}
    {write : ChainDbWrite W} {fingerprint : C → K.Ledger → C × Hash32}
    {state : ForwardSyncState K C} {store : W} {event : ReceiveEvent} {received : Received K W}
    (applied : receiveApply authorities write none state.receive store event = received)
    (other : ∀ slot hash, received.result ≠ .ok (.admitted slot hash)) :
    forwardSyncStep authorities write fingerprint state store event =
      ⟨received.result.map fun _ => .empty, { state with receive := received.state },
        received.store⟩ := by
  unfold forwardSyncStep
  rw [applied]
  obtain ⟨result, after, stored⟩ := received
  cases result with
  | error failure => rfl
  | ok effect =>
      cases effect with
      | admitted slot hash => exact absurd rfl (other slot hash)
      | cached slot hash => rfl
      | rolledBack slot => rfl
      | noOp reason => rfl

theorem rollForward_pending {K : Kinds} (receive : ReceiveState K) (slot : SlotNo) (hash : Hash32)
    (headerBytes : Bytes) : (rollForward receive slot hash headerBytes).2 =
      { receive with pendingHeaders := (receive.pendingHeaders.insert slot hash headerBytes).2 } := by
  unfold rollForward
  dsimp only
  split
  · split_ifs <;> rfl
  · rfl

theorem syncStep_rollForward (slot : SlotNo) (hash : Hash32) (headerBytes : Bytes) (tip : TipPoint) :
    ∃ result : Except (PumpError env) AdmitPlan,
      syncStep shell state (.rollForward slot hash headerBytes tip) = (result, withPending state
        (state.fwd.receive.pendingHeaders.insert slot hash headerBytes).2) := by
  have stepped := @forwardSyncStep_of_not_admitted env.kinds _ _ (authorities env)
    (chainDbWriter (authorities env) persistentCalls) (fun _ ledger => ((), shell.fingerprint ledger))
    state.fwd state.chaindb (.rollForward slot hash headerBytes tip) _ rfl
    (rollForward_not_admitted state.fwd.receive slot hash headerBytes)
  refine ⟨((rollForward state.fwd.receive slot hash headerBytes).1.map
    fun _ => AdmitPlan.empty).mapError .receive, ?_⟩
  unfold syncStep
  rw [stepped]
  dsimp only [receiveApply]
  rw [rollForward_pending]
  rfl

/-- A header that is not cached yet is cached. -/
theorem syncStep_rollForward_new {slot : SlotNo} {hash : Hash32}
    (unknown : state.fwd.receive.pendingHeaders.entries[(⟨slot, hash⟩ : Point)]? = none)
    (headerBytes : Bytes) (tip : TipPoint) :
    ∃ plan, syncStep shell state (.rollForward slot hash headerBytes tip) =
      (.ok plan, withPending state
        ⟨state.fwd.receive.pendingHeaders.entries.insert ⟨slot, hash⟩ headerBytes⟩) := by
  have absent : state.fwd.receive.pendingHeaders.contains slot hash = false := by
    rw [PendingHeaderCache.contains, Bool.eq_false_iff, Ne, Std.ExtTreeMap.contains_iff_mem,
      Std.ExtTreeMap.mem_iff_isSome_getElem?, unknown]
    exact nofun
  unfold syncStep forwardSyncStep receiveApply rollForward PendingHeaderCache.insert
  simp only [unknown, absent, Bool.false_eq_true, false_and, if_false]
  exact ⟨_, rfl⟩

/-! ## The body -/

theorem admitViaBlockValidity_eq (ledger : env.Ledger) (chainDep : PraosChainDepState) :
    admitViaBlockValidity (authorities env) blockBytes ledger chainDep =
      (shell.rules.validate ledger chainDep blockBytes).map fun after =>
        ⟨⟨blockBytes⟩, after.1, after.2⟩ := by
  unfold admitViaBlockValidity Shell.rules verdictState
  dsimp only
  split
  · rename_i valid
    rw [valid]
    rfl
  · rename_i invalid
    rw [invalid]
    rfl

/-- The stored form of a decoded block. -/
def storedBlock (decoded : BlockValidity.DecodedBlock) (blockBytes : Bytes) : StoredBlock :=
  ⟨decoded.blockHash, decoded.headerInput.slot, blockBytes⟩

/-- The entry that logs a decoded block. -/
def admitEntry (priorFp postFp : Hash32) (decoded : BlockValidity.DecodedBlock) : WalEntry :=
  .admitBlock priorFp decoded.blockHash decoded.headerInput.slot .valid postFp

/-- What an admission leaves of the state, but for the log. -/
structure Admits (shell : Shell env) (state : State env) (decoded : BlockValidity.DecodedBlock)
    (ledger : env.Ledger) (chainDep : PraosChainDepState) (chaindb : PersistentChainDb)
    (after : State env) : Prop where
  receive : after.fwd.receive = ⟨ledger, chainDep,
    state.fwd.receive.pendingHeaders.remove decoded.headerInput.slot decoded.blockHash⟩
  priorFp : after.fwd.priorFp = shell.fingerprint ledger
  chaindb : after.chaindb = chaindb
  wal : after.wal = state.wal
  recoveredAnchor : after.recoveredAnchor = state.recoveredAnchor
  recoveredEta0 : after.recoveredEta0 = state.recoveredEta0

section
variable {decoded : BlockValidity.DecodedBlock} {ledger : env.Ledger}
  {chainDep : PraosChainDepState} {chaindb : PersistentChainDb}

theorem decodeBlock_given (decodes : decodeBlock env blockBytes = .ok decoded) :
    (authorities env).decodeBlock blockBytes = .ok (decoded.decoded env) :=
  congrArg (Except.map (DecodedBlock.decoded env)) decodes

theorem writeAdmitted_eq (decodes : decodeBlock env blockBytes = .ok decoded)
    (chaindb : PersistentChainDb) :
    (chainDbWriter (authorities env) persistentCalls).writeAdmitted ⟨blockBytes⟩ chaindb =
      ((chaindb.putBlock (storedBlock decoded blockBytes)).1.mapError
          (mapChaindbErr decoded.headerInput.slot decoded.blockHash),
        (chaindb.putBlock (storedBlock decoded blockBytes)).2) := by
  unfold chainDbWriter
  dsimp only
  rw [decodeBlock_given decodes]
  rfl

theorem syncStep_admits (decodes : decodeBlock env blockBytes = .ok decoded)
    (known : state.fwd.receive.pendingHeaders.contains decoded.headerInput.slot decoded.blockHash =
      true)
    (accepted : shell.rules.validate state.fwd.receive.ledger state.fwd.receive.chainDep blockBytes =
      .ok (ledger, chainDep))
    (stored : state.chaindb.putBlock (storedBlock decoded blockBytes) = (.ok (), chaindb)) :
    ∃ checkpoint after, syncStep shell state (.blockDelivered blockBytes) =
        (.ok (.durable (storedBlock decoded blockBytes)
          (admitEntry state.fwd.priorFp (shell.fingerprint ledger) decoded) checkpoint
          decoded.headerInput.slot decoded.blockHash), after) ∧
      Admits shell state decoded ledger chainDep chaindb after := by
  have admitted := @admitViaBlockValidity_eq env shell blockBytes state.fwd.receive.ledger
    state.fwd.receive.chainDep
  rw [accepted] at admitted
  have written := writeAdmitted_eq decodes state.chaindb
  rw [stored] at written
  have applied : receiveApply (authorities env) (chainDbWriter (authorities env) persistentCalls)
      none state.fwd.receive state.chaindb (.blockDelivered blockBytes) =
      ⟨.ok (.admitted decoded.headerInput.slot decoded.blockHash), ⟨ledger, chainDep,
        state.fwd.receive.pendingHeaders.remove decoded.headerInput.slot decoded.blockHash⟩,
        chaindb⟩ := by
    unfold receiveApply blockDelivered
    dsimp only
    rw [decodeBlock_given decodes]
    dsimp only [DecodedBlock.decoded]
    rw [if_neg (not_not.mpr known), admitted]
    dsimp only [Except.map]
    rw [written]
    rfl
  unfold syncStep forwardSyncStep
  rw [applied]
  dsimp only [recordAdmitted]
  split
  · exact ⟨none, _, rfl, rfl, rfl, rfl, rfl, rfl, rfl⟩
  · split_ifs
    · exact ⟨some decoded.headerInput.slot, _, rfl, rfl, rfl, rfl, rfl, rfl, rfl⟩
    · exact ⟨none, _, rfl, rfl, rfl, rfl, rfl, rfl, rfl⟩


theorem putBlock_error {db after : PersistentChainDb} {block : StoredBlock} {error : ChainDbError}
    (failed : db.putBlock block = (.error error, after)) : after = db := by
  simp only [PersistentChainDb.putBlock] at failed
  split_ifs at failed
  · cases failed
  · cases failed
    rfl
  · cases failed

/-- A delivered block is refused and changes nothing, or it has passed all that an admission asks. -/
theorem syncStep_delivered (decodes : decodeBlock env blockBytes = .ok decoded) :
    (∃ error, syncStep shell state (.blockDelivered blockBytes) = (.error error, state)) ∨
      state.fwd.receive.pendingHeaders.contains decoded.headerInput.slot decoded.blockHash = true ∧
        ∃ ledger chainDep chaindb,
          shell.rules.validate state.fwd.receive.ledger state.fwd.receive.chainDep blockBytes =
            .ok (ledger, chainDep) ∧
          state.chaindb.putBlock (storedBlock decoded blockBytes) = (.ok (), chaindb) := by
  have refused : ∀ error, receiveApply (authorities env)
      (chainDbWriter (authorities env) persistentCalls) none state.fwd.receive state.chaindb
        (.blockDelivered blockBytes) = ⟨.error error, state.fwd.receive, state.chaindb⟩ →
      syncStep shell state (.blockDelivered blockBytes) = (.error (.receive error), state) := by
    intro error applied
    unfold syncStep
    rw [forwardSyncStep_of_not_admitted applied nofun]
    rfl
  by_cases known : state.fwd.receive.pendingHeaders.contains decoded.headerInput.slot
      decoded.blockHash = true
  · have admitted := @admitViaBlockValidity_eq env shell blockBytes state.fwd.receive.ledger
      state.fwd.receive.chainDep
    cases accepted : shell.rules.validate state.fwd.receive.ledger state.fwd.receive.chainDep
        blockBytes with
    | error failure =>
        refine .inl ⟨_, refused (.validity failure) ?_⟩
        rw [accepted] at admitted
        unfold receiveApply blockDelivered
        dsimp only
        rw [decodeBlock_given decodes]
        dsimp only [DecodedBlock.decoded]
        rw [if_neg (not_not.mpr known), admitted]
        rfl
    | ok state' =>
        cases stored : state.chaindb.putBlock (storedBlock decoded blockBytes) with
        | mk result chaindb =>
            cases result with
            | ok done => exact .inr ⟨known, state'.1, state'.2, chaindb, rfl, rfl⟩
            | error failure =>
                obtain rfl := putBlock_error stored
                refine .inl ⟨_, refused (.chainDb (mapChaindbErr decoded.headerInput.slot
                  decoded.blockHash failure)) ?_⟩
                have written := writeAdmitted_eq decodes state.chaindb
                rw [stored] at written
                rw [accepted] at admitted
                unfold receiveApply blockDelivered
                dsimp only
                rw [decodeBlock_given decodes]
                dsimp only [DecodedBlock.decoded]
                rw [if_neg (not_not.mpr known), admitted]
                dsimp only [Except.map]
                rw [written]
                rfl
  · refine .inl ⟨_, refused (.headerBodyMismatch decoded.headerInput.slot decoded.blockHash) ?_⟩
    unfold receiveApply blockDelivered
    dsimp only
    rw [decodeBlock_given decodes]
    exact if_pos known

end

/-! ## The plan -/

theorem applyPlan_durable {block : StoredBlock} {entry : WalEntry} {checkpoint : Option SlotNo}
    {slot : SlotNo} {hash prevHash : Hash32} {blockNo : UInt64}
    (again : state.chaindb.putBlock block = (.ok (), state.chaindb)) :
    applyPlan prevHash blockNo (AdmitPlan.durable block entry checkpoint slot hash).effects
        ⟨state, false, false, none⟩ =
      (.ok (some ⟨slot, hash, prevHash, blockNo⟩), { state with wal := state.wal ++ [entry] }) := by
  cases checkpoint <;> simp [AdmitPlan.durable, applyPlan, applyEffect, again]

/-! ## The pump -/

/-- What an admitted block leaves of the state. -/
structure Pumped (shell : Shell env) (state : State env) (decoded : BlockValidity.DecodedBlock)
    (ledger : env.Ledger) (chainDep : PraosChainDepState) (chaindb : PersistentChainDb)
    (after : State env) : Prop where
  live : (after.fwd.receive.ledger, after.fwd.receive.chainDep) = (ledger, chainDep)
  pending : ∀ point : Point, after.fwd.receive.pendingHeaders.entries[point]? =
    if ⟨decoded.headerInput.slot, decoded.blockHash⟩ = point then none
    else state.fwd.receive.pendingHeaders.entries[point]?
  priorFp : after.fwd.priorFp = shell.fingerprint ledger
  chaindb : after.chaindb = chaindb
  wal : after.wal = state.wal ++ [admitEntry state.fwd.priorFp (shell.fingerprint ledger) decoded]
  recoveredAnchor : after.recoveredAnchor = state.recoveredAnchor
  recoveredEta0 : after.recoveredEta0 = state.recoveredEta0

/-- What the pump reports of an admitted block. -/
def pumpTip (decoded : BlockValidity.DecodedBlock) : PumpTip :=
  ⟨decoded.headerInput.slot, decoded.blockHash,
    decoded.prevHash.blockHash.getD (Vector.replicate 32 0), decoded.headerInput.blockNo⟩

inductive Pumps (shell : Shell env) (state : State env) (blockBytes : Bytes) :
    Except (PumpError env) (Option PumpTip) × State env → Prop
  | refused (error : PumpError env) (pending : PendingHeaderCache) :
      Pumps shell state blockBytes (.error error, withPending state pending)
  | repeated : Pumps shell state blockBytes (.ok none, state)
  | admitted (decoded : BlockValidity.DecodedBlock) (ledger : env.Ledger)
      (chainDep : PraosChainDepState) (chaindb : PersistentChainDb) (after : State env)
      (decodes : decodeBlock env blockBytes = .ok decoded)
      (accepted : shell.rules.validate state.fwd.receive.ledger state.fwd.receive.chainDep
        blockBytes = .ok (ledger, chainDep))
      (stored : state.chaindb.putBlock (storedBlock decoded blockBytes) = (.ok (), chaindb))
      (pumped : Pumped shell state decoded ledger chainDep chaindb after) :
      Pumps shell state blockBytes (.ok (some (pumpTip decoded)), after)

section
variable {decoded : BlockValidity.DecodedBlock} {ledger : env.Ledger}
  {chainDep : PraosChainDepState} {chaindb : PersistentChainDb}

theorem pumped_of_admits {cached after : State env} {pending : PendingHeaderCache}
    (same : cached = withPending state pending)
    (others : ∀ point : Point, (⟨decoded.headerInput.slot, decoded.blockHash⟩ : Point) ≠ point →
      pending.entries[point]? = state.fwd.receive.pendingHeaders.entries[point]?)
    (admits : Admits shell cached decoded ledger chainDep chaindb after) :
    Pumped shell state decoded ledger chainDep chaindb { after with
      wal := after.wal ++ [admitEntry state.fwd.priorFp (shell.fingerprint ledger) decoded] } := by
  subst same
  refine ⟨?_, ?_, admits.priorFp, admits.chaindb, ?_, admits.recoveredAnchor, admits.recoveredEta0⟩
  · dsimp only
    rw [admits.receive]
  · intro point
    dsimp only
    rw [admits.receive]
    dsimp only [PendingHeaderCache.remove, withPending]
    rw [BTreeMap.getElem?_erase]
    split_ifs with same
    · rfl
    · exact others point same
  · exact congrArg (· ++ _) admits.wal

/-- A block that passes all checks is admitted. -/
theorem pumpBlock_admits (decodes : decodeBlock env blockBytes = .ok decoded)
    {found : Option StoredBlock} (looked : state.chaindb.getBlockByHash decoded.blockHash = .ok found)
    (new : found.map StoredBlock.slot ≠ some decoded.headerInput.slot)
    (unknown : state.fwd.receive.pendingHeaders.entries[
      (⟨decoded.headerInput.slot, decoded.blockHash⟩ : Point)]? = none)
    (accepted : shell.rules.validate state.fwd.receive.ledger state.fwd.receive.chainDep blockBytes =
      .ok (ledger, chainDep))
    (stored : state.chaindb.putBlock (storedBlock decoded blockBytes) = (.ok (), chaindb))
    (again : chaindb.putBlock (storedBlock decoded blockBytes) = (.ok (), chaindb)) :
    ∃ after, pumpBlock shell state blockBytes = (.ok (some (pumpTip decoded)), after) ∧
      Pumped shell state decoded ledger chainDep chaindb after := by
  obtain ⟨plan, cached⟩ := @syncStep_rollForward_new env shell state _ _ unknown blockBytes
    ⟨0, Vector.replicate 32 0, 0⟩
  have known : (withPending state ⟨state.fwd.receive.pendingHeaders.entries.insert
      ⟨decoded.headerInput.slot, decoded.blockHash⟩ blockBytes⟩).fwd.receive.pendingHeaders.contains
        decoded.headerInput.slot decoded.blockHash = true := by
    rw [PendingHeaderCache.contains, Std.ExtTreeMap.contains_iff_mem]
    exact BTreeMap.mem_insert.mpr (.inl rfl)
  obtain ⟨checkpoint, delivered, stepped, admits⟩ := syncStep_admits decodes known accepted stored
  refine ⟨_, ?_, pumped_of_admits rfl ?_ admits⟩
  · have durable := @applyPlan_durable env delivered (storedBlock decoded blockBytes)
      (admitEntry state.fwd.priorFp (shell.fingerprint ledger) decoded) checkpoint
      decoded.headerInput.slot decoded.blockHash
      (decoded.prevHash.blockHash.getD (Vector.replicate 32 0)) decoded.headerInput.blockNo
      (admits.chaindb ▸ again)
    unfold pumpBlock
    rw [decodes]
    dsimp only
    rw [looked]
    dsimp only
    rw [if_neg new, cached]
    dsimp only
    rw [stepped]
    exact durable
  · intro point other
    dsimp only
    rw [BTreeMap.getElem?_insert, if_neg other]

/-- Whatever the pump is given, where storing an accepted block twice is storing it once. -/
theorem pumpBlock_pumps (again : ∀ decoded after chaindb, decodeBlock env blockBytes = .ok decoded →
      shell.rules.validate state.fwd.receive.ledger state.fwd.receive.chainDep blockBytes = .ok after →
      state.chaindb.putBlock (storedBlock decoded blockBytes) = (.ok (), chaindb) →
      chaindb.putBlock (storedBlock decoded blockBytes) = (.ok (), chaindb)) :
    Pumps shell state blockBytes (pumpBlock shell state blockBytes) := by
  unfold pumpBlock
  cases decodes : decodeBlock env blockBytes with
  | error failure => exact .refused _ state.fwd.receive.pendingHeaders
  | ok decoded =>
      dsimp only
      cases looked : state.chaindb.getBlockByHash decoded.blockHash with
      | error failure => exact .refused _ state.fwd.receive.pendingHeaders
      | ok found =>
          dsimp only
          split_ifs with repeated
          · exact .repeated
          · obtain ⟨result, cached⟩ := @syncStep_rollForward env shell state
              decoded.headerInput.slot decoded.blockHash blockBytes ⟨0, Vector.replicate 32 0, 0⟩
            rw [cached]
            cases result with
            | error failure => exact .refused _ _
            | ok plan =>
                dsimp only
                have delivered := @syncStep_delivered env shell (withPending state
                  (state.fwd.receive.pendingHeaders.insert decoded.headerInput.slot
                    decoded.blockHash blockBytes).2) blockBytes decoded decodes
                rcases delivered with ⟨error, refused⟩ | ⟨known, ledger, chainDep, chaindb, accepted, stored⟩
                · rw [refused]
                  exact .refused _ _
                · obtain ⟨checkpoint, after, stepped, admits⟩ :=
                    syncStep_admits decodes known accepted stored
                  rw [stepped]
                  dsimp only
                  have durable := again decoded _ chaindb decodes accepted stored
                  rw [← admits.chaindb] at durable
                  rw [applyPlan_durable durable]
                  refine .admitted decoded ledger chainDep chaindb _ decodes accepted stored
                    (pumped_of_admits rfl ?_ admits)
                  intro point other
                  unfold PendingHeaderCache.insert
                  split
                  · split_ifs <;> rfl
                  · dsimp only
                    rw [BTreeMap.getElem?_insert, if_neg other]

end

end Ade.Proof.Participant
