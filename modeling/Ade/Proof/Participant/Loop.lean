import Ade.Proof.Participant.ForkChoice

/-! The participant's loop with its fork choice: what a round does to the durable state. -/

namespace Ade.Proof.Participant
open Library Ade.ChainDb Ade.Codec.Shelley Ade.Consensus Ade.Receive Ade.Rollback Ade.ForwardSync
open Ade.Wal Ade.BlockValidity Ade.Participant
open Proof.Rollback
open Proof.BlockValidity (BodyLocates)
open Proof.Consensus (Reaches)

variable {env : Environment} {shell : Shell env} {origin : Origin env.Ledger} {snapshot : Bytes}
  {state : State env} {chain : List (Admission env.Ledger)}

/-! ## The stored blocks -/

/-- A block that is found by its hash is one of the chain. -/
theorem found_in_chain {db : PersistentChainDb} (keeps : Keeps db chain) {hash : Hash32}
    {stored : StoredBlock} (found : db.getBlockByHash hash = .ok (some stored)) :
    ∃ admission ∈ chain, admission.block.slot = stored.slot ∧ admission.block.hash = hash ∧
      admission.block.bytes = stored.bytes := by
  obtain ⟨found', looked, listed⟩ := getBlockByHash_keeps keeps hash
  rw [found] at looked
  cases looked
  obtain ⟨admission, member, slot, name⟩ := listed stored rfl
  refine ⟨admission, member, slot, name, ?_⟩
  unfold PersistentChainDb.getBlockByHash at found
  cases lookup : db.slotByHash.bind fun hashes => hashes[hash]? with
  | none =>
      rw [lookup] at found
      cases found
  | some at_ =>
      rw [lookup] at found
      obtain ⟨bytes, read, rfl⟩ := Option.map_eq_some_iff.mp (Except.ok.inj found)
      obtain ⟨blocks, table, entry⟩ := Option.bind_eq_some_iff.mp read
      have stores := keeps.stores.blocks at_ admission.block.bytes
      rw [table, Option.getD_some] at stores
      rw [stores.mpr ⟨admission, member, slot, rfl⟩] at entry
      exact Option.some.inj entry

/-! ## The dispatch -/

section
variable {draining next : Draining env} {durableTip : TipPoint} {peer : String}
  {decoded : BlockValidity.DecodedBlock}

/-- What a dispatch can do. -/
inductive Dispatched (shell : Shell env) (draining : Draining env) (durableTip : TipPoint)
    (peer : String) (decoded : BlockValidity.DecodedBlock) : Draining env → Prop
  | gap (error : LcaError)
      (walked : walkToDurableLca ((draining.remember peer decoded).cacheOf peer)
        draining.act.rollbackRetention decoded.blockHash draining.state.chaindb
        draining.act.securityParam = .error error) :
      Dispatched shell draining durableTip peer decoded
        (((draining.remember peer decoded).askForRange durableTip peer decoded
          (mapLcaError error)).missingBridge (mapLcaError error))
  | unreachable : Dispatched shell draining durableTip peer decoded
      ((draining.remember peer decoded).missingBridge .lcaUnreachable)
  | invalid : Dispatched shell draining durableTip peer decoded (draining.remember peer decoded)
  | offered (lca : LcaResult) (ledger : env.Ledger) (chainDep : PraosChainDepState)
      (candidate : CandidateBranch)
      (walked : walkToDurableLca ((draining.remember peer decoded).cacheOf peer)
        draining.act.rollbackRetention decoded.blockHash draining.state.chaindb
        draining.act.securityParam = .ok lca)
      (materialized : materializeRolledBackState shell.rules draining.state.chaindb
        draining.state.recoveredEta0 lca.anchorSlot = .ok (ledger, chainDep))
      (built : buildCandidateFragment env ⟨lca.anchorSlot, lca.anchorHash⟩
        (chainDep.lastBlockNo.getD 0) durableTip.blockNo chainDep lca.headers = .ok candidate)
      (next : Draining env)
      (decided : decideAtTip ((draining.remember peer decoded).offer peer candidate decoded)
        durableTip = .ok next) :
      Dispatched shell draining durableTip peer decoded next

theorem dispatched_of_ok
    (dispatched : dispatchCompetingForkChoice shell draining durableTip peer decoded = .ok next) :
    Dispatched shell draining durableTip peer decoded next := by
  unfold dispatchCompetingForkChoice at dispatched
  dsimp only at dispatched
  split at dispatched
  next error walked =>
    cases dispatched
    exact .gap error walked
  next lca walked =>
    split at dispatched
    next error failed =>
      cases dispatched
      exact .unreachable
    next ledger chainDep materialized =>
      split at dispatched
      next error failed =>
        cases dispatched
        exact .invalid
      next candidate built => exact .offered lca ledger chainDep candidate walked materialized built next dispatched

/-- What deciding at the tip can do. -/
theorem decideAtTip_cases (decided : decideAtTip draining durableTip = .ok next) :
    next = draining ∨ ∃ stored tipDecoded tiebreaker,
      draining.state.chaindb.getBlockByHash durableTip.hash = .ok (some stored) ∧
      decodeBlock env stored.bytes = .ok tipDecoded ∧
      projectTiebreaker env.verifiers tipDecoded.headerInput = .ok tiebreaker ∧
      next = draining.decide (selectorStateOf draining durableTip tiebreaker) := by
  unfold decideAtTip at decided
  obtain ⟨found, looked, decided⟩ := bind_ok decided
  cases found with
  | none =>
      cases decided
      exact .inl rfl
  | some stored =>
      obtain ⟨tipDecoded, read, decided⟩ := bind_ok decided
      cases projected : projectTiebreaker env.verifiers tipDecoded.headerInput with
      | error reason =>
          rw [projected] at decided
          cases decided
          exact .inl rfl
      | ok tiebreaker =>
          rw [projected] at decided
          cases decided
          exact .inr ⟨stored, tipDecoded, tiebreaker, mapError_ok looked, mapError_ok read, projected, rfl⟩

theorem decide_state (selectorState : ChainSelectorState) :
    (draining.decide selectorState).state = draining.state := by
  unfold Draining.decide
  split <;> rfl

theorem askForRange_state (reason : MissingBridgeReason) :
    (draining.askForRange durableTip peer decoded reason).state = draining.state := by
  unfold Draining.askForRange
  split
  · rfl
  · split_ifs <;> rfl

theorem decideAtTip_state (decided : decideAtTip draining durableTip = .ok next) :
    next.state = draining.state := by
  rcases decideAtTip_cases decided with rfl | ⟨stored, tipDecoded, tiebreaker, -, -, -, rfl⟩
  · rfl
  · exact decide_state _

theorem dispatched_state (dispatched : Dispatched shell draining durableTip peer decoded next) :
    next.state = draining.state := by
  cases dispatched with
  | gap error walked => exact askForRange_state _
  | unreachable => rfl
  | invalid => rfl
  | offered lca ledger chainDep candidate walked materialized built next decided =>
      exact @decideAtTip_state _ ((draining.remember peer decoded).offer peer candidate decoded) _ _
        decided

/-- In a store that keeps a chain, the tip can be looked up and read. -/
theorem decideAtTip_total (keeps : Keeps draining.state.chaindb chain) (named : AllNamed env chain) :
    ∃ next, decideAtTip draining durableTip = .ok next := by
  unfold decideAtTip
  obtain ⟨found, looked, -⟩ := getBlockByHash_keeps keeps durableTip.hash
  cases found with
  | none => exact ⟨draining, bind_eq_ok.mpr ⟨none, mapError_eq_ok.mpr looked, rfl⟩⟩
  | some stored =>
      obtain ⟨admission, member, -, -, bytes⟩ := found_in_chain keeps looked
      obtain ⟨tipDecoded, decodes, -⟩ := named admission member
      rw [bytes] at decodes
      cases projected : projectTiebreaker env.verifiers tipDecoded.headerInput with
      | error reason =>
          refine ⟨draining, bind_eq_ok.mpr ⟨_, mapError_eq_ok.mpr looked, ?_⟩⟩
          refine bind_eq_ok.mpr ⟨tipDecoded, mapError_eq_ok.mpr decodes, ?_⟩
          rw [projected]
          rfl
      | ok tiebreaker =>
          refine ⟨draining.decide (selectorStateOf draining durableTip tiebreaker),
            bind_eq_ok.mpr ⟨_, mapError_eq_ok.mpr looked, ?_⟩⟩
          refine bind_eq_ok.mpr ⟨tipDecoded, mapError_eq_ok.mpr decodes, ?_⟩
          rw [projected]
          rfl

theorem dispatch_total (keeps : Keeps draining.state.chaindb chain) (named : AllNamed env chain) :
    ∃ next, dispatchCompetingForkChoice shell draining durableTip peer decoded = .ok next := by
  unfold dispatchCompetingForkChoice
  dsimp only
  split
  next error walked => exact ⟨_, rfl⟩
  next lca walked =>
    split
    next error failed => exact ⟨_, rfl⟩
    next ledger chainDep materialized =>
      split
      next error failed => exact ⟨_, rfl⟩
      next candidate built =>
        have kept : Keeps ((draining.remember peer decoded).offer peer candidate decoded).state.chaindb
            chain := keeps
        exact decideAtTip_total kept named

end

/-! ## The drain refines the turns -/

theorem admit_state (draining : Draining env) (blockBytes : Bytes) (clears : Bool) :
    (draining.admitBlock shell blockBytes clears).map Draining.state =
      admitBlock shell draining.state blockBytes := by
  unfold Draining.admitBlock admitBlock
  rcases pumpBlock shell draining.state blockBytes with ⟨result, next⟩
  cases result <;> rfl

/-- Whatever the fork choice does, the durable state takes the turn of the item. -/
theorem syncItem_state {draining : Draining env} (keeps : Keeps draining.state.chaindb chain)
    (named : AllNamed env chain) (item : NodeSyncItem) :
    (syncItem shell draining item).map Draining.state = turn shell draining.state item.turn := by
  cases item with
  | rollBack accumulator point =>
      simp only [syncItem, syncRollBack, NodeSyncItem.turn, turn]
      cases resolveAndApplyPeerRollback shell accumulator draining.state point with
      | error failure => rfl
      | ok rolledBack => rfl
  | block peer blockBytes =>
      simp only [syncItem, syncBlock, NodeSyncItem.turn, turn, receiveBlock]
      cases decodeBlock env blockBytes with
      | error failure => rfl
      | ok decoded =>
          dsimp only [Except.mapError, bind, Except.bind]
          cases draining.state.chaindb.tip with
          | error failure => rfl
          | ok tip =>
              cases tip with
              | none => exact admit_state draining blockBytes false
              | some tip =>
                  dsimp only
                  cases draining.state.chaindb.getBlockByHash decoded.blockHash with
                  | error failure => rfl
                  | ok stored =>
                      dsimp only
                      cases resolveDisposition (classifyReceive ⟨tip.slot, tip.hash,
                          draining.state.fwd.receive.chainDep.lastBlockNo.getD 0⟩
                          ⟨decoded.headerInput.slot, decoded.headerInput.blockNo, decoded.blockHash,
                            decoded.prevHash⟩ stored.isSome) .participant with
                      | alreadyHave => rfl
                      | linearExtend => exact admit_state draining blockBytes true
                      | refuseSingleProducer => rfl
                      | needsForkChoice =>
                          obtain ⟨next, dispatched⟩ := @dispatch_total env shell chain draining
                            ⟨tip.slot, tip.hash,
                              draining.state.fwd.receive.chainDep.lastBlockNo.getD 0⟩ peer decoded keeps named
                          dsimp only
                          rw [dispatched]
                          exact congrArg Except.ok (dispatched_state (dispatched_of_ok dispatched))

/-! ## A round refines turns -/

theorem turns_append {first second : List Turn} {middle after : State env}
    (earlier : turns shell state first = .ok middle) (later : turns shell middle second = .ok after) :
    turns shell state (first ++ second) = .ok after := by
  unfold turns at *
  rw [List.foldlM_append, earlier]
  exact later

theorem turns_one {item : Turn} {after : State env} (taken : turn shell state item = .ok after) :
    turns shell state [item] = .ok after := by
  unfold turns
  rw [List.foldlM_cons, taken]
  rfl

theorem consumeForkSwitch_some {loop next : LoopState env} {accumulator : AccumulatorStore}
    {fetched : BranchBodySource} {switch : PendingForkSwitch}
    (pending : loop.act.pendingForkSwitch = some switch)
    (consumed : consumeForkSwitch shell loop accumulator fetched = .ok next) :
    ∃ outcome, applyForkSwitch shell accumulator loop.state switch (loop.act.bodySource fetched) =
        .ok (outcome, next.state) ∧
      next.act = loop.act.switched env loop.state.chaindb switch outcome := by
  unfold consumeForkSwitch at consumed
  rw [pending] at consumed
  obtain ⟨⟨outcome, after⟩, applied, consumed⟩ := bind_ok consumed
  cases consumed
  exact ⟨outcome, applied, rfl⟩

theorem consumeForkSwitch_none {loop : LoopState env} (accumulator : AccumulatorStore)
    (fetched : BranchBodySource) (idle : loop.act.pendingForkSwitch = none) :
    consumeForkSwitch shell loop accumulator fetched = .ok loop := by
  unfold consumeForkSwitch
  rw [idle]

theorem consumeForkSwitch_turns {loop next : LoopState env} {accumulator : AccumulatorStore}
    {fetched : BranchBodySource}
    (consumed : consumeForkSwitch shell loop accumulator fetched = .ok next) :
    ∃ items, turns shell loop.state items = .ok next.state := by
  cases pending : loop.act.pendingForkSwitch with
  | none =>
      rw [consumeForkSwitch_none accumulator fetched pending] at consumed
      cases consumed
      exact ⟨[], rfl⟩
  | some switch =>
      obtain ⟨outcome, applied, -⟩ := consumeForkSwitch_some pending consumed
      have taken : (applyForkSwitch shell accumulator loop.state switch
          (loop.act.bodySource fetched)).map Prod.snd = .ok next.state := by
        rw [applied]
        rfl
      exact ⟨[.forkSwitch accumulator switch (loop.act.bodySource fetched)], turns_one taken⟩

theorem refetchAttempts_turns (toDescendant : Hash32) (fetched : Nat → List Bytes) (remaining : Nat)
    (state : State env) : ∃ items, turns shell state items =
      .ok (refetchAttempts shell toDescendant fetched remaining state).2 := by
  induction remaining generalizing state with
  | zero => exact ⟨[], rfl⟩
  | succ remaining ih =>
      have first := @turns_one env shell state (.refetch toDescendant (fetched remaining)) _ rfl
      unfold refetchAttempts
      rcases outcome : recoverMissingRange shell state toDescendant (fetched remaining) with
        ⟨result, next⟩
      rw [outcome] at first
      obtain ⟨items, rest⟩ := ih next
      cases result with
      | admitted => exact ⟨_, first⟩
      | unavailable => exact ⟨_, turns_append first rest⟩
      | parentLinkMismatch => exact ⟨_, turns_append first rest⟩
      | validationFailed => exact ⟨_, turns_append first rest⟩
      | shortRange => exact ⟨_, turns_append first rest⟩

/-- A request is taken up once, and a range that was fetched bridges what was missing. -/
theorem consumeRangeRefetch_cases (loop : LoopState env) (fetched : Nat → List Bytes) :
    (loop.act.pendingRangeRefetch = none ∧ consumeRangeRefetch shell loop fetched = loop) ∨
    ∃ items state bridge, turns shell loop.state items = .ok state ∧
      (bridge = none ∨ bridge = loop.act.pendingMissingBridge) ∧
      consumeRangeRefetch shell loop fetched = ⟨state, { loop.act with
        pendingRangeRefetch := none
        pendingMissingBridge := bridge }⟩ := by
  unfold consumeRangeRefetch
  cases asked : loop.act.pendingRangeRefetch with
  | none => exact .inl ⟨rfl, rfl⟩
  | some request =>
      right
      dsimp only
      split_ifs
      · obtain ⟨items, ran⟩ := @refetchAttempts_turns env shell request.toDescendant.hash fetched
          maxRangeRefetchAttempts loop.state
        rcases outcome : refetchAttempts shell request.toDescendant.hash fetched
          maxRangeRefetchAttempts loop.state with ⟨reached, after⟩
        rw [outcome] at ran
        cases reached with
        | true => exact ⟨items, after, none, ran, .inl rfl, rfl⟩
        | false => exact ⟨items, after, _, ran, .inr rfl, rfl⟩
      · exact ⟨[], loop.state, _, rfl, .inr rfl, rfl⟩

theorem consumeRangeRefetch_turns (loop : LoopState env) (fetched : Nat → List Bytes) :
    ∃ items, turns shell loop.state items = .ok (consumeRangeRefetch shell loop fetched).state := by
  rcases @consumeRangeRefetch_cases env shell loop fetched with
    ⟨-, same⟩ | ⟨items, state, bridge, ran, -, next⟩
  · rw [same]
    exact ⟨[], rfl⟩
  · rw [next]
    exact ⟨items, ran⟩

/-! ## The step of a drain -/

/-- What the delivery of a block can do. -/
inductive Synced (shell : Shell env) (draining : Draining env) (peer : String) (blockBytes : Bytes) :
    Draining env → Prop
  | kept : Synced shell draining peer blockBytes draining
  | admitted (pumped : Option PumpTip) (after : State env)
      (ran : pumpBlock shell draining.state blockBytes = (.ok pumped, after)) (bridged : Bool) :
      Synced shell draining peer blockBytes { draining with
        state := after
        act := if bridged then { draining.act with pendingMissingBridge := none } else draining.act }
  | competes (decoded : BlockValidity.DecodedBlock) (tip : ChainTip)
      (decodes : decodeBlock env blockBytes = .ok decoded)
      (top : draining.state.chaindb.tip = .ok (some tip)) (next : Draining env)
      (dispatched : Dispatched shell draining
        ⟨tip.slot, tip.hash, draining.state.fwd.receive.chainDep.lastBlockNo.getD 0⟩ peer decoded next) :
      Synced shell draining peer blockBytes next

theorem synced_of_admit {draining next : Draining env} {peer : String} {blockBytes : Bytes}
    {clears : Bool} (admitted : draining.admitBlock shell blockBytes clears = .ok next) :
    Synced shell draining peer blockBytes next := by
  unfold Draining.admitBlock at admitted
  rcases ran : pumpBlock shell draining.state blockBytes with ⟨result, after⟩
  rw [ran] at admitted
  cases result with
  | error failure => cases admitted
  | ok pumped =>
      cases admitted
      exact .admitted pumped after ran (pumped.isSome && clears)

theorem synced_of_ok {draining next : Draining env} {peer : String} {blockBytes : Bytes}
    (synced : syncBlock shell draining peer blockBytes = .ok next) :
    Synced shell draining peer blockBytes next := by
  unfold syncBlock at synced
  obtain ⟨decoded, read, synced⟩ := bind_ok synced
  obtain ⟨top, looked, synced⟩ := bind_ok synced
  cases top with
  | none => exact synced_of_admit synced
  | some tip =>
      obtain ⟨stored, -, synced⟩ := bind_ok synced
      split at synced
      · cases synced
        exact .kept
      · exact synced_of_admit synced
      · exact .competes decoded tip (mapError_ok read) (mapError_ok looked) next (dispatched_of_ok synced)
      · cases synced

/-! ## Self-binding -/

/-- Every header that is remembered is so under its own hash, and no walk was stopped by another. -/
structure SelfBinding (draining : Draining env) : Prop where
  caches : ∀ peer, SelfBound (draining.cacheOf peer)
  retention : SelfBound draining.act.rollbackRetention
  bridge : draining.act.pendingMissingBridge ≠ some .cacheSelfBindingViolation

theorem selfBound_empty : SelfBound ∅ := by
  intro hash entry found
  simp at found

theorem selfBound_insert {cache : HeaderCache} (bound : SelfBound cache)
    (decoded : BlockValidity.DecodedBlock) :
    SelfBound (cache.insert decoded.blockHash (cachedHeader decoded)) := by
  intro hash entry found
  rw [BTreeMap.getElem?_insert] at found
  split_ifs at found with same
  · cases found
    exact same
  · exact bound hash entry found

theorem remember_caches {draining : Draining env} (bound : ∀ peer, SelfBound (draining.cacheOf peer))
    (peer : String) (decoded : BlockValidity.DecodedBlock) (other : String) :
    SelfBound ((draining.remember peer decoded).cacheOf other) := by
  unfold Draining.remember
  have looked : ∀ cache : HeaderCache, Draining.cacheOf
      { draining with branchCaches := draining.branchCaches.insert peer cache } other =
        if peer = other then cache else draining.cacheOf other := by
    intro cache
    unfold Draining.cacheOf
    rw [BTreeMap.getElem?_insert]
    split_ifs <;> rfl
  rw [looked]
  split_ifs
  · exact selfBound_insert (bound peer) decoded
  · exact bound other

theorem askForRange_frame {draining : Draining env} {durableTip : TipPoint} {peer : String}
    {decoded : BlockValidity.DecodedBlock} (reason : MissingBridgeReason) :
    (draining.askForRange durableTip peer decoded reason).branchCaches = draining.branchCaches ∧
      (draining.askForRange durableTip peer decoded reason).act.rollbackRetention =
        draining.act.rollbackRetention := by
  unfold Draining.askForRange
  split
  · exact ⟨rfl, rfl⟩
  · split_ifs <;> exact ⟨rfl, rfl⟩

/-- A state of a drain that remembers what another one does binds as it does. -/
theorem SelfBinding.of_frame {draining next : Draining env}
    (caches : ∀ peer, SelfBound (next.cacheOf peer)) (bound : SelfBinding draining)
    (retention : next.act.rollbackRetention = draining.act.rollbackRetention)
    (bridge : next.act.pendingMissingBridge = draining.act.pendingMissingBridge ∨
      next.act.pendingMissingBridge ≠ some .cacheSelfBindingViolation) : SelfBinding next where
  caches := caches
  retention := by
    rw [retention]
    exact bound.retention
  bridge := by
    rcases bridge with same | other
    · rw [same]
      exact bound.bridge
    · exact other

theorem mapLcaError_unbound {error : LcaError}
    (unbound : mapLcaError error = .cacheSelfBindingViolation) : error = .cacheSelfBindingViolation := by
  cases error <;> first | rfl | cases unbound

theorem decideAtTip_frame {draining next : Draining env} {durableTip : TipPoint}
    (decided : decideAtTip draining durableTip = .ok next) :
    next.branchCaches = draining.branchCaches ∧
      next.act.rollbackRetention = draining.act.rollbackRetention ∧
      next.act.pendingMissingBridge = draining.act.pendingMissingBridge := by
  rcases decideAtTip_cases decided with rfl | ⟨stored, tipDecoded, tiebreaker, -, -, -, rfl⟩
  · exact ⟨rfl, rfl, rfl⟩
  · unfold Draining.decide
    split <;> exact ⟨rfl, rfl, rfl⟩

theorem dispatched_selfBinding {draining next : Draining env} {durableTip : TipPoint} {peer : String}
    {decoded : BlockValidity.DecodedBlock} (bound : SelfBinding draining)
    (dispatched : Dispatched shell draining durableTip peer decoded next) : SelfBinding next := by
  have remembered := remember_caches bound.caches peer decoded
  cases dispatched with
  | gap error walked =>
      have frame := @askForRange_frame env (draining.remember peer decoded) durableTip peer decoded
        (mapLcaError error)
      refine SelfBinding.of_frame ?_ bound frame.2 (.inr ?_)
      · intro other
        have same : ((((draining.remember peer decoded).askForRange durableTip peer decoded
            (mapLcaError error)).missingBridge (mapLcaError error)).cacheOf other) =
              (draining.remember peer decoded).cacheOf other := by
          unfold Draining.cacheOf
          rw [← frame.1]
          rfl
        rw [same]
        exact remembered other
      · intro unbound
        rw [mapLcaError_unbound (Option.some.inj unbound)] at walked
        exact walk_ne_unbound (remembered peer) bound.retention walked
  | unreachable =>
      refine SelfBinding.of_frame remembered bound rfl (.inr ?_)
      intro unbound
      cases unbound
  | invalid => exact SelfBinding.of_frame remembered bound rfl (.inl rfl)
  | offered lca ledger chainDep candidate walked materialized built next decided =>
      obtain ⟨caches, retention, bridge⟩ := decideAtTip_frame decided
      refine SelfBinding.of_frame ?_ bound retention (.inl bridge)
      intro other
      have same : next.cacheOf other = (draining.remember peer decoded).cacheOf other := by
        unfold Draining.cacheOf
        rw [caches]
        rfl
      rw [same]
      exact remembered other

theorem syncItem_selfBinding {draining next : Draining env} {item : NodeSyncItem}
    (bound : SelfBinding draining) (synced : syncItem shell draining item = .ok next) :
    SelfBinding next := by
  cases item with
  | block peer blockBytes =>
      cases synced_of_ok synced with
      | kept => exact bound
      | admitted pumped after ran bridged =>
          cases bridged
          · exact SelfBinding.of_frame bound.caches bound rfl (.inl rfl)
          · refine SelfBinding.of_frame bound.caches bound rfl (.inr ?_)
            intro unbound
            cases unbound
      | competes decoded tip decodes top next dispatched => exact dispatched_selfBinding bound dispatched
  | rollBack accumulator point =>
      obtain ⟨rolledBack, -, synced⟩ := bind_ok synced
      cases synced
      dsimp only
      split_ifs
      · exact SelfBinding.of_frame bound.caches bound rfl (.inl rfl)
      · exact SelfBinding.of_frame bound.caches bound rfl (.inl rfl)

theorem retainRolledBack_selfBound {chaindb : PersistentChainDb} {anchorHash : Hash32} {steps : Nat}
    {cur : Hash32} {retention : HeaderCache} (bound : SelfBound retention) :
    SelfBound (retainRolledBack env chaindb anchorHash steps cur retention) := by
  induction steps generalizing cur retention with
  | zero => exact bound
  | succ steps ih =>
      unfold retainRolledBack
      split_ifs
      · exact bound
      · split
        · split
          · split
            · apply ih
              split_ifs
              · exact selfBound_insert bound _
              · exact bound
            · exact bound
          · exact bound
        · exact bound
        · exact bound

theorem boundRetention_selfBound {k : UInt64} {retention : HeaderCache} (bound : SelfBound retention) :
    SelfBound (boundRetention k retention) := by
  unfold boundRetention
  split
  · exact bound
  · intro hash entry found
    rw [Std.ExtTreeMap.getElem?_filter'] at found
    exact bound hash entry (Option.filter_eq_some_iff.mp found).1

theorem captureRetention_selfBound {chaindb : PersistentChainDb} {k : UInt64} {anchorHash : Hash32}
    {retention : HeaderCache} (bound : SelfBound retention) :
    SelfBound (captureRetention env chaindb k anchorHash retention) := by
  unfold captureRetention
  split
  · exact boundRetention_selfBound (retainRolledBack_selfBound bound)
  · exact bound
  · exact bound

/-! ## Anchors -/

/-- The point is that of a block of the chain. -/
def InChain (chain : List (Admission env.Ledger)) (point : Point) : Prop :=
  ∃ admission ∈ chain, Point.mk admission.block.slot admission.block.hash = point

/-- The candidates and the decision have their anchors in the chain. -/
structure Anchored (chain : List (Admission env.Ledger)) (draining : Draining env) : Prop where
  offers : ∀ peer candidate tip, Offers draining.competing peer candidate tip →
    candidate.headers ≠ [] ∧ InChain chain candidate.anchor
  pending : ∀ switch, draining.act.pendingForkSwitch = some switch →
    InChain chain switch.forkAnchor.point

theorem Anchored.grown {chain grown : List (Admission env.Ledger)} {draining next : Draining env}
    (anchored : Anchored chain draining) (within : chain ⊆ grown)
    (competing : next.competing = draining.competing)
    (pending : next.act.pendingForkSwitch = draining.act.pendingForkSwitch) : Anchored grown next where
  offers := by
    intro peer candidate tip offers
    rw [competing] at offers
    obtain ⟨nonempty, admission, member, point⟩ := anchored.offers peer candidate tip offers
    exact ⟨nonempty, admission, within member, point⟩
  pending := by
    intro switch decided
    rw [pending] at decided
    obtain ⟨admission, member, point⟩ := anchored.pending switch decided
    exact ⟨admission, within member, point⟩

theorem decide_anchored {draining : Draining env} (anchored : Anchored chain draining)
    (selectorState : ChainSelectorState) : Anchored chain (draining.decide selectorState) := by
  unfold Draining.decide
  split
  · rename_i switch decided
    refine ⟨anchored.offers, ?_⟩
    intro other same
    cases same
    have some_ : draining.competing ≠ ∅ := by
      intro none_
      unfold decideForkSwitch at decided
      rw [candidateSet_eq_nil.mpr none_] at decided
      cases decided
    rcases decide_cases some_ fun peer candidate tip offers =>
        (anchored.offers peer candidate tip offers).1 with
      ⟨kept, -⟩ | ⟨peer, candidate, tip, -, -, -, switched, offers, -, -⟩
    · rw [decided] at kept
      cases kept
    · rw [decided] at switched
      cases switched
      exact (anchored.offers peer candidate tip offers).2
  · exact anchored
  · exact anchored

theorem decideAtTip_anchored {draining next : Draining env} {durableTip : TipPoint}
    (anchored : Anchored chain draining) (decided : decideAtTip draining durableTip = .ok next) :
    Anchored chain next := by
  rcases decideAtTip_cases decided with rfl | ⟨stored, tipDecoded, tiebreaker, -, -, -, rfl⟩
  · exact anchored
  · exact decide_anchored anchored _

theorem askForRange_pending {draining : Draining env} {durableTip : TipPoint} {peer : String}
    {decoded : BlockValidity.DecodedBlock} (reason : MissingBridgeReason) :
    (draining.askForRange durableTip peer decoded reason).competing = draining.competing ∧
      (draining.askForRange durableTip peer decoded reason).act.pendingForkSwitch =
        draining.act.pendingForkSwitch := by
  unfold Draining.askForRange
  split
  · exact ⟨rfl, rfl⟩
  · split_ifs <;> exact ⟨rfl, rfl⟩

theorem dispatched_anchored {draining next : Draining env} {durableTip : TipPoint} {peer : String}
    {decoded : BlockValidity.DecodedBlock} (keeps : Keeps draining.state.chaindb chain)
    (anchored : Anchored chain draining)
    (dispatched : Dispatched shell draining durableTip peer decoded next) : Anchored chain next := by
  cases dispatched with
  | gap error walked =>
      have frame := @askForRange_pending env (draining.remember peer decoded) durableTip peer decoded
        (mapLcaError error)
      exact anchored.grown (List.Subset.refl _) frame.1 frame.2
  | unreachable => exact anchored.grown (List.Subset.refl _) rfl rfl
  | invalid => exact anchored.grown (List.Subset.refl _) rfl rfl
  | offered lca ledger chainDep candidate walked materialized built next decided =>
      refine @decideAtTip_anchored _ _ ((draining.remember peer decoded).offer peer candidate decoded)
        _ _ ⟨?_, anchored.pending⟩ decided
      intro other rival tip offers
      unfold Offers Draining.offer at offers
      dsimp only at offers
      rw [BTreeMap.getElem?_insert] at offers
      split_ifs at offers with same
      · cases offers
        obtain ⟨-, anchor, -, last, ends, -⟩ := buildCandidate_ok built
        obtain ⟨stored, found, slot⟩ := walk_durable walked
        obtain ⟨admission, member, at_, name, -⟩ := found_in_chain keeps found
        refine ⟨?_, admission, member, ?_⟩
        · intro none_
          rw [none_] at ends
          cases ends
        · rw [anchor, slot, at_, name]
      · exact anchored.offers other rival tip offers

theorem grows_subset {blockBytes : Bytes} {result : Except (PumpError env) (Option PumpTip)}
    {grown : List (Admission env.Ledger)} (grows : Grows blockBytes chain result grown) :
    chain ⊆ grown := by
  cases grows with
  | refused error => exact List.Subset.refl _
  | repeated => exact List.Subset.refl _
  | admitted decoded ledger chainDep ran => exact List.subset_cons_self ..

/-- Blocks keep the anchors in the chain. -/
theorem syncBlock_anchored {draining next : Draining env} {peer : String} {blockBytes : Bytes}
    (holds : Holds shell origin snapshot draining.state chain) (anchored : Anchored chain draining)
    (synced : syncBlock shell draining peer blockBytes = .ok next) :
    ∃ grown, Holds shell origin snapshot next.state grown ∧ Anchored grown next := by
  cases synced_of_ok synced with
  | kept => exact ⟨chain, holds, anchored⟩
  | admitted pumped after ran bridged =>
      obtain ⟨grown, nextHolds, grows⟩ := holds.pump blockBytes
      rw [ran] at nextHolds grows
      refine ⟨grown, nextHolds, anchored.grown (grows_subset grows) rfl ?_⟩
      cases bridged <;> rfl
  | competes decoded tip decodes top next dispatched =>
      refine ⟨chain, ?_, dispatched_anchored holds.keeps anchored dispatched⟩
      rw [dispatched_state dispatched]
      exact holds

/-! ## Between the rounds -/

/-- Between two rounds nothing is left to switch to or to fetch. -/
structure Tidy (act : ForgeActivation) : Prop where
  retention : SelfBound act.rollbackRetention
  bridge : act.pendingMissingBridge ≠ some .cacheSelfBindingViolation
  decided : act.pendingForkSwitch = none
  asked : act.pendingRangeRefetch = none

theorem runParticipantSync_selfBinding {act : ForgeActivation} {items : List NodeSyncItem}
    {draining : Draining env} (retention : SelfBound act.rollbackRetention)
    (bridge : act.pendingMissingBridge ≠ some .cacheSelfBindingViolation)
    (drained : runParticipantSync shell state act items = .ok draining) : SelfBinding draining := by
  refine foldlM_invariant (fun before item after _ taken bound => syncItem_selfBinding bound taken)
    drained ⟨?_, retention, bridge⟩
  intro peer
  have none_ : Draining.cacheOf ⟨state, act, ∅, ∅⟩ peer = ∅ := by simp [Draining.cacheOf]
  rw [none_]
  exact selfBound_empty

theorem switched_frame (act : ForgeActivation) (chaindb : PersistentChainDb)
    (switch : PendingForkSwitch) (outcome : ForkSwitchOutcome)
    (retention : SelfBound act.rollbackRetention)
    (bridge : act.pendingMissingBridge ≠ some .cacheSelfBindingViolation) :
    SelfBound (act.switched env chaindb switch outcome).rollbackRetention ∧
      (act.switched env chaindb switch outcome).pendingMissingBridge ≠
        some .cacheSelfBindingViolation ∧
      (act.switched env chaindb switch outcome).pendingForkSwitch = none := by
  cases outcome with
  | proofFailed error => exact ⟨retention, bridge, rfl⟩
  | adopted newTip prev =>
      refine ⟨captureRetention_selfBound retention, ?_, rfl⟩
      intro unbound
      cases unbound

theorem consumeForkSwitch_frame {loop next : LoopState env} {accumulator : AccumulatorStore}
    {fetched : BranchBodySource} (retention : SelfBound loop.act.rollbackRetention)
    (bridge : loop.act.pendingMissingBridge ≠ some .cacheSelfBindingViolation)
    (consumed : consumeForkSwitch shell loop accumulator fetched = .ok next) :
    SelfBound next.act.rollbackRetention ∧
      next.act.pendingMissingBridge ≠ some .cacheSelfBindingViolation ∧
      next.act.pendingForkSwitch = none := by
  cases pending : loop.act.pendingForkSwitch with
  | none =>
      rw [consumeForkSwitch_none accumulator fetched pending] at consumed
      cases consumed
      exact ⟨retention, bridge, pending⟩
  | some switch =>
      obtain ⟨outcome, -, act⟩ := consumeForkSwitch_some pending consumed
      rw [act]
      exact switched_frame loop.act loop.state.chaindb switch outcome retention bridge

theorem consumeRangeRefetch_tidy (loop : LoopState env) (fetched : Nat → List Bytes)
    (retention : SelfBound loop.act.rollbackRetention)
    (bridge : loop.act.pendingMissingBridge ≠ some .cacheSelfBindingViolation)
    (decided : loop.act.pendingForkSwitch = none) :
    Tidy (consumeRangeRefetch shell loop fetched).act := by
  rcases @consumeRangeRefetch_cases env shell loop fetched with
    ⟨asked, same⟩ | ⟨items, state, left, -, bridged, next⟩
  · rw [same]
    exact ⟨retention, bridge, decided, asked⟩
  · rw [next]
    refine ⟨retention, ?_, decided, rfl⟩
    rcases bridged with rfl | rfl
    · exact (Option.some_ne_none _).symm
    · exact bridge

theorem resolveFence_tidy {act : ForgeActivation} (tidy : Tidy act) (caughtUp : Bool) :
    Tidy (act.resolveFence caughtUp) := by
  unfold ForgeActivation.resolveFence
  split_ifs
  · exact ⟨tidy.retention, tidy.bridge, tidy.decided, tidy.asked⟩
  · exact tidy

theorem loopRound_tidy {loop next : LoopState env} {input : RoundInput} (tidy : Tidy loop.act)
    (ran : loopRound shell loop input = .ok next) : Tidy next.act := by
  obtain ⟨draining, drained, ran⟩ := bind_ok ran
  obtain ⟨switched, consumed, ran⟩ := bind_ok ran
  cases ran
  have bound := runParticipantSync_selfBinding tidy.retention tidy.bridge drained
  obtain ⟨retention, bridge, decided⟩ := consumeForkSwitch_frame bound.retention bound.bridge consumed
  exact resolveFence_tidy (consumeRangeRefetch_tidy switched input.rangeBodies retention bridge decided) _

theorem consumeRangeRefetch_decided (loop : LoopState env) (fetched : Nat → List Bytes) :
    (consumeRangeRefetch shell loop fetched).act.pendingForkSwitch = loop.act.pendingForkSwitch := by
  rcases @consumeRangeRefetch_cases env shell loop fetched with
    ⟨-, same⟩ | ⟨items, state, left, -, -, next⟩
  · rw [same]
  · rw [next]

theorem resolveFence_decided (act : ForgeActivation) (caughtUp : Bool) :
    (act.resolveFence caughtUp).pendingForkSwitch = act.pendingForkSwitch := by
  unfold ForgeActivation.resolveFence
  split_ifs <;> rfl

theorem consumeForkSwitch_decided {loop next : LoopState env} {accumulator : AccumulatorStore}
    {fetched : BranchBodySource}
    (consumed : consumeForkSwitch shell loop accumulator fetched = .ok next) :
    next.act.pendingForkSwitch = none := by
  cases pending : loop.act.pendingForkSwitch with
  | none =>
      rw [consumeForkSwitch_none accumulator fetched pending] at consumed
      cases consumed
      exact pending
  | some switch =>
      obtain ⟨outcome, -, act⟩ := consumeForkSwitch_some pending consumed
      rw [act]
      cases outcome <;> rfl

theorem loopRound_decided {loop next : LoopState env} {input : RoundInput}
    (ran : loopRound shell loop input = .ok next) : next.act.pendingForkSwitch = none := by
  obtain ⟨draining, -, ran⟩ := bind_ok ran
  obtain ⟨switched, consumed, ran⟩ := bind_ok ran
  cases ran
  dsimp only
  rw [resolveFence_decided, consumeRangeRefetch_decided, consumeForkSwitch_decided consumed]

/-- A drain of blocks leaves its candidates and its decision anchored. -/
theorem blocks_anchored (holds : Holds shell origin snapshot state chain) {act : ForgeActivation}
    (idle : act.pendingForkSwitch = none) {items : List NodeSyncItem}
    (blocks : ∀ item ∈ items, ∃ peer blockBytes, item = .block peer blockBytes)
    {draining : Draining env} (drained : runParticipantSync shell state act items = .ok draining) :
    ∃ grown, Holds shell origin snapshot draining.state grown ∧ Anchored grown draining := by
  refine @foldlM_invariant _ _ _ _ _ (fun draining : Draining env => ∃ grown,
    Holds shell origin snapshot draining.state grown ∧ Anchored grown draining) _ _ ?_ drained
    ⟨chain, holds, ?_, ?_⟩
  · rintro before item after member taken ⟨grown, reached, anchored⟩
    obtain ⟨peer, blockBytes, rfl⟩ := blocks item member
    exact syncBlock_anchored reached anchored taken
  · intro peer candidate tip offers
    simp [Offers] at offers
  · intro switch decided
    rw [idle] at decided
    cases decided

theorem loopRounds_decided {loop last : LoopState env} {inputs : List RoundInput}
    (idle : loop.act.pendingForkSwitch = none) (ran : loopRounds shell loop inputs = .ok last) :
    last.act.pendingForkSwitch = none :=
  @foldlM_invariant _ _ _ _ _ (fun loop : LoopState env => loop.act.pendingForkSwitch = none) _ _
    (fun _ _ _ _ taken _ => loopRound_decided taken) ran idle

theorem consumeForkSwitch_applied {loop : LoopState env} {accumulator : AccumulatorStore}
    {fetched : BranchBodySource} {switch : PendingForkSwitch}
    (pending : loop.act.pendingForkSwitch = some switch) {outcome : ForkSwitchOutcome} {after : State env}
    (applied : applyForkSwitch shell accumulator loop.state switch (loop.act.bodySource fetched) =
      .ok (outcome, after)) :
    consumeForkSwitch shell loop accumulator fetched =
      .ok ⟨after, loop.act.switched env loop.state.chaindb switch outcome⟩ := by
  unfold consumeForkSwitch
  rw [pending]
  exact bind_eq_ok.mpr ⟨_, applied, rfl⟩

theorem loopRound_ok {loop switched : LoopState env} {input : RoundInput} {draining : Draining env}
    (drained : runParticipantSync shell loop.state loop.act input.items = .ok draining)
    (consumed : consumeForkSwitch shell ⟨draining.state, draining.act⟩ input.accumulator
      input.branchBodies = .ok switched) : ∃ next, loopRound shell loop input = .ok next := by
  unfold loopRound
  rw [drained]
  dsimp only [bind, Except.bind]
  rw [consumed]
  exact ⟨_, rfl⟩

/-! ## Whole runs -/

section
variable {seed : EraSummary} {count : Nat} (reaches : Reaches seed count env.eraSchedule)
  (body : BodyLocates env) (decodes : shell.decodeSnapshot snapshot = .ok (origin.ledger, origin.chainDep))
include reaches body decodes

/-- A drain fails where its turns fail, and otherwise leaves the durable state that they leave. -/
theorem drain_turns {draining : Draining env} (holds : Holds shell origin snapshot draining.state chain)
    (items : List NodeSyncItem) :
    (items.foldlM (syncItem shell) draining).map Draining.state =
      turns shell draining.state (items.map NodeSyncItem.turn) := by
  refine @foldlM_simulates _ _ _ _ _ _ _ Draining.state NodeSyncItem.turn
    (fun draining => ∃ chain, Holds shell origin snapshot draining.state chain) ?_ ?_ items _ ⟨chain, holds⟩
  · rintro draining item ⟨chain, holds⟩
    exact syncItem_state holds.keeps holds.named item
  · rintro draining item next taken ⟨chain, holds⟩
    have durable := @syncItem_state env shell chain draining holds.keeps holds.named item
    rw [taken] at durable
    exact (turn_holds reaches body decodes holds durable.symm).imp fun _ next => next.1

theorem runParticipantSync_turns (holds : Holds shell origin snapshot state chain)
    (act : ForgeActivation) (items : List NodeSyncItem) :
    (runParticipantSync shell state act items).map Draining.state =
      turns shell state (items.map NodeSyncItem.turn) := by
  have start : Holds shell origin snapshot (Draining.mk state act ∅ ∅).state chain := holds
  exact drain_turns reaches body decodes start items

theorem loopRound_turns {loop next : LoopState env} {input : RoundInput}
    (holds : Holds shell origin snapshot loop.state chain)
    (ran : loopRound shell loop input = .ok next) :
    ∃ items, turns shell loop.state items = .ok next.state := by
  obtain ⟨draining, drained, ran⟩ := bind_ok ran
  obtain ⟨switched, consumed, ran⟩ := bind_ok ran
  cases ran
  have first := runParticipantSync_turns reaches body decodes holds loop.act input.items
  rw [drained] at first
  obtain ⟨second, switches⟩ := consumeForkSwitch_turns consumed
  obtain ⟨third, fetches⟩ := consumeRangeRefetch_turns switched input.rangeBodies
  exact ⟨_, turns_append (turns_append first.symm switches) fetches⟩

theorem loopRounds_turns {loop last : LoopState env} {inputs : List RoundInput}
    (holds : Holds shell origin snapshot loop.state chain)
    (ran : loopRounds shell loop inputs = .ok last) :
    ∃ items, turns shell loop.state items = .ok last.state := by
  refine @foldlM_invariant _ _ _ _ _
    (fun reached : LoopState env => ∃ items, turns shell loop.state items = .ok reached.state) _ _
    ?_ ran ⟨[], rfl⟩
  rintro before input after - taken ⟨items, earlier⟩
  obtain ⟨current, now⟩ := turns_holds reaches body decodes holds earlier
  obtain ⟨further, later⟩ := loopRound_turns reaches body decodes now taken
  exact ⟨_, turns_append earlier later⟩

/-- A switch to a block of the chain fails its proof and changes nothing, or is done whole. -/
theorem decided_whole (holds : Holds shell origin snapshot state chain) {switch : PendingForkSwitch}
    (anchored : InChain chain switch.forkAnchor.point) {accumulator : AccumulatorStore}
    (admits : ∀ point, accumulator.admitAndClear point = true) (bodySource : BranchBodySource) :
    ∃ before anchor after, state.chaindb.iterFromSlot 0 = .ok (before ++ anchor :: after) ∧
      switch.forkAnchor.point = ⟨anchor.slot, anchor.hash⟩ ∧
      ((∃ error, applyForkSwitch shell accumulator state switch bodySource =
          .ok (.proofFailed error, state)) ∨
        ∃ proven tip adopted, proveForkSwitch shell state switch bodySource = .ok proven ∧
          proven.blocks.getLast? = some tip ∧
          applyForkSwitch shell accumulator state switch bodySource =
            .ok (.adopted tip.tip (newTipPrev switch.forkAnchor proven.blocks), adopted) ∧
          Lockstep shell origin adopted (before ++ anchor :: proven.blocks.map storedOf)) := by
  obtain ⟨target, member, point⟩ := anchored
  obtain ⟨above, below, split⟩ := List.append_of_mem member
  refine ⟨(below.map Admission.block).reverse, target.block, (above.map Admission.block).reverse, ?_,
    point.symm, ?_⟩
  · rw [holds.blocks, split]
    simp
  · rcases holds.forkSwitch reaches body decodes split point.symm (admits _) bodySource with
      failed | ⟨proven, tip, adopted, newer, proof, last, applied, final, blocks⟩
    · exact .inl failed
    · refine .inr ⟨proven, tip, adopted, proof, last, applied, ?_⟩
      rw [← blocks]
      have whole := final.lockstep
      simpa using whole

/-- A round whose decision is anchored in the chain does not stop. -/
theorem loopRound_total {loop : LoopState env} {input : RoundInput} {draining : Draining env}
    (holds : Holds shell origin snapshot draining.state chain) (anchored : Anchored chain draining)
    (admits : ∀ point, input.accumulator.admitAndClear point = true)
    (drained : runParticipantSync shell loop.state loop.act input.items = .ok draining) :
    ∃ next, loopRound shell loop input = .ok next := by
  cases pending : draining.act.pendingForkSwitch with
  | none => exact loopRound_ok drained (consumeForkSwitch_none _ _ pending)
  | some switch =>
      obtain ⟨before, anchor, after, -, -, done⟩ := decided_whole reaches body decodes holds
        (anchored.pending switch pending) admits (draining.act.bodySource input.branchBodies)
      rcases done with ⟨error, failed⟩ | ⟨proven, tip, adopted, -, -, adopts, -⟩
      · exact loopRound_ok drained (consumeForkSwitch_applied pending failed)
      · exact loopRound_ok drained (consumeForkSwitch_applied pending adopts)

/-! ## From the start of a node -/

section
variable (settled : origin.chainDep.lastSlot = some origin.slot) {recoveredAnchor : Option ChainTip}
  {cadence : ForwardSync.SnapshotCadence} {act : ForgeActivation} {inputs : List RoundInput}
  {loop : LoopState env} (ran : loopRounds shell
    ⟨State.start shell origin snapshot recoveredAnchor cadence, act⟩ inputs = .ok loop)
include settled ran

theorem looped_holds : ∃ chain, Holds shell origin snapshot loop.state chain := by
  have start : Holds shell origin snapshot (State.start shell origin snapshot recoveredAnchor cadence)
      [] := holds_start settled recoveredAnchor cadence
  obtain ⟨items, turned⟩ := @loopRounds_turns _ _ _ _ _ _ _ reaches body decodes
    ⟨State.start shell origin snapshot recoveredAnchor cadence, act⟩ _ _ start ran
  exact turns_holds reaches body decodes start turned

end

end

/-! ## A round with one block -/

section Samples

def sampleAct : ForgeActivation where
  securityParam := 2160
  networkMagic := none
  pendingReselection := false
  pendingForkSwitch := none
  lastForkSwitchFailure := none
  pendingMissingBridge := none
  rollbackRetention := ∅
  postSwitchFollow := none
  pendingRangeRefetch := none

theorem sampleAct_tidy : Tidy sampleAct where
  retention := selfBound_empty
  bridge := (Option.some_ne_none _).symm
  decided := rfl
  asked := rfl

def sampleInput : RoundInput where
  items := [.block "peer" sampleBlockBytes]
  accumulator := ⟨fun _ => true, true⟩
  branchBodies := fun _ _ => none
  rangeBodies := fun _ => []
  caughtUp := true

theorem sampleInput_blocks : ∀ item ∈ sampleInput.items, ∃ peer blockBytes,
    item = .block peer blockBytes := by
  intro item member
  exact ⟨"peer", sampleBlockBytes, List.mem_singleton.mp member⟩

theorem sample_drain : ∃ draining,
    runParticipantSync sampleShell sampleStart sampleAct sampleInput.items = .ok draining := by
  have holds : Holds sampleShell sampleOrigin [] sampleStart [] := holds_start rfl _ _
  obtain ⟨state, -, -, ran, -⟩ := sample_turn
  have durable := runParticipantSync_turns sample_reaches sample_body rfl holds sampleAct sampleInput.items
  have ran' : turns sampleShell sampleStart (sampleInput.items.map NodeSyncItem.turn) = .ok state := ran
  rw [ran'] at durable
  obtain ⟨draining, drained, -⟩ := map_ok durable
  exact ⟨draining, drained⟩

theorem sample_round : ∃ loop,
    loopRounds sampleShell ⟨sampleStart, sampleAct⟩ [sampleInput] = .ok loop := by
  have holds : Holds sampleShell sampleOrigin [] sampleStart [] := holds_start rfl _ _
  obtain ⟨draining, drained⟩ := sample_drain
  obtain ⟨grown, reached, anchored⟩ := blocks_anchored holds rfl sampleInput_blocks drained
  obtain ⟨loop, ran⟩ := @loopRound_total _ _ _ _ _ _ _ sample_reaches sample_body rfl
    ⟨sampleStart, sampleAct⟩ sampleInput draining reached anchored (fun _ => rfl) drained
  exact ⟨loop, bind_eq_ok.mpr ⟨loop, ran, rfl⟩⟩

end Samples

end Ade.Proof.Participant
