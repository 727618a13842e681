import Ade.Participant.ForkChoice

/-! The loop of a participant: draining the source, switching, and fetching what is missing. -/

namespace Ade.Participant
open Library ChainDb Codec.Shelley Consensus Receive Rollback ForwardSync Wal BlockValidity

/-- What the loop keeps between its turns besides the durable state. -/
structure ForgeActivation where
  securityParam : UInt64
  networkMagic : Option UInt32
  pendingReselection : Bool
  pendingForkSwitch : Option PendingForkSwitch
  lastForkSwitchFailure : Option BranchProofError
  pendingMissingBridge : Option MissingBridgeReason
  rollbackRetention : HeaderCache
  postSwitchFollow : Option PostSwitchFollow
  pendingRangeRefetch : Option RangeRefetch

/-- A drain of the source, with what it remembers of the branches of each peer. -/
structure Draining (env : Environment) where
  state : State env
  act : ForgeActivation
  competing : CompetingSet
  branchCaches : BTreeMap String HeaderCache

variable {env : Environment} (shell : Shell env)

/-! ## The dispatch of a competing block -/

def cachedHeader (decoded : BlockValidity.DecodedBlock) : CachedHeader :=
  ⟨decoded.headerInput, decoded.prevHash, decoded.blockHash⟩

def Draining.cacheOf (draining : Draining env) (peer : String) : HeaderCache :=
  draining.branchCaches[peer]?.getD ∅

/-- The block among the headers of its peer. -/
def Draining.remember (draining : Draining env) (peer : String)
    (decoded : BlockValidity.DecodedBlock) : Draining env :=
  { draining with
    branchCaches := draining.branchCaches.insert peer
      ((draining.cacheOf peer).insert decoded.blockHash (cachedHeader decoded)) }

def Draining.missingBridge (draining : Draining env) (reason : MissingBridgeReason) : Draining env :=
  { draining with act := { draining.act with pendingMissingBridge := some reason } }

/-- Only descendants that the peer of the last switch sends ahead of the tip are fetched again. -/
def Draining.askForRange (draining : Draining env) (durableTip : TipPoint) (peer : String)
    (decoded : BlockValidity.DecodedBlock) (reason : MissingBridgeReason) : Draining env :=
  match draining.act.postSwitchFollow with
  | none => draining
  | some follow =>
      if follow.winningPeer = peer ∧ durableTip.slot < decoded.headerInput.slot then
        { draining with act := { draining.act with
            pendingRangeRefetch := some {
              peer := peer
              fromTip := ⟨durableTip.slot, durableTip.hash⟩
              toDescendant := ⟨decoded.headerInput.slot, decoded.blockHash⟩
              forkSwitchId := follow.forkSwitchId
              reason := reason } } }
      else draining

/-- The candidate of the peer, with the point of its last block. -/
def Draining.offer (draining : Draining env) (peer : String) (candidate : CandidateBranch)
    (decoded : BlockValidity.DecodedBlock) : Draining env :=
  { draining with
    competing := draining.competing.insert peer
      (candidate, ⟨decoded.headerInput.slot, decoded.blockHash⟩) }

/-- The anchor that the node recovered from bounds the forks from below. -/
def floorPoint (state : State env) : Point :=
  match state.recoveredAnchor with
  | some anchor => ⟨anchor.slot, anchor.hash⟩
  | none => ⟨0, Vector.replicate 32 0⟩

/-- The selector sees the durable tip by its stored block. -/
def selectorStateOf (draining : Draining env) (durableTip : TipPoint) (tiebreaker : TiebreakerView) :
    ChainSelectorState where
  currentTip := ⟨durableTip.slot, durableTip.hash⟩
  currentTipBlockNo := durableTip.blockNo
  currentTiebreaker := tiebreaker
  immutableTip := floorPoint draining.state
  immutableTipBlockNo := 0
  securityParam := draining.act.securityParam

/-- A decision is only noted, and no block is forged meanwhile. -/
def Draining.decide (draining : Draining env) (selectorState : ChainSelectorState) : Draining env :=
  match decideForkSwitch selectorState draining.competing with
  | .ok (.switch switch) =>
      { draining with act := { draining.act with
          pendingReselection := true
          pendingForkSwitch := some switch } }
  | .ok .keepCurrent => draining
  | .error _ => draining

def decideAtTip (draining : Draining env) (durableTip : TipPoint) :
    Except (NodeSyncError env) (Draining env) := do
  match ← (draining.state.chaindb.getBlockByHash durableTip.hash).mapError .store with
  | none => return draining
  | some stored =>
      let tipDecoded ← (decodeBlock env stored.bytes).mapError .decode
      match projectTiebreaker env.verifiers tipDecoded.headerInput with
      | .error _ => return draining
      | .ok tiebreaker => return draining.decide (selectorStateOf draining durableTip tiebreaker)

def dispatchCompetingForkChoice (draining : Draining env) (durableTip : TipPoint) (peer : String)
    (decoded : BlockValidity.DecodedBlock) : Except (NodeSyncError env) (Draining env) :=
  let remembering := draining.remember peer decoded
  let state := draining.state
  match walkToDurableLca (remembering.cacheOf peer) draining.act.rollbackRetention decoded.blockHash
      state.chaindb draining.act.securityParam with
  | .error error =>
      let reason := mapLcaError error
      .ok ((remembering.askForRange durableTip peer decoded reason).missingBridge reason)
  | .ok lca =>
      match materializeRolledBackState shell.rules state.chaindb state.recoveredEta0
          lca.anchorSlot with
      | .error _ => .ok (remembering.missingBridge .lcaUnreachable)
      | .ok (_, anchorChainDep) =>
          match buildCandidateFragment env ⟨lca.anchorSlot, lca.anchorHash⟩
              (anchorChainDep.lastBlockNo.getD 0) durableTip.blockNo anchorChainDep lca.headers with
          | .error _ => .ok remembering
          | .ok candidate => decideAtTip (remembering.offer peer candidate decoded) durableTip

/-! ## The drain -/

/-- What the source delivers. The accumulator answers to each rollback. -/
inductive NodeSyncItem where
  | block (peer : String) (blockBytes : Bytes)
  | rollBack (accumulator : AccumulatorStore) (point : Network.Point)

def NodeSyncItem.turn : NodeSyncItem → Turn
  | .block _ blockBytes => .block blockBytes
  | .rollBack accumulator point => .rollBack accumulator point

/-- A block that was admitted bridges what was missing. -/
def Draining.admitBlock (draining : Draining env) (blockBytes : Bytes) (clears : Bool) :
    Except (NodeSyncError env) (Draining env) :=
  match pumpBlock shell draining.state blockBytes with
  | (.error error, _) => .error (.pump error)
  | (.ok pumped, next) =>
      .ok { draining with
        state := next
        act := if pumped.isSome && clears then { draining.act with pendingMissingBridge := none }
          else draining.act }

def syncBlock (draining : Draining env) (peer : String) (blockBytes : Bytes) :
    Except (NodeSyncError env) (Draining env) := do
  let state := draining.state
  let decoded ← (decodeBlock env blockBytes).mapError .decode
  match ← state.chaindb.tip.mapError .store with
  | none => draining.admitBlock shell blockBytes false
  | some tip =>
      let durableTip : TipPoint :=
        ⟨tip.slot, tip.hash, state.fwd.receive.chainDep.lastBlockNo.getD 0⟩
      let candidate : CandidateSummary :=
        ⟨decoded.headerInput.slot, decoded.headerInput.blockNo, decoded.blockHash, decoded.prevHash⟩
      let stored ← (state.chaindb.getBlockByHash candidate.hash).mapError .store
      match resolveDisposition (classifyReceive durableTip candidate stored.isSome) .participant with
      | .alreadyHave => return draining
      | .linearExtend => draining.admitBlock shell blockBytes true
      | .needsForkChoice => dispatchCompetingForkChoice shell draining durableTip peer decoded
      | .refuseSingleProducer => throw .unexpectedRollback

def isAnchorPoint (state : State env) : Network.Point → Bool
  | .origin => false
  | .block slot hash => isRecoveredAnchor state slot hash

/-- A rollback that is applied ends the pending reselection. -/
def syncRollBack (draining : Draining env) (accumulator : AccumulatorStore) (point : Network.Point) :
    Except (NodeSyncError env) (Draining env) := do
  let rolledBack ← resolveAndApplyPeerRollback shell accumulator draining.state point
  return { draining with
    state := rolledBack
    act := if isAnchorPoint draining.state point then draining.act
      else { draining.act with pendingReselection := false } }

def syncItem (draining : Draining env) : NodeSyncItem → Except (NodeSyncError env) (Draining env)
  | .block peer blockBytes => syncBlock shell draining peer blockBytes
  | .rollBack accumulator point => syncRollBack shell draining accumulator point

/-- A drain starts with no candidates. -/
def runParticipantSync (state : State env) (act : ForgeActivation) (items : List NodeSyncItem) :
    Except (NodeSyncError env) (Draining env) :=
  items.foldlM (syncItem shell) ⟨state, act, ∅, ∅⟩

/-! ## The switch -/

/-- The loop's state between two rounds. -/
structure LoopState (env : Environment) where
  state : State env
  act : ForgeActivation

variable (env) in
/-- From the tip down to the anchor, blocks that are about to be rolled back. -/
def retainRolledBack (chaindb : PersistentChainDb) (anchorHash : Hash32) :
    (steps : Nat) → (cur : Hash32) → HeaderCache → HeaderCache
  | 0, _, retention => retention
  | steps + 1, cur, retention =>
      if cur = anchorHash then retention
      else
        match chaindb.getBlockByHash cur with
        | .ok (some stored) =>
            match decodeBlock env stored.bytes with
            | .ok decoded =>
                match decoded.prevHash with
                | .block next =>
                    retainRolledBack chaindb anchorHash steps next
                      (if decoded.blockHash = cur then
                        retention.insert decoded.blockHash (cachedHeader decoded)
                      else retention)
                | .genesis => retention
            | .error _ => retention
        | .ok none => retention
        | .error _ => retention

/-- Blocks far below the highest one are dropped. -/
def boundRetention (k : UInt64) (retention : HeaderCache) : HeaderCache :=
  match (retention.toList.map fun entry => entry.2.header.blockNo).max? with
  | none => retention
  | some maxBlockNo =>
      retention.filter fun _ cached => saturatingSub maxBlockNo k ≤ cached.header.blockNo

variable (env) in
def captureRetention (chaindb : PersistentChainDb) (k : UInt64) (anchorHash : Hash32)
    (retention : HeaderCache) : HeaderCache :=
  match chaindb.tip with
  | .ok (some oldTip) =>
      boundRetention k (retainRolledBack env chaindb anchorHash (k.toNat + 1) oldTip.hash retention)
  | .ok none => retention
  | .error _ => retention

/-- Without a network magic there is nothing to fetch from. -/
def ForgeActivation.bodySource (act : ForgeActivation) (fetched : BranchBodySource) :
    BranchBodySource :=
  if act.networkMagic.isSome then fetched else fun _ _ => none

variable (env) in
/-- A failed proof leaves the fence as it is. -/
def ForgeActivation.switched (act : ForgeActivation) (chaindb : PersistentChainDb)
    (switch : PendingForkSwitch) : ForkSwitchOutcome → ForgeActivation
  | .proofFailed error =>
      { act with
        lastForkSwitchFailure := some error
        pendingForkSwitch := none }
  | .adopted newTip _ =>
      { act with
        pendingReselection := false
        pendingForkSwitch := none
        lastForkSwitchFailure := none
        pendingMissingBridge := none
        rollbackRetention :=
          captureRetention env chaindb act.securityParam switch.forkAnchor.hash act.rollbackRetention
        postSwitchFollow := some ⟨switch.winningPeer, newTip, forkSwitchId env.verifiers switch⟩ }

/-- The blocks to retain are read before the switch. -/
def consumeForkSwitch (loop : LoopState env) (accumulator : AccumulatorStore)
    (fetched : BranchBodySource) : Except (NodeSyncError env) (LoopState env) :=
  match loop.act.pendingForkSwitch with
  | none => .ok loop
  | some switch => do
      let (outcome, state) ← applyForkSwitch shell accumulator loop.state switch
        (loop.act.bodySource fetched)
      return ⟨state, loop.act.switched env loop.state.chaindb switch outcome⟩

/-! ## The missing range -/

def maxRangeRefetchAttempts : Nat := 3

/-- Each attempt fetches again, until the descendant is reached. -/
def refetchAttempts (toDescendant : Hash32) (fetched : Nat → List Bytes) :
    (remaining : Nat) → State env → Bool × State env
  | 0, state => (false, state)
  | remaining + 1, state =>
      match recoverMissingRange shell state toDescendant (fetched remaining) with
      | (.admitted, next) => (true, next)
      | (_, next) => refetchAttempts toDescendant fetched remaining next

/-- A request of an earlier switch is dropped. -/
def ForgeActivation.followsUp (act : ForgeActivation) (request : RangeRefetch) : Bool :=
  match act.postSwitchFollow with
  | some follow => follow.forkSwitchId = request.forkSwitchId ∧ follow.winningPeer = request.peer
  | none => false

def consumeRangeRefetch (loop : LoopState env) (fetched : Nat → List Bytes) : LoopState env :=
  match loop.act.pendingRangeRefetch with
  | none => loop
  | some request =>
      let act := { loop.act with pendingRangeRefetch := none }
      if act.followsUp request && act.networkMagic.isSome then
        match refetchAttempts shell request.toDescendant.hash fetched maxRangeRefetchAttempts
            loop.state with
        | (true, state) => ⟨state, { act with pendingMissingBridge := none }⟩
        | (false, state) => ⟨state, act⟩
      else ⟨loop.state, act⟩

/-! ## A round -/

/-- The fence falls once nothing is pending and the node has caught up. -/
def ForgeActivation.resolveFence (act : ForgeActivation) (caughtUp : Bool) : ForgeActivation :=
  if act.pendingForkSwitch.isNone && act.pendingMissingBridge.isNone && caughtUp then
    { act with pendingReselection := false }
  else act

/-- What the peers deliver to a round, and whether the node has caught up with them. -/
structure RoundInput where
  items : List NodeSyncItem
  accumulator : AccumulatorStore
  branchBodies : BranchBodySource
  rangeBodies : Nat → List Bytes
  caughtUp : Bool

def loopRound (loop : LoopState env) (input : RoundInput) :
    Except (NodeSyncError env) (LoopState env) := do
  let drained ← runParticipantSync shell loop.state loop.act input.items
  let switched ← consumeForkSwitch shell ⟨drained.state, drained.act⟩ input.accumulator
    input.branchBodies
  let fetched := consumeRangeRefetch shell switched input.rangeBodies
  return { fetched with act := fetched.act.resolveFence input.caughtUp }

def loopRounds (loop : LoopState env) (inputs : List RoundInput) :
    Except (NodeSyncError env) (LoopState env) :=
  inputs.foldlM (loopRound shell) loop

end Ade.Participant
