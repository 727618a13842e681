import Ade.Participant.Receive

/-! Proving a branch that has won the fork choice, and switching to it. -/

namespace Ade.Participant
open Library ChainDb Codec.Shelley Consensus Receive Rollback ForwardSync Wal BlockValidity

structure ForkAnchor where
  slot : SlotNo
  hash : Hash32
  blockNo : BlockNo
deriving DecidableEq, Repr

def ForkAnchor.point (anchor : ForkAnchor) : Point := ⟨anchor.slot, anchor.hash⟩

/-- A candidate fragment with all that its headers say. -/
structure CandidateBranch where
  anchor : Point
  anchorBlockNo : BlockNo
  headers : List HeaderSummary
  selectView : TiebreakerView
  rollbackDepth : UInt64

/-- What the fork choice reads of it. -/
def CandidateBranch.fragment (branch : CandidateBranch) : CandidateFragment :=
  ⟨branch.anchor, branch.anchorBlockNo, branch.headers.map HeaderSummary.toValidatedHeaderSummary,
    branch.selectView, branch.rollbackDepth⟩

structure PendingForkSwitch where
  forkAnchor : ForkAnchor
  winningPeer : String
  winningCandidate : CandidateBranch
  winnerTip : Point

/-- The bodies that a peer serves, by their slots. -/
abbrev BranchBodySource := String → SlotNo → Option Bytes

inductive BranchProofError where
  | emptyBranch
  | bodyUnavailable (slot : SlotNo)
  | bodyHeaderMismatch (index : Nat)
  | brokenParentLink (index : Nat)
  | bodyInvalid (index : Nat)
  | anchorUnreachable
deriving DecidableEq, Repr

structure ProvenBlock where
  bytes : Bytes
  tip : Point
deriving DecidableEq, Repr

structure ProvenBranch where
  blocks : List ProvenBlock

variable {env : Environment}

/-! ## The proof -/

def leaderOutputMatches (verifiers : Verifiers) (vrf : HeaderVrf) (expected : VrfOutput) : Bool :=
  match vrf with
  | .praos _ output => praosLeaderValue verifiers output = expected
  | .tpraos _ _ => false

variable (env) in
def headerMatchesSummary (decoded : BlockValidity.DecodedBlock) (s : HeaderSummary) : Bool :=
  let h := decoded.headerInput
  h.slot = s.slot ∧ h.blockNo = s.blockNo ∧ h.bodyHash = s.bodyHash ∧ h.issuerPool = s.issuerPool ∧
    h.opCertCounter = s.opCertCounter ∧ decoded.computedBodyHash = s.bodyHash ∧
    leaderOutputMatches env.verifiers h.vrf s.vrfLeaderOutput

variable (env) in
/-- Every body is that of its header and names the one before it. -/
def bindBranch : (index : Nat) → (expectedPrev : Hash32) → List (HeaderSummary × Bytes) →
    Except BranchProofError Unit
  | _, _, [] => .ok ()
  | index, expectedPrev, (header, body) :: rest =>
      match decodeBlock env body with
      | .error _ => .error (.bodyHeaderMismatch index)
      | .ok decoded =>
          if ¬ headerMatchesSummary env decoded header then .error (.bodyHeaderMismatch index)
          else if decoded.prevHash ≠ .block expectedPrev then .error (.brokenParentLink index)
          else bindBranch (index + 1) decoded.blockHash rest

def validateBranch : (index : Nat) → env.Ledger → PraosChainDepState → List Bytes →
    Except BranchProofError (List ProvenBlock)
  | _, _, _, [] => .ok []
  | index, ledger, chainDep, body :: bodies =>
      let outcome := blockValidity (authorities env) ledger chainDep body
      match outcome.verdict with
      | .valid tip _ _ => do
          let blocks ← validateBranch (index + 1) outcome.ledger outcome.chainDep bodies
          return ⟨body, tip⟩ :: blocks
      | .invalid _ _ => .error (.bodyInvalid index)

/-- The index into the headers is never out of range. -/
def prevalidateBranch (forkAnchor : ForkAnchor) (winningCandidate : CandidateBranch)
    (bodies : List Bytes) (anchorLedger : env.Ledger) (anchorChainDep : PraosChainDepState) :
    Except BranchProofError ProvenBranch := do
  let headers := winningCandidate.headers
  if headers.isEmpty then throw .emptyBranch
  if bodies.length ≠ headers.length then
    let last := headers[min bodies.length (headers.length - 1)]?
    throw (.bodyUnavailable ((last.map fun header => header.slot).getD 0))
  bindBranch env 0 forkAnchor.hash (headers.zip bodies)
  return ⟨← validateBranch 0 anchorLedger anchorChainDep bodies⟩

def fetchBodies (bodySource : BranchBodySource) (peer : String) (headers : List HeaderSummary) :
    Except BranchProofError (List Bytes) :=
  headers.mapM fun header =>
    match bodySource peer header.slot with
    | some body => .ok body
    | none => .error (.bodyUnavailable header.slot)

variable (shell : Shell env)

def proveForkSwitch (state : State env) (switch : PendingForkSwitch)
    (bodySource : BranchBodySource) : Except BranchProofError ProvenBranch := do
  let bodies ← fetchBodies bodySource switch.winningPeer switch.winningCandidate.headers
  match materializeRolledBackState shell.rules state.chaindb state.recoveredEta0
      switch.forkAnchor.slot with
  | .error _ => throw .anchorUnreachable
  | .ok (anchorLedger, anchorChainDep) =>
      prevalidateBranch switch.forkAnchor switch.winningCandidate bodies anchorLedger anchorChainDep

/-! ## The switch -/

inductive ForkSwitchOutcome where
  | adopted (newTip : Point) (newTipPrev : Hash32)
  | proofFailed (error : BranchProofError)
deriving DecidableEq, Repr

def newTipPrev (forkAnchor : ForkAnchor) (blocks : List ProvenBlock) : Hash32 :=
  match blocks.dropLast.getLast? with
  | some prior => prior.tip.hash
  | none => forkAnchor.hash

def adoptBlock (state : State env) (block : ProvenBlock) : Except (NodeSyncError env) (State env) := do
  let (_, applied) ← (applyChainEvent shell state (.chainSelected block.tip) .forkChoiceWin
    (some block.bytes)).mapError .apply
  return applied

def applyForkSwitch (accumulator : AccumulatorStore) (state : State env)
    (switch : PendingForkSwitch) (bodySource : BranchBodySource) :
    Except (NodeSyncError env) (ForkSwitchOutcome × State env) :=
  match proveForkSwitch shell state switch bodySource with
  | .error error => .ok (.proofFailed error, state)
  | .ok proven =>
      match proven.blocks.getLast? with
      | none => .ok (.proofFailed .emptyBranch, state)
      | some last => do
          askAccumulator (accumulator.admitAndClear switch.forkAnchor.point)
          let (_, rolledBack) ← (applyChainEvent shell state (.rolledBack switch.forkAnchor.point)
            .forkChoiceWin none).mapError .apply
          let adopted ← proven.blocks.foldlM (adoptBlock shell) rolledBack
          return (.adopted last.tip (newTipPrev switch.forkAnchor proven.blocks), adopted)

/-! ## A range that is fetched again -/

inductive RangeRefetchOutcome where
  | admitted
  | unavailable
  | parentLinkMismatch
  | validationFailed
  | shortRange
deriving DecidableEq, Repr

def recoverBodies (toDescendant : Hash32) :
    (reached : Bool) → State env → List Bytes → RangeRefetchOutcome × State env
  | reached, state, [] => (if reached then .admitted else .shortRange, state)
  | reached, state, bytes :: bodies =>
      match pumpBlock shell state bytes with
      | (.ok (some tip), pumped) =>
          recoverBodies toDescendant (reached || tip.hash = toDescendant) pumped bodies
      | (.ok none, pumped) =>
          let present :=
            match pumped.chaindb.getBlockByHash toDescendant with
            | .ok stored => stored.isSome
            | .error _ => false
          recoverBodies toDescendant (reached || present) pumped bodies
      | (.error (.receive _), pumped) => (.parentLinkMismatch, pumped)
      | (.error _, pumped) => (.validationFailed, pumped)

def recoverMissingRange (state : State env) (toDescendant : Hash32) (bodies : List Bytes) :
    RangeRefetchOutcome × State env :=
  if bodies.isEmpty then (.unavailable, state) else recoverBodies shell toDescendant false state bodies

/-! ## The loop -/

/-- What the loop does in a turn. The outcome of the fork choice is any switch at all. -/
inductive Turn where
  | block (blockBytes : Bytes)
  | rollBack (accumulator : AccumulatorStore) (point : Network.Point)
  | forkSwitch (accumulator : AccumulatorStore) (switch : PendingForkSwitch)
      (bodySource : BranchBodySource)
  | refetch (toDescendant : Hash32) (bodies : List Bytes)

def turn (state : State env) : Turn → Except (NodeSyncError env) (State env)
  | .block blockBytes => receiveBlock shell state blockBytes
  | .rollBack accumulator point => resolveAndApplyPeerRollback shell accumulator state point
  | .forkSwitch accumulator switch bodySource =>
      (applyForkSwitch shell accumulator state switch bodySource).map Prod.snd
  | .refetch toDescendant bodies => .ok (recoverMissingRange shell state toDescendant bodies).2

def turns (state : State env) (items : List Turn) : Except (NodeSyncError env) (State env) :=
  items.foldlM (turn shell) state

end Ade.Participant
