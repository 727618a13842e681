import Ade.Types
import Ade.Library.Machine

/-! Selecting the best chain by block number and tiebreaker. -/

namespace Ade.Consensus
open Std Library

structure TiebreakerView where
  slot : SlotNo
  issuerHash : Hash28
  opCertCounter : UInt64
  leaderVrfOutputFirst8 : Vector UInt8 8
deriving DecidableEq, Repr

/-- `.lt` means that `a` is preferred. A higher counter wins, so its comparison is the other way. -/
def tiebreakerPrefer (a b : TiebreakerView) : Ordering :=
  match compare a.slot b.slot with
  | .eq =>
      match compare a.issuerHash b.issuerHash with
      | .eq =>
          match compare b.opCertCounter a.opCertCounter with
          | .eq => compare a.leaderVrfOutputFirst8 b.leaderVrfOutputFirst8
          | nonEq => nonEq
      | nonEq => nonEq
  | nonEq => nonEq

def compareSelectView (lhsBlockNo : BlockNo) (lhsTb : TiebreakerView) (rhsBlockNo : BlockNo)
    (rhsTb : TiebreakerView) : Ordering :=
  match compare rhsBlockNo lhsBlockNo with
  | .eq => tiebreakerPrefer lhsTb rhsTb
  | nonEq => nonEq

structure ValidatedHeaderSummary where
  slot : SlotNo
  bodyHash : Hash32
deriving DecidableEq, Repr

structure CandidateFragment where
  anchor : Point
  anchorBlockNo : BlockNo
  headers : List ValidatedHeaderSummary
  selectView : TiebreakerView
  rollbackDepth : UInt64
deriving DecidableEq, Repr

structure ChainSelectorState where
  currentTip : Point
  currentTipBlockNo : BlockNo
  currentTiebreaker : TiebreakerView
  immutableTip : Point
  immutableTipBlockNo : BlockNo
  securityParam : UInt64
deriving DecidableEq, Repr

inductive ChainSelectionReject where
  | forkBeforeImmutableTip (immutableTip candidateIntersection : Point)
      (rollbackDepth securityParam : UInt64)
  | exceededRollback (requested max : UInt64)
  | tiebreakerLossKeepCurrent (currentTip candidateTip : Point)
deriving DecidableEq, Repr

inductive ChainEvent where
  | chainSelected (newTip : Point) (replacedTip : Option Point)
  | rejected (reason : ChainSelectionReject)
deriving DecidableEq, Repr

inductive ForkChoiceError where
  | noCandidates
deriving DecidableEq, Repr

structure EligibleCandidate where
  tipBlockNo : BlockNo
  tipTiebreaker : TiebreakerView
  tipPoint : Point
deriving DecidableEq, Repr

def candidateTipBlockNo (c : CandidateFragment) : BlockNo :=
  saturatingAdd c.anchorBlockNo (UInt64.ofNat c.headers.length)

def candidateTipPoint (c : CandidateFragment) : Point :=
  match c.headers.getLast? with
  | some last => ⟨last.slot, last.bodyHash⟩
  | none => c.anchor

/-- One round of the partition loop. -/
def partitionCandidate (state : ChainSelectorState) (c : CandidateFragment) :
    Except (BlockNo × ChainSelectionReject) EligibleCandidate :=
  if c.anchor.slot < state.immutableTip.slot then
    .error (candidateTipBlockNo c, .forkBeforeImmutableTip state.immutableTip c.anchor
      c.rollbackDepth state.securityParam)
  else if c.rollbackDepth > state.securityParam then
    .error (candidateTipBlockNo c, .exceededRollback c.rollbackDepth state.securityParam)
  else .ok ⟨candidateTipBlockNo c, c.selectView, candidateTipPoint c⟩

def eligibleCandidates (state : ChainSelectorState) (candidates : List CandidateFragment) :
    List EligibleCandidate :=
  candidates.filterMap fun c => (partitionCandidate state c).toOption

def ineligibleCandidates (state : ChainSelectorState) (candidates : List CandidateFragment) :
    List (BlockNo × ChainSelectionReject) :=
  candidates.filterMap fun c =>
    match partitionCandidate state c with
    | .error reject => some reject
    | .ok _ => none

def higherBlockNo (best entry : BlockNo × ChainSelectionReject) : BlockNo × ChainSelectionReject :=
  if entry.1 > best.1 then entry else best

def betterCandidate (best cand : EligibleCandidate) : EligibleCandidate :=
  if compareSelectView cand.tipBlockNo cand.tipTiebreaker best.tipBlockNo best.tipTiebreaker = .lt then
    cand
  else best

def adopt (state : ChainSelectorState) (best : EligibleCandidate) :
    ChainSelectorState × ChainEvent :=
  if compareSelectView best.tipBlockNo best.tipTiebreaker state.currentTipBlockNo
      state.currentTiebreaker = .lt then
    ({ state with
        currentTip := best.tipPoint
        currentTipBlockNo := best.tipBlockNo
        currentTiebreaker := best.tipTiebreaker },
      .chainSelected best.tipPoint (some state.currentTip))
  else (state, .rejected (.tiebreakerLossKeepCurrent state.currentTip best.tipPoint))

def selectBestChain (state : ChainSelectorState) (candidates : List CandidateFragment) :
    Except ForkChoiceError (ChainSelectorState × ChainEvent) :=
  if candidates.isEmpty then .error .noCandidates
  else
    match eligibleCandidates state candidates, ineligibleCandidates state candidates with
    | first :: rest, _ => .ok (adopt state (rest.foldl betterCandidate first))
    | [], first :: rest => .ok (state, .rejected (rest.foldl higherBlockNo first).2)
    -- Every candidate is in one of the lists, so this is the empty case again.
    | [], [] => .error .noCandidates

/-- The selector's state once the call has returned; an error leaves it alone. -/
def stateAfter (state : ChainSelectorState) (candidates : List CandidateFragment) :
    ChainSelectorState :=
  match selectBestChain state candidates with
  | .ok (next, _) => next
  | .error _ => state

end Ade.Consensus
