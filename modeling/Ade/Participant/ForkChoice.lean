import Ade.Participant.ForkSwitch

/-! The fork choice of a participant among the branches of its peers, and the loop around it. -/

namespace Ade.Participant
open Library ChainDb Codec.Shelley Consensus Receive Rollback ForwardSync Wal BlockValidity

/-! ## The walk to the last common ancestor -/

structure CachedHeader where
  header : HeaderInput
  prevHash : PrevHash
  blockHash : Hash32

inductive LcaError where
  | noDurableAncestorWithinK
  | branchGap
  | exceededK
  | cacheSelfBindingViolation
deriving DecidableEq, Repr

structure LcaResult where
  anchorSlot : SlotNo
  anchorHash : Hash32
  headers : List HeaderInput

/-- Received headers by their hashes. -/
abbrev HeaderCache := BTreeMap Hash32 CachedHeader

/-- The rolled back blocks are asked only for what the cache misses. -/
def lookupHeader (cache retention : HeaderCache) (hash : Hash32) : Option CachedHeader :=
  cache[hash]?.or retention[hash]?

/-- The loop of the walk. The headers above the current one are those it has traversed. -/
def walkFrom (cache retention : HeaderCache) (chaindb : PersistentChainDb) :
    (remaining : Nat) → (curHash : Hash32) → (headers : List HeaderInput) → Except LcaError LcaResult
  | remaining, curHash, headers =>
      match lookupHeader cache retention curHash with
      | none => .error .branchGap
      | some entry =>
          if entry.blockHash ≠ curHash then .error .cacheSelfBindingViolation
          else
            match remaining with
            | 0 => .error .exceededK
            | remaining + 1 =>
                match entry.prevHash with
                | .genesis => .error .noDurableAncestorWithinK
                | .block prev =>
                    match chaindb.getBlockByHash prev with
                    | .ok (some stored) => .ok ⟨stored.slot, prev, entry.header :: headers⟩
                    | .ok none =>
                        walkFrom cache retention chaindb remaining prev (entry.header :: headers)
                    | .error _ => .error .branchGap

def walkToDurableLca (cache retention : HeaderCache) (startHash : Hash32)
    (chaindb : PersistentChainDb) (k : UInt64) : Except LcaError LcaResult :=
  walkFrom cache retention chaindb k.toNat startHash []

/-! ## The candidate of a peer -/

inductive CandidateBuildError where
  | headerInvalid (index : Nat) (error : HeaderValidationError)
  | emptyHeaders

def leaderPrefix (output : VrfOutput) : Vector UInt8 8 := output.extract 0 8

def HeaderSummary.selectView (tip : HeaderSummary) : TiebreakerView :=
  ⟨tip.slot, tip.issuerPool, tip.opCertCounter, leaderPrefix tip.vrfLeaderOutput⟩

section
variable (env : Environment)

def validateHeaders : (index : Nat) → PraosChainDepState → List HeaderInput →
    Except CandidateBuildError (List HeaderSummary)
  | _, _, [] => .ok []
  | index, chainDep, header :: headers =>
      match validateAndApplyHeader env.verifiers chainDep header env.ledgerView env.eraSchedule
          .enforce with
      | .error error => .error (.headerInvalid index error)
      | .ok applied => do
          let summaries ← validateHeaders (index + 1) applied.newState headers
          return applied.summary :: summaries

def buildCandidateFragment (anchor : Point) (anchorBlockNo currentTipBlockNo : BlockNo)
    (anchorChainDep : PraosChainDepState) (headers : List HeaderInput) :
    Except CandidateBuildError CandidateBranch :=
  if headers.isEmpty then .error .emptyHeaders
  else do
    let summaries ← validateHeaders env 0 anchorChainDep headers
    match summaries.getLast? with
    | none => throw .emptyHeaders
    | some tip =>
        return ⟨anchor, anchorBlockNo, summaries, HeaderSummary.selectView tip,
          saturatingSub currentTipBlockNo anchorBlockNo⟩

end

/-- An order to list the candidates in, not the preference between them. -/
def tiebreakerSortKey (a b : TiebreakerView) : Ordering :=
  (compare a.slot b.slot).then <| (compare a.issuerHash b.issuerHash).then <|
    (compare a.opCertCounter b.opCertCounter).then <|
      compare a.leaderVrfOutputFirst8 b.leaderVrfOutputFirst8

def candidateOrder (a b : CandidateFragment) : Ordering :=
  (compare (candidateTipBlockNo a) (candidateTipBlockNo b)).then
    (tiebreakerSortKey a.selectView b.selectView)

def assembleCandidateSet (fragments : List CandidateFragment) : List CandidateFragment :=
  fragments.mergeSort fun a b => (candidateOrder a b).isLE

inductive SelectorProjectError where
  | unsupportedTpraosTip
deriving DecidableEq, Repr

def projectTiebreaker (verifiers : Verifiers) (header : HeaderInput) :
    Except SelectorProjectError TiebreakerView :=
  match header.vrf with
  | .praos _ output =>
      .ok ⟨header.slot, header.issuerPool, header.opCertCounter,
        leaderPrefix (praosLeaderValue verifiers output)⟩
  | .tpraos _ _ => .error .unsupportedTpraosTip

/-! ## The decision -/

/-- The candidates of the peers, each with the point to fetch it up to. -/
abbrev CompetingSet := BTreeMap String (CandidateBranch × Point)

inductive ForkSwitchDecision where
  | keepCurrent
  | switch (switch : PendingForkSwitch)

def hasTip (newTip : Point) (candidate : CandidateBranch) : Bool :=
  match candidate.headers.getLast? with
  | some last => last.slot = newTip.slot ∧ last.bodyHash = newTip.hash
  | none => false

def pendingSwitch (peer : String) (candidate : CandidateBranch) (tip : Point) : PendingForkSwitch where
  forkAnchor := ⟨candidate.anchor.slot, candidate.anchor.hash, candidate.anchorBlockNo⟩
  winningPeer := peer
  winningCandidate := candidate
  winnerTip := tip

def candidateSet (competing : CompetingSet) : List CandidateFragment :=
  assembleCandidateSet (competing.toList.map fun entry => entry.2.1.fragment)

/-- The winner is looked up by the slot and the body hash of its tip. -/
def decideForkSwitch (selectorState : ChainSelectorState) (competing : CompetingSet) :
    Except ForkChoiceError ForkSwitchDecision := do
  let (_, event) ← selectBestChain selectorState (candidateSet competing)
  match event with
  | .chainSelected newTip _ =>
      match competing.toList.find? fun entry => hasTip newTip entry.2.1 with
      | some (peer, candidate, tip) => return .switch (pendingSwitch peer candidate tip)
      | none => return .keepCurrent
  | .rejected _ => return .keepCurrent

/-! ## What is pending -/

inductive MissingBridgeReason where
  | branchGap
  | noDurableAncestorWithinK
  | exceededK
  | cacheSelfBindingViolation
  | lcaUnreachable
deriving DecidableEq, Repr

def mapLcaError : LcaError → MissingBridgeReason
  | .branchGap => .branchGap
  | .noDurableAncestorWithinK => .noDurableAncestorWithinK
  | .exceededK => .exceededK
  | .cacheSelfBindingViolation => .cacheSelfBindingViolation

structure PostSwitchFollow where
  winningPeer : String
  adoptedTip : Point
  forkSwitchId : Bytes
deriving DecidableEq, Repr

structure RangeRefetch where
  peer : String
  fromTip : Point
  toDescendant : Point
  forkSwitchId : Bytes
  reason : MissingBridgeReason
deriving DecidableEq, Repr

/-- The source writes these eight bytes in hexadecimal digits. -/
def forkSwitchId (verifiers : Verifiers) (switch : PendingForkSwitch) : Bytes :=
  (verifiers.blake2b256 (switch.winningPeer.toUTF8.toList ++
    toBeBytes 8 switch.forkAnchor.slot.toNat ++ switch.forkAnchor.hash.toList ++
    toBeBytes 8 switch.winnerTip.slot.toNat ++ switch.winnerTip.hash.toList)).toList.take 8

end Ade.Participant
