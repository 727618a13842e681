import Ade.Ledger.GovernanceRun
import Ade.Ledger.SelectedBlock
import Ade.Library.Upsert

/-! The proposals and votes that the transactions of a block carry, read without applying them, and
what the governance state keeps of them. -/

namespace Ade.Ledger
open Std Library Codec

/-! ## Who votes -/

/-- The five kinds of voters share three lists. -/
inductive Seat where
  | committee (credential : StakeCredential)
  | drep (credential : StakeCredential)
  | spo (pool : Hash28)
deriving DecidableEq

def Voter.seat (voter : Voter) : Option Seat :=
  if voter.voterType = 0 then some (.committee (.keyHash voter.hash))
  else if voter.voterType = 1 then some (.committee (.scriptHash voter.hash))
  else if voter.voterType = 2 then some (.drep (.keyHash voter.hash))
  else if voter.voterType = 3 then some (.drep (.scriptHash voter.hash))
  else if voter.voterType = 4 then some (.spo voter.hash)
  else none

namespace GovActionState

variable (p : GovActionState)

def recordedVote : Seat → Option Vote
  | .committee credential => p.committeeVotes.lookup credential
  | .drep credential => p.drepVotes.lookup credential
  | .spo pool => p.spoVotes.lookup pool

/-- No voter is listed twice. -/
structure OneVotePerVoter : Prop where
  committee : (p.committeeVotes.map Prod.fst).Nodup
  drep : (p.drepVotes.map Prod.fst).Nodup
  spo : (p.spoVotes.map Prod.fst).Nodup

end GovActionState

/-! ## What a transaction carries -/

structure Ballot where
  voter : Voter
  target : GovActionId
  vote : Vote

def collectVote (data : Bytes) (voter : Voter) (ballots : List Ballot) : VoteRead (List Ballot) := do
  let target ← readGovActionId data
  let vote ← readVotingProcedure data
  return ballots ++ [⟨voter, target, vote⟩]

def collectVoter (data : Bytes) (ballots : List Ballot) : VoteRead (List Ballot) := do
  let voter ← readVoter data
  let encoding ← orFail (readMapHeader data)
  let ballots ← foldContainer data () (collectVote data voter) ballots encoding
  consumeBreak encoding
  return ballots

def readBallots (data : Bytes) : VoteRead (List Ballot) := do
  orFail (skipOptionalTag data)
  let encoding ← orFail (readMapHeader data)
  let ballots ← foldContainer data () (collectVoter data) [] encoding
  consumeBreak encoding
  if (← get) ≠ data.length then throw ()
  return ballots

def ballotsOf (txIndex : UInt64) : Option Bytes → Transition (List Ballot)
  | none => .ok []
  | some value => ((readBallots value).runAt 0).1.mapError fun _ => .malformedGovernanceField txIndex

/-- The governance part of a transaction in a block of the epoch. -/
structure GovTx where
  id : Hash32
  epoch : EpochNo
  procedures : List ProposalProcedure
  ballots : List Ballot

section
variable (env : AccumulatorEnv)

def proceduresOf (txIndex : UInt64) : Option Bytes → Transition (List ProposalProcedure)
  | none => .ok []
  | some value =>
      (env.decodeProposalProcedures value).mapError fun _ => .malformedGovernanceField txIndex

/-- Nothing of a phase-2-invalid transaction counts. -/
def collectGovTx (data : Bytes) (invalid : BTreeSet UInt64) (currentEpoch : EpochNo)
    (txIndex : UInt64) (txs : List GovTx) : TransitionRead (List GovTx) := do
  let bodyStart ← get
  let fields ← readGovFields data
  let bodyBytes := slice data (bodyStart, ← get)
  if invalid.contains txIndex then return txs
  else
    let procedures ← liftExcept (proceduresOf env txIndex (fields.proposals.map (slice data)))
    let ballots ← liftExcept (ballotsOf txIndex (fields.votes.map (slice data)))
    return txs ++ [⟨env.transactionId bodyBytes, currentEpoch, procedures, ballots⟩]

/-- A block, as governance sees it. -/
structure GovBlock where
  txBodies : Bytes
  txCount : UInt64
  invalid : BTreeSet UInt64
  currentEpoch : EpochNo

namespace GovBlock

variable (block : GovBlock)

def validTxs : List GovTx :=
  if block.txCount = 0 then []
  else match ((forEachBody block.txBodies
      (collectGovTx env block.txBodies block.invalid block.currentEpoch) []).runAt 0).1 with
    | .ok counted => counted.2
    | .error _ => []

def apply (gov : ConwayGovState) : Transition ConwayGovState :=
  applyBlockGovernance env gov block.txBodies block.txCount block.invalid block.currentEpoch

end GovBlock

end

/-! ## What is kept -/

/-- A tracked proposal without votes. -/
def GovTx.submission (tx : GovTx) (govActionLifetime : UInt64) (entry : ProposalProcedure × Nat) :
    GovActionState where
  actionId := ⟨tx.id, UInt32.ofNat entry.2⟩
  committeeVotes := []
  drepVotes := []
  spoVotes := []
  deposit := entry.1.deposit
  returnAddr := entry.1.returnAddr
  govAction := entry.1.govAction
  proposedIn := tx.epoch
  expiresAfter := tx.epoch + govActionLifetime

/-- The last of the ballots that the voter casts for the proposal. -/
def latestVote (seat : Seat) (target : GovActionId) (ballots : List Ballot) : Option Vote :=
  (latest (fun ballot => ballot.voter.seat = some seat ∧ ballot.target = target) ballots).map
    Ballot.vote

/-- The proposal with the latest vote of every voter; nothing else of it changes. -/
structure Tallied (ballots : List Ballot) (before after : GovActionState) : Prop where
  rest : after = { before with
    committeeVotes := after.committeeVotes
    drepVotes := after.drepVotes
    spoVotes := after.spoVotes }
  recorded : ∀ seat, after.recordedVote seat =
    (latestVote seat before.actionId ballots).or (before.recordedVote seat)

/-- The only proposal with its id. -/
def TrackedOnce (proposals : List GovActionState) (p : GovActionState) : Prop :=
  proposals.filter (fun other => other.actionId = p.actionId) = [p]

/-- No two transactions share an id, nor has one the id of a transaction that submitted a proposal
tracked already. -/
structure DistinctTxIds (start : ConwayGovState) (txs : List GovTx) : Prop where
  among : (txs.map GovTx.id).Nodup
  earlier : ∀ p ∈ start.proposals, p.actionId.txHash ∉ txs.map GovTx.id

/-- From `start` on, the transactions lead to `last`. -/
structure KeepsLatestVotes (start : ConwayGovState) (txs : List GovTx) (last : ConwayGovState) :
    Prop where
  rest : last = { start with proposals := last.proposals }
  distinct : (proposalIds last.proposals).Nodup
  oneVote : ∀ p ∈ last.proposals, p.OneVotePerVoter
  tracked : ∀ p ∈ start.proposals, ∃ q, TrackedOnce last.proposals q ∧
    Tallied (txs.flatMap GovTx.ballots) p q
  submitted : ∀ earlier tx later, txs = earlier ++ tx :: later →
    ∀ position procedure, tx.procedures[position]? = some procedure →
      position < 2 ^ 32 ∧ tx.epoch.toNat + start.govActionLifetime.toNat < 2 ^ 64 ∧
      ∃ q, TrackedOnce last.proposals q ∧ Tallied ((tx :: later).flatMap GovTx.ballots)
        (tx.submission start.govActionLifetime (procedure, position)) q
  nothingElse : last.proposals.length =
    start.proposals.length + (txs.map fun tx => tx.procedures.length).sum

end Ade.Ledger
