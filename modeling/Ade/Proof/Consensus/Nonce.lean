import Ade.Consensus.Nonce
import Ade.Library.Except
import Ade.Library.Run
import Ade.Proof.Consensus.OpCert

/-! The epoch nonce comes from the last header before the freeze, whole epochs later. -/

namespace Ade.Proof.Consensus
open Library Ade.Consensus

variable (verifiers : Verifiers)

/-! ## One epoch -/

/-- The headers of an epoch and the tick into the next one. -/
structure EpochInputs where
  headers : List HeaderContribution
  freezeBoundary : SlotNo
  newEpoch : EpochNo

namespace EpochInputs

def contributions (epoch : EpochInputs) : List NonceInput :=
  epoch.headers.map fun header => .headerContribution header epoch.freezeBoundary

def inputs (epoch : EpochInputs) : List NonceInput :=
  epoch.contributions ++ [.epochBoundary epoch.newEpoch]

end EpochInputs

/-- The nonce values of headers, folded into a nonce. -/
def evolve (nonce : Nonce) (headers : List HeaderContribution) : Nonce :=
  headers.foldl (fun nonce header => combine verifiers nonce (nonceValue header.vrfNonceOutput)) nonce

/-- The previous hash of the last header. -/
def lastHash (labNonce : Nonce) (headers : List HeaderContribution) : Nonce :=
  (headers.getLast?.map HeaderContribution.prevBlockHash).getD labNonce

/-- The headers up to the last one before the boundary. -/
def unfrozen (headers : List HeaderContribution) (freezeBoundary : SlotNo) : List HeaderContribution :=
  headers.rdropWhile fun header => !decide (header.slot < freezeBoundary)

/-- The evolving nonce after the last header before the boundary, if there is one. -/
def frozenCandidate (start : PraosChainDepState) (headers : List HeaderContribution)
    (freezeBoundary : SlotNo) : Nonce :=
  match unfrozen headers freezeBoundary with
  | [] => start.candidateNonce
  | tracked => evolve verifiers start.evolvingNonce tracked

/-- What the headers of an epoch and its tick make of the state. -/
structure NonceLaw (start : PraosChainDepState) (epoch : EpochInputs) (final : PraosChainDepState) :
    Prop where
  epochNonce : ∃ lastEpochBlockNonce, start.lastEpochBlockNonce = some lastEpochBlockNonce ∧
    final.epochNonce = combine verifiers
      (frozenCandidate verifiers start epoch.headers epoch.freezeBoundary) lastEpochBlockNonce
  candidateNonce : final.candidateNonce =
    frozenCandidate verifiers start epoch.headers epoch.freezeBoundary
  previousEpochNonce : final.previousEpochNonce = start.epochNonce
  lastEpochBlockNonce : final.lastEpochBlockNonce =
    some (lastHash start.labNonce epoch.headers)
  evolvingNonce : final.evolvingNonce = evolve verifiers start.evolvingNonce epoch.headers
  opCertCounters : final.opCertCounters = start.opCertCounters
  lastBlockNo : final.lastBlockNo = start.lastBlockNo


/-! ## Headers -/

variable {verifiers} {start state next last final : PraosChainDepState}
  {headers : List HeaderContribution} {header : HeaderContribution} {freezeBoundary : SlotNo}

theorem evolve_concat (nonce : Nonce) :
    evolve verifiers nonce (headers ++ [header]) =
      combine verifiers (evolve verifiers nonce headers) (nonceValue header.vrfNonceOutput) := by
  simp [evolve]

theorem lastHash_concat (labNonce : Nonce) :
    lastHash labNonce (headers ++ [header]) = header.prevBlockHash := by
  simp [lastHash]

theorem frozenCandidate_concat :
    frozenCandidate verifiers start (headers ++ [header]) freezeBoundary =
      if header.slot < freezeBoundary then
        evolve verifiers start.evolvingNonce (headers ++ [header])
      else frozenCandidate verifiers start headers freezeBoundary := by
  unfold frozenCandidate unfrozen
  rw [List.rdropWhile_concat]
  by_cases early : header.slot < freezeBoundary
  · simp only [early, decide_true, Bool.not_true, Bool.false_eq_true, if_false, if_true]
    cases split : headers ++ [header] with
    | nil => simp at split
    | cons first rest => rfl
  · simp only [early, decide_false, Bool.not_false, if_true, if_false]

/-- The state after the headers of an epoch. -/
structure Contributed (verifiers : Verifiers) (start : PraosChainDepState) (headers : List HeaderContribution)
    (freezeBoundary : SlotNo) (state : PraosChainDepState) : Prop where
  evolvingNonce : state.evolvingNonce = evolve verifiers start.evolvingNonce headers
  candidateNonce : state.candidateNonce = frozenCandidate verifiers start headers freezeBoundary
  labNonce : state.labNonce = lastHash start.labNonce headers
  epochNonce : state.epochNonce = start.epochNonce
  lastEpochBlockNonce : state.lastEpochBlockNonce = start.lastEpochBlockNonce
  opCertCounters : state.opCertCounters = start.opCertCounters
  lastBlockNo : state.lastBlockNo = start.lastBlockNo

theorem contributed_concat (contributed : Contributed verifiers start headers freezeBoundary state)
    (applied : applyNonceInput verifiers state (.headerContribution header freezeBoundary) = .ok next) :
    Contributed verifiers start (headers ++ [header]) freezeBoundary next := by
  obtain ⟨_, -, done⟩ := bind_ok applied
  cases done
  have evolving : combine verifiers state.evolvingNonce (nonceValue header.vrfNonceOutput) =
      evolve verifiers start.evolvingNonce (headers ++ [header]) := by
    rw [evolve_concat, contributed.evolvingNonce]
  exact
    { evolvingNonce := evolving
      candidateNonce := by
        rw [frozenCandidate_concat, ← evolving, ← contributed.candidateNonce]
      labNonce := (lastHash_concat _).symm
      epochNonce := contributed.epochNonce
      lastEpochBlockNonce := contributed.lastEpochBlockNonce
      opCertCounters := contributed.opCertCounters
      lastBlockNo := contributed.lastBlockNo }

theorem contributed_of_headers {epoch : EpochInputs}
    (accepted : epoch.contributions.foldlM (applyNonceInput verifiers) start = .ok state) :
    Contributed verifiers start epoch.headers epoch.freezeBoundary state := by
  obtain ⟨headers, freezeBoundary, newEpoch⟩ := epoch
  dsimp only [EpochInputs.contributions] at accepted ⊢
  -- From the last header backwards, as the candidate is the last unfrozen one.
  induction headers using List.reverseRecOn generalizing state with
  | nil =>
      cases accepted
      exact ⟨rfl, rfl, rfl, rfl, rfl, rfl, rfl⟩
  | append_singleton headers header ih =>
      rw [List.map_append, List.foldlM_append] at accepted
      obtain ⟨middle, earlier, accepted⟩ := bind_ok accepted
      rw [List.map_singleton, List.foldlM_cons] at accepted
      obtain ⟨next, applied, done⟩ := bind_ok accepted
      cases done
      exact contributed_concat (ih earlier) applied

/-! ## The tick -/

theorem nonceLaw_of_tick {epoch : EpochInputs}
    (contributed : Contributed verifiers start epoch.headers epoch.freezeBoundary state)
    (ticked : applyNonceInput verifiers state (.epochBoundary epoch.newEpoch) = .ok final) :
    NonceLaw verifiers start epoch final := by
  unfold applyNonceInput applyEpochBoundary at ticked
  dsimp only at ticked
  split_ifs at ticked
  cases operand : state.lastEpochBlockNonce with
  | none =>
      rw [operand] at ticked
      cases ticked
  | some lastEpochBlockNonce =>
      rw [operand] at ticked
      cases ticked
      exact
        { epochNonce := ⟨lastEpochBlockNonce, contributed.lastEpochBlockNonce.symm.trans operand,
            congrArg (combine verifiers · lastEpochBlockNonce) contributed.candidateNonce⟩
          candidateNonce := contributed.candidateNonce
          previousEpochNonce := contributed.epochNonce
          lastEpochBlockNonce := congrArg some contributed.labNonce
          evolvingNonce := contributed.evolvingNonce
          opCertCounters := contributed.opCertCounters
          lastBlockNo := contributed.lastBlockNo }

/-- With an operand, the tick refuses two zero nonces and nothing else. -/
theorem tick_of_operand {newEpoch : EpochNo} {lastEpochBlockNonce : Nonce}
    (operand : state.lastEpochBlockNonce = some lastEpochBlockNonce) :
    if state.epochNonce = Nonce.zero ∧ state.candidateNonce = Nonce.zero then
      applyNonceInput verifiers state (.epochBoundary newEpoch) = .error .uninitialisedEpochNonce
    else ∃ final, applyNonceInput verifiers state (.epochBoundary newEpoch) = .ok final := by
  unfold applyNonceInput applyEpochBoundary
  dsimp only
  rw [operand]
  split_ifs with uninitialised
  · rfl
  · exact ⟨_, rfl⟩

/-! ## Whole runs -/

/-- The inputs of an epoch are accepted one after another. -/
def PassesEpoch (verifiers : Verifiers) (start : PraosChainDepState) (epoch : EpochInputs)
    (final : PraosChainDepState) : Prop :=
  epoch.inputs.foldlM (applyNonceInput verifiers) start = .ok final

theorem nonceLaw_of_passes {epoch : EpochInputs} (passes : PassesEpoch verifiers start epoch final) :
    NonceLaw verifiers start epoch final := by
  unfold PassesEpoch EpochInputs.inputs at passes
  rw [List.foldlM_append] at passes
  obtain ⟨middle, accepted, ticked⟩ := bind_ok passes
  rw [List.foldlM_cons] at ticked
  obtain ⟨next, ticked, done⟩ := bind_ok ticked
  cases done
  exact nonceLaw_of_tick (contributed_of_headers accepted) ticked

section Samples

/-- Before the first epoch nonce, with a candidate. -/
def unnamedEpoch : PraosChainDepState :=
  { PraosChainDepState.genesis Nonce.zero with
    candidateNonce := Vector.replicate 32 1
    lastEpochBlockNonce := some Nonce.zero }

def firstEpoch : EpochInputs where
  headers := [⟨5, Vector.replicate 32 7, Vector.replicate 64 0⟩]
  freezeBoundary := 10
  newEpoch := 1

def afterFirstHeader : PraosChainDepState :=
  { unnamedEpoch with
    evolvingNonce := Nonce.zero
    candidateNonce := Nonce.zero
    labNonce := Vector.replicate 32 7
    lastSlot := some 5 }

theorem firstEpoch_contributed :
    firstEpoch.contributions.foldlM (applyNonceInput sampleVerifiers) unnamedEpoch =
      .ok afterFirstHeader := by
  decide

def emptyEpoch : EpochInputs := ⟨[], 10, 1⟩

def afterEmptyEpoch : PraosChainDepState :=
  { unnamedEpoch with lastEpochBlockNonce := some Nonce.zero, lastEpochBlock := some 0 }

theorem emptyEpoch_passes : PassesEpoch sampleVerifiers unnamedEpoch emptyEpoch afterEmptyEpoch := by
  unfold PassesEpoch
  decide

end Samples

end Ade.Proof.Consensus
