import Ade.Ledger.Ratification
import Ade.Proof.Ledger.Delegation

namespace Ade.Proof.Ledger
open Std (ExtTreeMap)
open Library Ade.Ledger

/-! ## The registered accounts -/

def unregistered : ConwayCert → Option StakeCredential
  | .accountUnregistration credential | .accountUnregistrationDeposit credential _ =>
      some credential
  | _ => none

/-- The vote delegations that also register the account, or delegate its stake. -/
def compositeVoter : ConwayCert → Option StakeCredential
  | .stakeVoteDelegation credential _ _ | .voteRegistrationDelegation credential _ _
  | .stakeVoteRegistrationDelegation credential _ _ _ => some credential
  | _ => none

def voter : ConwayCert → Option (StakeCredential × DRep)
  | .voteDelegation credential drep | .stakeVoteDelegation credential _ drep
  | .voteRegistrationDelegation credential drep _
  | .stakeVoteRegistrationDelegation credential _ drep _ => some (credential, drep)
  | _ => none

section
variable {state next : CertState} {cred : StakeCredential}

theorem applyStakeRegistration_mem {deposit : Coin} {certIndex : UInt16}
    (applied : applyStakeRegistration state cred deposit certIndex = .ok next)
    (other : StakeCredential) :
    other ∈ next.delegation.registrations ↔ cred = other ∨ other ∈ state.delegation.registrations := by
  obtain ⟨-, rfl⟩ := applyStakeRegistration_ok applied
  exact BTreeMap.mem_insert

theorem applyStakeDelegation_registrations {poolId : PoolId} {certIndex : UInt16}
    (applied : applyStakeDelegation state cred poolId certIndex = .ok next) :
    next.delegation.registrations = state.delegation.registrations := by
  obtain ⟨-, -, rfl⟩ := applyStakeDelegation_ok applied
  rfl

theorem applyPoolRegistration_registrations {cert : PoolRegistrationCert}
    (applied : applyPoolRegistration state cert = .ok next) :
    next.delegation.registrations = state.delegation.registrations := by
  unfold applyPoolRegistration at applied
  dsimp only at applied
  split_ifs at applied
  · cases applied
    rfl
  · cases applied
    rfl

/-- An accepted certificate leaves an account registered unless it unregisters it, and a composite
vote delegation is of an account that is registered afterwards. -/
theorem applyConwayCert_registered {cert : ConwayCert} {env : ConwayCertEnv}
    {outcome : ConwayCertOutcome} (accepted : applyConwayCert state cert env = .ok outcome) :
    (∀ other ∈ state.delegation.registrations, unregistered cert ≠ some other →
      other ∈ outcome.state.delegation.registrations) ∧
    ∀ other, compositeVoter cert = some other →
      other ∈ outcome.state.delegation.registrations := by
  cases cert with
  | accountRegistration | accountRegistrationDeposit =>
      obtain ⟨registered, applied, returned⟩ := bind_ok accepted
      cases returned
      refine ⟨fun other member _ => ?_, fun other composite => by cases composite⟩
      exact (applyStakeRegistration_mem applied other).mpr (.inr member)
  | voteRegistrationDelegation =>
      obtain ⟨registered, applied, returned⟩ := bind_ok accepted
      cases returned
      refine ⟨fun other member _ => ?_, fun other composite => ?_⟩
      · exact (applyStakeRegistration_mem applied other).mpr (.inr member)
      · exact (applyStakeRegistration_mem applied other).mpr (.inl (Option.some.inj composite))
  | accountUnregistration | accountUnregistrationDeposit =>
      obtain ⟨removed, applied, returned⟩ := bind_ok accepted
      cases returned
      obtain ⟨-, rfl⟩ := applyStakeDeregistration_ok applied
      refine ⟨fun other member stays => ?_, fun other composite => by cases composite⟩
      exact BTreeMap.mem_erase.mpr ⟨fun same => stays (congrArg some same), member⟩
  | stakeDelegation =>
      obtain ⟨delegated, applied, returned⟩ := bind_ok accepted
      cases returned
      refine ⟨fun other member _ => ?_, fun other composite => by cases composite⟩
      exact applyStakeDelegation_registrations applied ▸ member
  | stakeVoteDelegation =>
      obtain ⟨delegated, applied, returned⟩ := bind_ok accepted
      cases returned
      have kept := applyStakeDelegation_registrations applied
      refine ⟨fun other member _ => kept ▸ member, fun other composite => ?_⟩
      obtain rfl := Option.some.inj composite
      exact kept ▸ (applyStakeDelegation_ok applied).1
  | poolRegistration =>
      obtain ⟨registered, applied, returned⟩ := bind_ok accepted
      cases returned
      refine ⟨fun other member _ => ?_, fun other composite => by cases composite⟩
      exact applyPoolRegistration_registrations applied ▸ member
  | poolRetirement =>
      obtain ⟨retired, applied, returned⟩ := bind_ok accepted
      cases returned
      obtain ⟨-, rfl⟩ := applyPoolRetirement_ok applied
      exact ⟨fun other member _ => member, fun other composite => by cases composite⟩
  | stakeRegistrationDelegation =>
      obtain ⟨registered, applied, rest⟩ := bind_ok accepted
      obtain ⟨delegated, delegating, returned⟩ := bind_ok rest
      cases returned
      have kept := applyStakeDelegation_registrations delegating
      refine ⟨fun other member _ => ?_, fun other composite => by cases composite⟩
      exact kept ▸ (applyStakeRegistration_mem applied other).mpr (.inr member)
  | stakeVoteRegistrationDelegation =>
      obtain ⟨registered, applied, rest⟩ := bind_ok accepted
      obtain ⟨delegated, delegating, returned⟩ := bind_ok rest
      cases returned
      have kept := applyStakeDelegation_registrations delegating
      refine ⟨fun other member _ => ?_, fun other composite => ?_⟩
      · exact kept ▸ (applyStakeRegistration_mem applied other).mpr (.inr member)
      · exact kept ▸ (applyStakeRegistration_mem applied other).mpr
          (.inl (Option.some.inj composite))
  | removedInConway tag => cases accepted
  | voteDelegation | authCommitteeHot | resignCommitteeCold | drepRegistration
  | drepUnregistration | drepUpdate =>
      cases accepted
      exact ⟨fun other member _ => member, fun other composite => by cases composite⟩

end

/-! ## The vote delegations -/

section
variable {gov next : ConwayGovState}

theorem delegateVote_ok {credential : StakeCredential} {drep : DRep} {certIndex : UInt16}
    (applied : delegateVote gov credential drep certIndex = .ok next) :
    (∀ target, drepCredential drep = some target → target ∈ gov.drepExpiry) ∧
      next = { gov with voteDelegations := gov.voteDelegations.insert credential drep } := by
  unfold delegateVote at applied
  split_ifs at applied with unregistered
  cases applied
  refine ⟨fun target named => ?_, rfl⟩
  rw [named] at unregistered
  simpa using unregistered

theorem renewDRep_ok {credential : StakeCredential} {env : Option GovCertEnv}
    (applied : renewDRep gov credential env = .ok next) :
    next.voteDelegations = gov.voteDelegations ∧
      ∀ target ∈ gov.drepExpiry, target ∈ next.drepExpiry := by
  unfold renewDRep at applied
  cases env with
  | none => cases applied
  | some env =>
      dsimp only at applied
      split at applied
      · cases applied
      · cases applied
        exact ⟨rfl, fun target member => BTreeMap.mem_insert.mpr (.inr member)⟩

/-- Where a vote delegation after a certificate comes from: it stood before and its account and
DRep stay, or the certificate makes it, to a DRep that is registered. -/
theorem applyConwayGovCert_votes {cert : ConwayCert} {env : Option GovCertEnv} {certIndex : UInt16}
    (applied : applyConwayGovCert gov cert env certIndex = .ok next) {credential : StakeCredential}
    {drep : DRep} (voted : next.voteDelegations[credential]? = some drep) :
    (gov.voteDelegations[credential]? = some drep ∧ unregistered cert ≠ some credential ∧
      ∀ target, drepCredential drep = some target → target ∈ gov.drepExpiry →
        target ∈ next.drepExpiry) ∨
    (voter cert = some (credential, drep) ∧
      ∀ target, drepCredential drep = some target → target ∈ next.drepExpiry) := by
  cases cert with
  | voteDelegation other chosen | stakeVoteDelegation other _ chosen
  | voteRegistrationDelegation other chosen | stakeVoteRegistrationDelegation other _ chosen =>
      obtain ⟨registered, rfl⟩ := delegateVote_ok applied
      rw [BTreeMap.getElem?_insert] at voted
      split_ifs at voted with same
      · cases voted
        exact .inr ⟨congrArg (fun other => some (other, drep)) same, registered⟩
      · exact .inl ⟨voted, by simp [unregistered], fun target named member => member⟩
  | drepRegistration | drepUpdate =>
      obtain ⟨votes, kept⟩ := renewDRep_ok applied
      rw [votes] at voted
      exact .inl ⟨voted, by simp [unregistered], fun target named member => kept target member⟩
  | drepUnregistration retired =>
      cases applied
      rw [ExtTreeMap.getElem?_filter', Option.filter_eq_some_iff] at voted
      refine .inl ⟨voted.1, by simp [unregistered], fun target named member => ?_⟩
      refine BTreeMap.mem_erase.mpr ⟨?_, member⟩
      rintro rfl
      simp [named] at voted
  | accountUnregistration removed | accountUnregistrationDeposit removed =>
      cases applied
      rw [BTreeMap.getElem?_erase] at voted
      split_ifs at voted with same
      exact .inl ⟨voted, fun unregisters => same (Option.some.inj unregisters),
        fun target named member => member⟩
  | accountRegistration | stakeDelegation | poolRegistration | poolRetirement
  | accountRegistrationDeposit | stakeRegistrationDelegation | removedInConway
  | authCommitteeHot | resignCommitteeCold =>
      cases applied
      exact .inl ⟨voted, by simp [unregistered], fun target named member => member⟩

end

theorem voter_cases {cert : ConwayCert} {credential : StakeCredential} {drep : DRep}
    (votes : voter cert = some (credential, drep)) :
    cert = .voteDelegation credential drep ∨ compositeVoter cert = some credential := by
  cases cert with
  | voteDelegation =>
      cases votes
      exact .inl rfl
  | stakeVoteDelegation | voteRegistrationDelegation | stakeVoteRegistrationDelegation =>
      cases votes
      exact .inr rfl
  | _ => cases votes

/-! ## Certificates, transactions and runs -/

section
variable {keyDeposit : Coin} {govEnv : Option GovCertEnv} {ledger next : CertLedger}

theorem accumulateConwayCert_anchored {indexed : ConwayCert × Nat}
    (accepted : accumulateConwayCert keyDeposit govEnv ledger indexed = .ok next)
    (registered : ∀ credential drep, indexed.1 = .voteDelegation credential drep →
      credential ∈ ledger.cert.delegation.registrations)
    (anchored : ledger.VotesAnchored) : next.VotesAnchored := by
  obtain ⟨cert, tracked⟩ := ledger
  obtain ⟨outcome, applied, rest⟩ := bind_ok accepted
  obtain ⟨kept, composite⟩ := applyConwayCert_registered applied
  cases tracked with
  | none =>
      cases rest
      intro gov present
      cases present
  | some gov =>
      obtain ⟨after, governed, returned⟩ := bind_ok rest
      cases returned
      rintro _ ⟨⟩ credential drep voted
      rcases applyConwayGovCert_votes governed voted with ⟨before, stays, targets⟩ | ⟨votes, targets⟩
      · obtain ⟨member, named⟩ := anchored gov rfl credential drep before
        exact ⟨kept credential member stays, fun target chosen =>
          targets target chosen (named target chosen)⟩
      · refine ⟨?_, targets⟩
        rcases voter_cases votes with plain | composed
        · apply kept credential (registered credential drep plain)
          rw [plain]
          simp [unregistered]
        · exact composite credential composed

theorem accumulateConwayCerts_anchored {indexed : List (ConwayCert × Nat)}
    (accepted : accumulateConwayCerts keyDeposit govEnv ledger indexed = .ok next)
    (registered : ∀ (earlier later : List (ConwayCert × Nat)) (credential : StakeCredential)
      (drep : DRep) (index : Nat) (reached : CertLedger),
      indexed = earlier ++ (.voteDelegation credential drep, index) :: later →
      accumulateConwayCerts keyDeposit govEnv ledger earlier = .ok reached →
        credential ∈ reached.cert.delegation.registrations)
    (anchored : ledger.VotesAnchored) : next.VotesAnchored := by
  induction indexed generalizing ledger with
  | nil =>
      cases accepted
      exact anchored
  | cons first indexed ih =>
      unfold accumulateConwayCerts at accepted
      rw [List.foldlM_cons] at accepted
      obtain ⟨middle, applied, rest⟩ := bind_ok accepted
      apply ih rest
      · intro earlier later credential drep index reached split ran
        apply registered (first :: earlier) later credential drep index reached
        · rw [split, List.cons_append]
        · unfold accumulateConwayCerts
          rw [List.foldlM_cons, applied]
          exact ran
      · apply accumulateConwayCert_anchored applied _ anchored
        intro credential drep plain
        apply registered [] indexed credential drep first.2 ledger
        · rw [← plain]
          rfl
        · rfl

end

section
variable {decoders : CertDecoders} {before after : CertLedger}

def RegisteredVoteStep (decoders : CertDecoders) (before : CertLedger) (action : VoteAction)
    (after : CertLedger) : Prop :=
  VoteStep decoders before action after ∧ VotersRegistered decoders before action

theorem voteStep_anchored {action : VoteAction}
    (step : RegisteredVoteStep decoders before action after) (anchored : before.VotesAnchored) :
    after.VotesAnchored := by
  obtain ⟨taken, registered⟩ := step
  cases taken with
  | transaction accepted =>
      obtain ⟨certs, decoded, ran⟩ := bind_ok accepted
      exact accumulateConwayCerts_anchored ran (registered certs (mapError_ok decoded)) anchored
  | reap enteredEpoch => exact anchored

theorem run_anchored {actions : List VoteAction}
    (run : Run (RegisteredVoteStep decoders) before actions after)
    (anchored : before.VotesAnchored) : after.VotesAnchored :=
  run.invariant (fun _ _ _ step held => voteStep_anchored step held) anchored

end

/-! ## Freezing -/

theorem depositsByReturnCredential_ne_dangling (proposals : List GovActionState)
    (credential : StakeCredential) (kind : DanglingVoteDelegationKind) :
    depositsByReturnCredential proposals ≠ .error (.danglingVoteDelegation credential kind) := by
  apply foldlM_ne_error
  intro deposits p member
  split <;> simp

theorem addVoter_ne_dangling {input : FrozenRatificationInput}
    (anchored : VotesAnchored input.delegation input.gov)
    {deposits : BTreeMap StakeCredential Coin} {distribution : BTreeMap DRep Coin}
    {voter : StakeCredential × DRep} (voted : input.gov.voteDelegations[voter.1]? = some voter.2)
    (credential : StakeCredential) (kind : DanglingVoteDelegationKind) :
    addVoter input deposits distribution voter ≠
      .error (.danglingVoteDelegation credential kind) := by
  obtain ⟨registered, named⟩ := anchored voter.1 voter.2 voted
  unfold addVoter
  rw [if_neg (by simpa using registered), if_neg]
  · simp
  · cases chosen : drepCredential voter.2 with
    | none => simp
    | some target => simpa using named target chosen

theorem deriveFrozenDRepDistribution_ne_dangling {input : FrozenRatificationInput}
    (anchored : VotesAnchored input.delegation input.gov) (credential : StakeCredential)
    (kind : DanglingVoteDelegationKind) :
    deriveFrozenDRepDistribution input ≠ .error (.danglingVoteDelegation credential kind) := by
  unfold deriveFrozenDRepDistribution
  cases derived : depositsByReturnCredential input.gov.proposals with
  | error failure =>
      intro failed
      cases failed
      exact depositsByReturnCredential_ne_dangling _ credential kind derived
  | ok deposits =>
      apply foldlM_ne_error
      intro distribution voter member
      exact addVoter_ne_dangling anchored (BTreeMap.mem_toList.mp member) credential kind

/-- In a run in which every plain vote delegation is of a registered account no vote delegation
dangles, and the distribution frozen over the state reached, with whatever balances, stake and
proposals, does not halt on one. -/
theorem voteDelegations_never_dangle {decoders : CertDecoders} {before after : CertLedger}
    {actions : List VoteAction} (initially : before.VotesAnchored)
    (run : Run (RegisteredVoteStep decoders) before actions after) :
    after.VotesAnchored ∧ ∀ input gov, after.gov = some gov →
      input.delegation.registrations = after.cert.delegation.registrations →
      input.gov.voteDelegations = gov.voteDelegations → input.gov.drepExpiry = gov.drepExpiry →
      ∀ credential kind,
        deriveFrozenDRepDistribution input ≠ .error (.danglingVoteDelegation credential kind) := by
  have anchored := run_anchored run initially
  refine ⟨anchored, fun input gov tracked registrations votes dreps credential kind => ?_⟩
  apply deriveFrozenDRepDistribution_ne_dangling
  intro voter drep voted
  rw [votes] at voted
  rw [registrations, dreps]
  exact anchored gov tracked voter drep voted

/-- `[[9, [0, 07..07], [2]]]`, one plain vote delegation. -/
def sampleVoteBytes : Bytes :=
  [0x81, 0x83, 0x09, 0x82, 0x00, 0x58, 0x1c] ++ List.replicate 28 7 ++ [0x81, 0x02]

def sampleVote : ConwayCert := .voteDelegation sampleCredential .alwaysAbstain

def sampleCertDecoders : CertDecoders where
  decodeConwayCerts bytes :=
    if bytes = sampleVoteBytes then .ok [sampleVote] else .error (.unexpectedEof bytes.length 1)
  decodeCertificates bytes := .error (.unexpectedEof bytes.length 1)

def emptyGov : ConwayGovState where
  proposals := []
  committee := ∅
  committeeQuorum := (2, 3)
  drepExpiry := ∅
  govActionLifetime := 6
  voteDelegations := ∅
  poolVotingThresholds := []
  drepVotingThresholds := []
  committeeHotKeys := ∅
  numDormant := .bound 0
  prevPparamAction := .noPreviousAction
  ratification := .unversioned

def votedGov : ConwayGovState := { emptyGov with
  voteDelegations := (∅ : BTreeMap StakeCredential DRep).insert sampleCredential .alwaysAbstain }

def sampleVoteAction : VoteAction := .transaction sampleVoteBytes 2 ⟨5, 20⟩

theorem sampleVoteBytes_decode :
    sampleCertDecoders.decodeConwayCerts sampleVoteBytes = .ok [sampleVote] := by
  rfl

/-- The delegation is accepted whatever the accounts are. -/
theorem sampleVoteStep (cert : CertState) :
    VoteStep sampleCertDecoders ⟨cert, some emptyGov⟩ sampleVoteAction ⟨cert, some votedGov⟩ := by
  apply VoteStep.transaction
  unfold accumulateTxCerts
  rw [if_pos rfl, sampleVoteBytes_decode]
  rfl

theorem emptyGov_anchored (cert : CertState) : CertLedger.VotesAnchored ⟨cert, some emptyGov⟩ := by
  rintro _ ⟨⟩ credential drep voted
  simp [emptyGov] at voted

/-- An account that is registered when it delegates its vote. -/
theorem voteDelegations_never_dangle_when_registered :
    CertLedger.VotesAnchored ⟨⟨sampleDelegation, samplePools⟩, some votedGov⟩ := by
  have registered : VotersRegistered sampleCertDecoders
      ⟨⟨sampleDelegation, samplePools⟩, some emptyGov⟩ sampleVoteAction := by
    intro certs decoded earlier later credential drep index reached split ran
    rw [sampleVoteBytes_decode] at decoded
    cases decoded
    cases earlier with
    | nil =>
        cases split
        cases ran
        decide +kernel
    | cons first earlier => simp at split
  have run : Run (RegisteredVoteStep sampleCertDecoders) _ [sampleVoteAction] _ :=
    .cons ⟨sampleVoteStep ⟨sampleDelegation, samplePools⟩, registered⟩ (.nil _)
  exact (voteDelegations_never_dangle (emptyGov_anchored _) run).1

/-- What the freeze reads when nobody holds anything. -/
def frozenInput (cert : CertState) (gov : ConwayGovState) : FrozenRatificationInput :=
  ⟨⟨∅, ∅, ∅⟩, ∅, ∅, cert.delegation, gov, .default, 6⟩

/-- An account that was never registered delegates its vote, and the freeze halts on it. -/
theorem unregistered_voteDelegation_dangles :
    CertLedger.VotesAnchored ⟨.new, some emptyGov⟩ ∧
      Run (VoteStep sampleCertDecoders) ⟨.new, some emptyGov⟩ [sampleVoteAction]
        ⟨.new, some votedGov⟩ ∧
      deriveFrozenDRepDistribution (frozenInput .new votedGov) =
        .error (.danglingVoteDelegation sampleCredential .unregisteredAccount) := by
  refine ⟨emptyGov_anchored .new, .cons (sampleVoteStep .new) (.nil _), ?_⟩
  rfl

end Ade.Proof.Ledger
