import Ade.Consensus.Header
import Ade.Library.Except
import Ade.Library.Run

/-! A pool's counters never decrease within a KES period, and may across periods. -/

namespace Ade.Proof.Consensus
open Library Ade.Consensus

/-! ## The table of counters -/

/-- The table holds a counter of at least `floor` under the key. -/
def Covers (counters : OpCertCounterMap) (key : Hash28 × UInt64) (floor : UInt64) : Prop :=
  ∃ counter, counters[key]? = some counter ∧ floor ≤ counter

theorem covers_insert_self (counters : OpCertCounterMap) (key : Hash28 × UInt64) (counter : UInt64) :
    Covers (counters.insert key counter) key counter :=
  ⟨counter, by rw [BTreeMap.getElem?_insert, if_pos rfl], UInt64.le_refl counter⟩

theorem covers_insert {counters : OpCertCounterMap} {key other : Hash28 × UInt64}
    {floor counter : UInt64} (covers : Covers counters other floor)
    (above : ∀ existing, counters[key]? = some existing → existing ≤ counter) :
    Covers (counters.insert key counter) other floor := by
  obtain ⟨existing, found, low⟩ := covers
  by_cases same : key = other
  · subst same
    exact ⟨counter, by rw [BTreeMap.getElem?_insert, if_pos rfl],
      UInt64.le_trans low (above existing found)⟩
  · exact ⟨existing, by rw [BTreeMap.getElem?_insert, if_neg same, found], low⟩

theorem upsertStrict_covers {counters next : OpCertCounterMap} {pool : Hash28}
    {kesPeriod counter : UInt64} (ok : upsertStrict counters pool kesPeriod counter = .ok next) :
    Covers next (pool, kesPeriod) counter ∧
      ∀ key floor, Covers counters key floor → Covers next key floor := by
  unfold upsertStrict at ok
  cases found : counters[(pool, kesPeriod)]? with
  | none =>
      rw [found] at ok
      cases ok
      refine ⟨covers_insert_self .., fun key floor covers => covers_insert covers ?_⟩
      simp [found]
  | some existing =>
      rw [found] at ok
      dsimp only at ok
      by_cases below : counter < existing
      · rw [if_pos below] at ok
        cases ok
      · rw [if_neg below] at ok
        by_cases same : counter = existing
        · rw [if_pos same] at ok
          cases ok
          exact ⟨⟨existing, found, same ▸ UInt64.le_refl counter⟩, fun _ _ covers => covers⟩
        · rw [if_neg same] at ok
          cases ok
          refine ⟨covers_insert_self .., fun key floor covers => covers_insert covers ?_⟩
          intro other stored
          rw [found, Option.some.injEq] at stored
          exact stored ▸ UInt64.not_lt.mp below

theorem upsertStrict_floor {counters next : OpCertCounterMap} {pool : Hash28}
    {kesPeriod counter floor : UInt64} (ok : upsertStrict counters pool kesPeriod counter = .ok next)
    (covers : Covers counters (pool, kesPeriod) floor) : floor ≤ counter := by
  obtain ⟨existing, found, low⟩ := covers
  unfold upsertStrict at ok
  rw [found] at ok
  dsimp only at ok
  by_cases below : counter < existing
  · rw [if_pos below] at ok
    cases ok
  · exact UInt64.le_trans low (UInt64.not_lt.mp below)

/-! ## One header -/

structure Admission where
  header : HeaderInput
  ledgerView : LedgerView
  schedule : EraSchedule
  leaderEligibility : LeaderEligibility

namespace Admission

def pool (admission : Admission) : Hash28 := admission.header.issuerPool

def kesPeriod (admission : Admission) : UInt64 := admission.header.opCertKesPeriod

def counter (admission : Admission) : UInt64 := admission.header.opCertCounter

end Admission

def Admits (verifiers : Verifiers) (state : PraosChainDepState) (admission : Admission)
    (next : PraosChainDepState) : Prop :=
  ∃ summary, validateAndApplyHeader verifiers state admission.header admission.ledgerView
    admission.schedule admission.leaderEligibility = .ok ⟨next, summary⟩

variable {verifiers : Verifiers} {state next last : PraosChainDepState} {admission : Admission}
  {admissions : List Admission}

theorem applyHeaderContribution_counters {slot : SlotNo} {prevBlockHash : Hash32}
    {vrfNonceOutput : VrfOutput} {freezeBoundary : SlotNo}
    (ok : applyHeaderContribution verifiers state slot prevBlockHash vrfNonceOutput freezeBoundary =
      .ok next) : next.opCertCounters = state.opCertCounters := by
  unfold applyHeaderContribution at ok
  obtain ⟨_, -, ok⟩ := bind_ok ok
  cases ok
  rfl

/-- The nonces and the positions apart, an accepted header changes its own counter. -/
theorem admits_upsert (admits : Admits verifiers state admission next) :
    upsertStrict state.opCertCounters admission.pool admission.kesPeriod admission.counter =
      .ok next.opCertCounters := by
  obtain ⟨summary, ok⟩ := admits
  unfold validateAndApplyHeader at ok
  obtain ⟨_, -, ok⟩ := bind_ok ok
  obtain ⟨_, -, ok⟩ := bind_ok ok
  obtain ⟨_, -, ok⟩ := bind_ok ok
  obtain ⟨_, -, ok⟩ := bind_ok ok
  obtain ⟨_, -, ok⟩ := bind_ok ok
  obtain ⟨_, -, ok⟩ := bind_ok ok
  obtain ⟨_, -, ok⟩ := bind_ok ok
  obtain ⟨_, -, ok⟩ := bind_ok ok
  obtain ⟨_, -, ok⟩ := bind_ok ok
  obtain ⟨afterOpCert, observed, ok⟩ := bind_ok ok
  obtain ⟨afterNonce, contributed, ok⟩ := bind_ok ok
  cases ok
  obtain ⟨counters, upserted, done⟩ := bind_ok (mapError_ok observed)
  cases done
  have carried := applyHeaderContribution_counters (mapError_ok contributed)
  exact upserted.trans (congrArg Except.ok carried.symm)

/-! ## Whole runs -/

/-- What the table holds under a key bounds every later header with that key. -/
theorem covered_le (run : Run (Admits verifiers) state admissions last) {key : Hash28 × UInt64}
    {floor : UInt64} (covers : Covers state.opCertCounters key floor) :
    ∀ later ∈ admissions, (later.pool, later.kesPeriod) = key → floor ≤ later.counter := by
  induction run with
  | nil => exact fun later member => absurd member List.not_mem_nil
  | cons head tail ih =>
      have upserted := admits_upsert head
      intro later member same
      rcases List.mem_cons.mp member with rfl | member
      · subst same
        exact upsertStrict_floor upserted covers
      · exact ih ((upsertStrict_covers upserted).2 key floor covers) later member same

/-- Within a pool and a KES period the counters of accepted headers never decrease. -/
theorem op_cert_counters_never_decrease (run : Run (Admits verifiers) state admissions last) :
    admissions.Pairwise fun earlier later =>
      later.pool = earlier.pool → later.kesPeriod = earlier.kesPeriod →
        earlier.counter ≤ later.counter := by
  induction run with
  | nil => exact List.Pairwise.nil
  | cons head tail ih =>
      refine List.Pairwise.cons (fun later member pool period => ?_) ih
      have recorded := (upsertStrict_covers (admits_upsert head)).1
      exact covered_le tail recorded later member (Prod.ext pool period)

/-! ### A superseded certificate -/

section Samples

def sampleVerifiers : Verifiers where
  blake2b256 _ := Vector.replicate 32 0
  verifyVrf _ _ _ := .ok (Vector.replicate 64 0)
  checkLeaderClaim _ _ _ := .ok ()
  verifyOpcert _ _ _ _ _ := some true
  verifyKes _ _ _ _ := some true

def sampleView : LedgerView where
  totalActiveStake _ := some 2
  poolActiveStake _ _ := some 1
  poolVrfKeyhash _ _ := some (Vector.replicate 32 0)
  activeSlotsCoeff _ := some ⟨1, 20⟩

def sampleSchedule : EraSchedule where
  eras := [⟨.conway, 0, 0, 1000, 432000, 432000, some 172800⟩]
  nonempty := by simp
  lengths := by simp
  monotone := .singleton _

def sampleKes : HeaderKes where
  issuerVkey := List.replicate 32 0
  kesVkey := List.replicate 32 0
  kesSignature := List.replicate 448 0
  opCertSignature := List.replicate 64 0
  headerBodyBytes := []

/-- A header of one pool, in the second KES period of the chain. -/
def sampleAdmission (position : UInt64) (kesPeriod counter : UInt64) : Admission where
  header :=
    { slot := 129600 + position
      blockNo := position
      prevHash := Vector.replicate 32 0
      bodyHash := Vector.replicate 32 0
      issuerPool := Vector.replicate 28 1
      opCertKesPeriod := kesPeriod
      opCertCounter := counter
      vrfVk := Vector.replicate 32 0
      vrf := .praos (Vector.replicate 80 0) (Vector.replicate 64 0)
      kes := some sampleKes }
  ledgerView := sampleView
  schedule := sampleSchedule
  leaderEligibility := .enforce

def sampleAfter (state : PraosChainDepState) (admission : Admission) : PraosChainDepState :=
  { state with
    candidateNonce := Vector.replicate 32 0
    evolvingNonce := Vector.replicate 32 0
    labNonce := Vector.replicate 32 0
    lastSlot := some admission.header.slot
    lastBlockNo := some admission.header.blockNo
    opCertCounters := state.opCertCounters.insert (admission.pool, admission.kesPeriod) admission.counter }

def sampleAfterFirst : PraosChainDepState :=
  sampleAfter (.genesis Nonce.zero) (sampleAdmission 1 1 5)

def stateAfter (state : PraosChainDepState) (admission : Admission) : Option PraosChainDepState :=
  (validateAndApplyHeader sampleVerifiers state admission.header admission.ledgerView
    admission.schedule admission.leaderEligibility).toOption.map HeaderApplied.newState

theorem admits_of_stateAfter (after : stateAfter state admission = some next) :
    Admits sampleVerifiers state admission next := by
  unfold stateAfter at after
  unfold Admits
  cases accepted : validateAndApplyHeader sampleVerifiers state admission.header admission.ledgerView
      admission.schedule admission.leaderEligibility with
  | error failure =>
      rw [accepted] at after
      cases after
  | ok applied =>
      rw [accepted] at after
      cases after
      exact ⟨applied.summary, rfl⟩

theorem sample_states :
    stateAfter (.genesis Nonce.zero) (sampleAdmission 1 1 5) = some sampleAfterFirst ∧
      stateAfter sampleAfterFirst (sampleAdmission 2 1 6) =
        some (sampleAfter sampleAfterFirst (sampleAdmission 2 1 6)) ∧
      stateAfter sampleAfterFirst (sampleAdmission 2 0 3) =
        some (sampleAfter sampleAfterFirst (sampleAdmission 2 0 3)) := by
  decide +kernel

theorem op_cert_counters_never_decrease_when_rotated :
    [sampleAdmission 1 1 5, sampleAdmission 2 1 6].Pairwise fun earlier later =>
      later.pool = earlier.pool → later.kesPeriod = earlier.kesPeriod →
        earlier.counter ≤ later.counter :=
  op_cert_counters_never_decrease (.cons (admits_of_stateAfter sample_states.1)
    (.cons (admits_of_stateAfter sample_states.2.1) (.nil _)))

/-- After counter 5 of period 1, counter 3 of period 0. -/
theorem superseded_certificate_returns :
    Run (Admits sampleVerifiers) (.genesis Nonce.zero) [sampleAdmission 1 1 5, sampleAdmission 2 0 3]
        (sampleAfter sampleAfterFirst (sampleAdmission 2 0 3)) ∧
      ¬ [sampleAdmission 1 1 5, sampleAdmission 2 0 3].Pairwise fun earlier later =>
        later.pool = earlier.pool → earlier.counter ≤ later.counter := by
  refine ⟨.cons (admits_of_stateAfter sample_states.1)
    (.cons (admits_of_stateAfter sample_states.2.2) (.nil _)), ?_⟩
  rw [List.pairwise_pair]
  exact fun never => absurd (never rfl) (by decide)

end Samples

end Ade.Proof.Consensus
