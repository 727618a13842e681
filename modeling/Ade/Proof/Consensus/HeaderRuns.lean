import Ade.Proof.Consensus.OpCert

/-! What every run of accepted headers preserves, whether or not leaders are checked. -/

namespace Ade.Proof.Consensus
open Library Ade.Consensus

variable {verifiers : Verifiers} {state next last : PraosChainDepState} {admission : Admission}
  {admissions : List Admission}

/-! ## One header -/

/-- The leader check returns nothing that the later steps read. -/
theorem trustDurable_of_enforce {header : HeaderInput} {ledgerView : LedgerView}
    {schedule : EraSchedule} {applied : HeaderApplied}
    (accepted : validateAndApplyHeader verifiers state header ledgerView schedule .enforce =
      .ok applied) :
    validateAndApplyHeader verifiers state header ledgerView schedule .trustDurable = .ok applied := by
  unfold validateAndApplyHeader at accepted ⊢
  obtain ⟨_, horizon, accepted⟩ := bind_ok accepted
  obtain ⟨_, slot, accepted⟩ := bind_ok accepted
  obtain ⟨_, blockNo, accepted⟩ := bind_ok accepted
  obtain ⟨_, opCert, accepted⟩ := bind_ok accepted
  obtain ⟨location, located, accepted⟩ := bind_ok accepted
  obtain ⟨_, keyhash, accepted⟩ := bind_ok accepted
  obtain ⟨outputs, proved, accepted⟩ := bind_ok accepted
  obtain ⟨_, -, accepted⟩ := bind_ok accepted
  rw [horizon, slot, blockNo, opCert, located]
  dsimp only [bind, Except.bind] at accepted ⊢
  rw [keyhash, proved]
  exact accepted

/-- An accepted header, but for the counters and the nonces that headers evolve. -/
structure Follows (state : PraosChainDepState) (header : HeaderInput) (next : PraosChainDepState) :
    Prop where
  slot : checkSlot state header = .ok ()
  blockNo : checkBlockNo state header = .ok ()
  lastSlot : next.lastSlot = some header.slot
  lastBlockNo : next.lastBlockNo = some header.blockNo
  epochNonce : next.epochNonce = state.epochNonce
  previousEpochNonce : next.previousEpochNonce = state.previousEpochNonce
  lastEpochBlockNonce : next.lastEpochBlockNonce = state.lastEpochBlockNonce

theorem follows_of_admits (admits : Admits verifiers state admission next) :
    Follows state admission.header next := by
  obtain ⟨summary, ok⟩ := admits
  unfold validateAndApplyHeader at ok
  obtain ⟨_, -, ok⟩ := bind_ok ok
  obtain ⟨_, slot, ok⟩ := bind_ok ok
  obtain ⟨_, blockNo, ok⟩ := bind_ok ok
  obtain ⟨_, -, ok⟩ := bind_ok ok
  obtain ⟨_, -, ok⟩ := bind_ok ok
  obtain ⟨_, -, ok⟩ := bind_ok ok
  obtain ⟨_, -, ok⟩ := bind_ok ok
  obtain ⟨_, -, ok⟩ := bind_ok ok
  obtain ⟨_, -, ok⟩ := bind_ok ok
  obtain ⟨afterOpCert, observed, ok⟩ := bind_ok ok
  obtain ⟨afterNonce, contributed, ok⟩ := bind_ok ok
  cases ok
  obtain ⟨counters, -, done⟩ := bind_ok (mapError_ok observed)
  cases done
  obtain ⟨_, -, done⟩ := bind_ok (mapError_ok contributed)
  cases done
  exact ⟨slot, blockNo, rfl, rfl, rfl, rfl, rfl⟩

namespace Follows

variable {header : HeaderInput}

theorem lastSlot_lt (follows : Follows state header next) : state.lastSlot < next.lastSlot := by
  have checked := follows.slot
  rw [follows.lastSlot]
  unfold checkSlot at checked
  cases position : state.lastSlot with
  | none => exact Option.none_lt_some
  | some earlier =>
      rw [position] at checked
      dsimp only at checked
      split_ifs at checked with late
      exact Option.some_lt_some.mpr (UInt64.not_le.mp late)

theorem lastBlockNo_lt (follows : Follows state header next) :
    state.lastBlockNo < next.lastBlockNo := by
  have checked := follows.blockNo
  rw [follows.lastBlockNo]
  unfold checkBlockNo at checked
  cases position : state.lastBlockNo with
  | none => exact Option.none_lt_some
  | some earlier =>
      rw [position] at checked
      dsimp only at checked
      split_ifs at checked with late
      exact Option.some_lt_some.mpr (UInt64.not_le.mp late)

end Follows

/-! ## Whole runs -/

/-- Between two states of a run of headers. -/
structure Advances (earlier later : PraosChainDepState) : Prop where
  lastSlot : earlier.lastSlot < later.lastSlot
  lastBlockNo : earlier.lastBlockNo < later.lastBlockNo

/-- What a run of headers keeps, also when it is empty. -/
structure Keeps (earlier later : PraosChainDepState) : Prop where
  counters : ∀ key floor, Covers earlier.opCertCounters key floor →
    Covers later.opCertCounters key floor
  epochNonce : later.epochNonce = earlier.epochNonce
  previousEpochNonce : later.previousEpochNonce = earlier.previousEpochNonce
  lastEpochBlockNonce : later.lastEpochBlockNonce = earlier.lastEpochBlockNonce

namespace Keeps

theorem refl (state : PraosChainDepState) : Keeps state state :=
  ⟨fun _ _ covers => covers, rfl, rfl, rfl⟩

theorem trans {middle : PraosChainDepState} (first : Keeps state middle) (rest : Keeps middle last) :
    Keeps state last where
  counters key floor covers := rest.counters key floor (first.counters key floor covers)
  epochNonce := rest.epochNonce.trans first.epochNonce
  previousEpochNonce := rest.previousEpochNonce.trans first.previousEpochNonce
  lastEpochBlockNonce := rest.lastEpochBlockNonce.trans first.lastEpochBlockNonce

end Keeps

theorem keeps_of_admits (admits : Admits verifiers state admission next) : Keeps state next :=
  have follows := follows_of_admits admits
  { counters := (upsertStrict_covers (admits_upsert admits)).2
    epochNonce := follows.epochNonce
    previousEpochNonce := follows.previousEpochNonce
    lastEpochBlockNonce := follows.lastEpochBlockNonce }

theorem keeps_of_run (run : Run (Admits verifiers) state admissions last) : Keeps state last := by
  induction run with
  | nil => exact Keeps.refl _
  | cons head tail ih => exact Keeps.trans (keeps_of_admits head) ih

theorem option_lt_trans {a b c : Option UInt64} (first : a < b) (rest : b < c) : a < c := by
  cases a <;> cases b <;> cases c <;> simp_all
  exact UInt64.lt_trans first rest

theorem advances_of_run (run : Run (Admits verifiers) state admissions last)
    (nonempty : admissions ≠ []) : Advances state last := by
  induction run with
  | nil => exact absurd rfl nonempty
  | @cons before middle after admission admissions head tail ih =>
      have follows := follows_of_admits head
      cases tail with
      | nil => exact ⟨Follows.lastSlot_lt follows, Follows.lastBlockNo_lt follows⟩
      | cons second tail =>
          have rest := ih (List.cons_ne_nil _ _)
          exact ⟨option_lt_trans (Follows.lastSlot_lt follows) rest.lastSlot,
            option_lt_trans (Follows.lastBlockNo_lt follows) rest.lastBlockNo⟩

/-- Replay with trusted leaders rebuilds what validation built, and runs only advance. -/
theorem header_runs_advance (verifiers : Verifiers) :
    (∀ state header ledgerView schedule applied,
      validateAndApplyHeader verifiers state header ledgerView schedule .enforce = .ok applied →
        validateAndApplyHeader verifiers state header ledgerView schedule .trustDurable = .ok applied) ∧
      ∀ state admissions last, Run (Admits verifiers) state admissions last →
        Keeps state last ∧ (admissions ≠ [] → Advances state last) :=
  ⟨fun _ _ _ _ _ accepted => trustDurable_of_enforce accepted,
    fun _ _ _ run => ⟨keeps_of_run run, advances_of_run run⟩⟩

theorem header_runs_advance_when_rotated :
    (∃ applied, validateAndApplyHeader sampleVerifiers (.genesis Nonce.zero)
        (sampleAdmission 1 1 5).header sampleView sampleSchedule .trustDurable = .ok applied) ∧
      Advances (.genesis Nonce.zero) (sampleAfter sampleAfterFirst (sampleAdmission 2 0 3)) := by
  have first := admits_of_stateAfter sample_states.1
  have second := admits_of_stateAfter sample_states.2.2
  obtain ⟨same, run⟩ := header_runs_advance sampleVerifiers
  have validated := first
  obtain ⟨summary, accepted⟩ := validated
  exact ⟨⟨_, same _ _ _ _ _ accepted⟩,
    (run _ _ _ (.cons first (.cons second (.nil _)))).2 (List.cons_ne_nil _ _)⟩

end Ade.Proof.Consensus
