import Ade.Participant.Pump
import Ade.Proof.BlockValidity.HashChain
import Ade.Proof.Consensus.EraExtension

/-! The replay of an admitted block under an extended schedule. -/

namespace Ade.Proof.BlockValidity
open Library Ade.Consensus Ade.Receive Ade.BlockValidity Ade.Participant
open Ade.Proof.Consensus

/-! ## The schedule -/

section
variable {seed : EraSummary} {count reached : Nat} {schedule extended : EraSchedule}
  {slot target : SlotNo} {location : EraLocation}

@[simp] theorem spanAt_window (seed : EraSummary) (index : Nat) :
    (spanAt seed index).randomnessStabilisationWindowSlots =
      seed.randomnessStabilisationWindowSlots := by
  cases index <;> rfl

/-- The index that a location keeps is in range, although the machine cuts it. -/
theorem locate_index (located : schedule.locate slot = .ok location) :
    location.eraIndex.toNat < schedule.eras.length := by
  unfold EraSchedule.locate at located
  dsimp only at located
  split at located
  · rename_i first current firstEra currentEra
    obtain ⟨inside, -⟩ := List.getElem?_eq_some_iff.mp currentEra
    split_ifs at located
    split at located
    · cases located
    · cases located
      rw [UInt8.toNat_ofNat']
      exact Nat.lt_of_le_of_lt (Nat.mod_le ..) inside
  · cases located

theorem locate_from_seed (reaches : Reaches seed count schedule)
    (located : schedule.locate slot = .ok location) : seed.startSlot ≤ slot := by
  unfold EraSchedule.locate at located
  rw [reaches.eras, head?_spans] at located
  dsimp only at located
  split at located
  · rename_i first current firstEra currentEra
    cases firstEra
    split_ifs at located with before
    exact UInt64.not_lt.mp before
  · cases located

/-- The boundary from which the candidate nonce is frozen, by the geometry of the seed. -/
def frozenFrom (seed : EraSummary) (slot : SlotNo) (relativeSlot : UInt32) : SlotNo :=
  match seed.randomnessStabilisationWindowSlots with
  | none => UInt64.ofNat (2 ^ 64 - 1)
  | some window =>
      saturatingSub (saturatingAdd (saturatingSub slot relativeSlot.toUInt64)
        seed.epochLengthSlots.toUInt64) window.toUInt64

theorem freezeBoundary_reaches (reaches : Reaches seed count schedule)
    (located : schedule.locate slot = .ok location) :
    freezeBoundary schedule slot location = frozenFrom seed slot location.relativeSlotInEpoch := by
  have inside := locate_index located
  rw [reaches.eras, spans, List.length_map, List.length_range] at inside
  have found : schedule.eras[location.eraIndex.toNat]? = some (spanAt seed location.eraIndex.toNat) := by
    rw [reaches.eras, spans, List.getElem?_map, List.getElem?_range inside, Option.map_some]
  unfold freezeBoundary frozenFrom
  cases window : seed.randomnessStabilisationWindowSlots with
  | none => simp [found, window]
  | some slots => simp [found, window, spanAt_epochLengthSlots]

/-- Two extensions of a seed locate a slot alike. -/
theorem locate_extended (reaches : Reaches seed count schedule)
    (further : Reaches seed reached extended) (located : schedule.locate slot = .ok location) :
    ∃ again, extended.locate slot = .ok again ∧ again.epoch = location.epoch ∧
      freezeBoundary extended slot again = freezeBoundary schedule slot location := by
  have low := locate_from_seed reaches located
  have same : (extended.locate slot).map coordinates = .ok (coordinates location) := by
    rw [locate_reaches further low, ← locate_reaches reaches low, located]
    rfl
  obtain ⟨again, found, equal⟩ := map_ok same
  simp only [coordinates, Prod.mk.injEq] at equal
  refine ⟨again, found, equal.2.1, ?_⟩
  rw [freezeBoundary_reaches further found, freezeBoundary_reaches reaches located, equal.2.2]

theorem fits_of_located (reaches : Reaches seed count schedule)
    (located : schedule.locate slot = .ok location) : (ExtendCall.toSlot slot).Fits seed := by
  have same := locate_reaches reaches (locate_from_seed reaches located)
  rw [located, locatedBySeed] at same
  split_ifs at same with fits
  · exact fits
  · cases same

/-- A slot within the horizon of a schedule is within that of its extension to a later slot. -/
theorem horizon_extendToSlot (reaches : Reaches seed count schedule) (le : slot ≤ target)
    (low : seed.startSlot ≤ slot) (fits : (ExtendCall.toSlot target).Fits seed)
    (within : schedule.checkForecastHorizon slot = .ok ()) :
    (schedule.extendToSlot target).checkForecastHorizon slot = .ok () := by
  have further := apply_reaches reaches fits
  have high := UInt64.le_trans low le
  have asked : ((ExtendCall.toSlot target).epoch seed).toNat - seed.startEpoch.toNat =
      (target.toNat - seed.startSlot.toNat) / seed.epochLengthSlots.toNat := by
    rw [ExtendCall.epoch, if_neg (UInt64.not_lt.mpr high), slotEpoch_toNat high fits,
      Nat.add_sub_cancel_left]
  rw [asked] at further
  have ordered := UInt64.le_iff_toNat_le.mp le
  refine (horizon_of_extended further ?_).mpr ?_
  · apply le_max_of_le_right
    exact Nat.div_le_div_right (Nat.sub_le_sub_right ordered _)
  · rcases Nat.eq_zero_or_pos (max count
      ((target.toNat - seed.startSlot.toNat) / seed.epochLengthSlots.toNat)) with none_ | some_
    · obtain ⟨rfl, -⟩ := Nat.max_eq_zero_iff.mp none_
      exact .inl ((checkForecastHorizon_reaches reaches).mp within)
    · exact .inr some_

end

/-! ## The header -/

section
variable {seed : EraSummary} {count reached : Nat} {schedule extended : EraSchedule}
  {verifiers : Verifiers} {state : PraosChainDepState} {header : HeaderInput}
  {ledgerView : LedgerView} {applied : HeaderApplied}

/-- What admission accepts, the replay accepts under an extension whose horizon it is within. -/
theorem validateAndApplyHeader_extended (reaches : Reaches seed count schedule)
    (further : Reaches seed reached extended)
    (within : extended.checkForecastHorizon header.slot = .ok ())
    (accepted : validateAndApplyHeader verifiers state header ledgerView schedule .enforce =
      .ok applied) :
    validateAndApplyHeader verifiers state header ledgerView extended .trustDurable = .ok applied := by
  unfold validateAndApplyHeader at accepted ⊢
  obtain ⟨_, -, accepted⟩ := bind_ok accepted
  obtain ⟨_, slot, accepted⟩ := bind_ok accepted
  obtain ⟨_, blockNo, accepted⟩ := bind_ok accepted
  obtain ⟨_, counter, accepted⟩ := bind_ok accepted
  obtain ⟨location, located, accepted⟩ := bind_ok accepted
  obtain ⟨_, keyhash, accepted⟩ := bind_ok accepted
  obtain ⟨outputs, vrf, accepted⟩ := bind_ok accepted
  obtain ⟨_, -, accepted⟩ := bind_ok accepted
  obtain ⟨_, kes, accepted⟩ := bind_ok accepted
  obtain ⟨again, found, epoch, frozen⟩ := locate_extended reaches further (mapError_ok located)
  refine bind_eq_ok.mpr ⟨_, mapError_eq_ok.mpr within, ?_⟩
  refine bind_eq_ok.mpr ⟨_, slot, ?_⟩
  refine bind_eq_ok.mpr ⟨_, blockNo, ?_⟩
  refine bind_eq_ok.mpr ⟨_, counter, ?_⟩
  refine bind_eq_ok.mpr ⟨again, mapError_eq_ok.mpr found, ?_⟩
  rw [epoch, frozen]
  refine bind_eq_ok.mpr ⟨_, keyhash, ?_⟩
  refine bind_eq_ok.mpr ⟨outputs, vrf, ?_⟩
  refine bind_eq_ok.mpr ⟨(), rfl, ?_⟩
  exact bind_eq_ok.mpr ⟨_, kes, accepted⟩

theorem located_of_accepted {leaderEligibility : Consensus.LeaderEligibility}
    (accepted : validateAndApplyHeader verifiers state header ledgerView schedule
      leaderEligibility = .ok applied) :
    schedule.checkForecastHorizon header.slot = .ok () ∧
      ∃ location, schedule.locate header.slot = .ok location := by
  unfold validateAndApplyHeader at accepted
  obtain ⟨_, within, accepted⟩ := bind_ok accepted
  obtain ⟨_, -, accepted⟩ := bind_ok accepted
  obtain ⟨_, -, accepted⟩ := bind_ok accepted
  obtain ⟨_, -, accepted⟩ := bind_ok accepted
  obtain ⟨location, located, accepted⟩ := bind_ok accepted
  exact ⟨mapError_ok within, location, mapError_ok located⟩

end

/-! ## The block -/

/-- Authorities that agree on a block and its header return the same outcome. -/
theorem blockValidity_agrees {K : Kinds} {first second : Authorities K} {blockBytes : Bytes}
    {ledger : K.Ledger} {chainDep : PraosChainDepState} {decoded : Receive.DecodedBlock K}
    {applied : AppliedHeader} {earlier later : Receive.LeaderEligibility}
    (decodes : first.decodeBlock blockBytes = .ok decoded)
    (again : second.decodeBlock blockBytes = .ok decoded)
    (accepted : first.validateAndApplyHeader chainDep decoded.headerInput earlier = .ok applied)
    (replayed : second.validateAndApplyHeader chainDep decoded.headerInput later = .ok applied)
    (body : second.applyBlockWithVerdicts = first.applyBlockWithVerdicts) :
    blockValidityWithEligibility second ledger chainDep blockBytes later =
      blockValidityWithEligibility first ledger chainDep blockBytes earlier := by
  unfold blockValidityWithEligibility
  rw [decodes, again]
  dsimp only
  rw [accepted, replayed, body]

/-- The body authority reads of the schedule only where it locates slots. -/
def BodyLocates (env : Environment) : Prop :=
  ∀ schedule : EraSchedule, (∀ slot, (schedule.locate slot).map coordinates =
      (env.eraSchedule.locate slot).map coordinates) →
    env.applyBlockWithVerdicts schedule = env.applyBlockWithVerdicts env.eraSchedule

section
variable {env : Environment} {seed : EraSummary} {count : Nat} {ledger : env.Ledger}
  {chainDep : PraosChainDepState} {blockBytes : Bytes} {target : SlotNo}

theorem locate_below {schedule : EraSchedule} (reaches : Reaches seed count schedule) {slot : SlotNo}
    (below : slot < seed.startSlot) :
    schedule.locate slot = .error (.slotBeforeSystemStart slot seed.startSlot) := by
  obtain ⟨era, found⟩ : ∃ era, schedule.eras[eraIndexAt slot schedule.eras]? = some era :=
    ⟨_, List.getElem?_eq_getElem (eraIndexAt_lt slot schedule.nonempty)⟩
  have first : schedule.eras.head? = some seed := by
    rw [reaches.eras, head?_spans]
  unfold EraSchedule.locate
  dsimp only
  rw [found, first]
  exact if_pos below

theorem locate_same (reaches : Reaches seed count env.eraSchedule) {reached : Nat}
    {extended : EraSchedule} (further : Reaches seed reached extended) (slot : SlotNo) :
    (extended.locate slot).map coordinates = (env.eraSchedule.locate slot).map coordinates := by
  by_cases low : seed.startSlot ≤ slot
  · rw [locate_reaches further low, locate_reaches reaches low]
  · have below := UInt64.not_le.mp low
    rw [locate_below further below, locate_below reaches below]

/-- The replay of an admitted block up to a located slot at or after it has the outcome of its
admission. -/
theorem trustedReplay_eq (reaches : Reaches seed count env.eraSchedule) (body : BodyLocates env)
    (located : ∃ location, env.eraSchedule.locate target = .ok location)
    {decoded : BlockValidity.DecodedBlock} (decodes : decodeBlock env blockBytes = .ok decoded)
    (le : decoded.headerInput.slot ≤ target) {tip : Point} {blockNo : BlockNo}
    {verdict : env.BodyVerdict}
    (valid : (blockValidity (authorities env) ledger chainDep blockBytes).verdict =
      .valid tip blockNo verdict) :
    blockValidityTrustedReplay env target ledger chainDep blockBytes =
      blockValidity (authorities env) ledger chainDep blockBytes := by
  obtain ⟨given, applied, newLedger, found, accepted, -, -⟩ := blockValidity_eq_valid valid
  have same : given = decoded.decoded env := by
    obtain ⟨again, ran, rfl⟩ := map_ok found
    rw [decodes] at ran
    cases ran
    rfl
  subst same
  obtain ⟨header, validated, rfl⟩ := map_ok accepted
  obtain ⟨within, _, here⟩ := located_of_accepted validated
  obtain ⟨location, there⟩ := located
  have fits := fits_of_located reaches there
  have further := apply_reaches reaches fits
  have horizon := horizon_extendToSlot reaches le (locate_from_seed reaches here) fits within
  have replayed := validateAndApplyHeader_extended reaches further horizon validated
  have sameBody := body _ (locate_same reaches further)
  exact blockValidity_agrees found found accepted (congrArg (Except.map appliedHeader) replayed) sameBody

end

end Ade.Proof.BlockValidity
