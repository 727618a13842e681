import Ade.Proof.Consensus.OpCert

/-! The slots at which a header with a given certificate may be accepted. -/

namespace Ade.Proof.Consensus
open Library Ade.Consensus

/-! ## What an accepted signature was checked at -/

def currentKesPeriod (slot : SlotNo) : Nat := slot.toNat / 129600

/-- The slot lies in the window of the certificate, and the signature verified at the number of
periods since its start. -/
def SignedInWindow (verifiers : Verifiers) (kes : HeaderKes) (slot : SlotNo)
    (opCertKesPeriod : UInt64) : Prop :=
  opCertKesPeriod.toNat ≤ currentKesPeriod slot ∧
    currentKesPeriod slot - opCertKesPeriod.toNat ≤ sum6MaxPeriod.toNat ∧
    ∃ period : UInt32, period.toNat = currentKesPeriod slot - opCertKesPeriod.toNat ∧
      verifiers.verifyKes kes.kesVkey period kes.kesSignature kes.headerBodyBytes = some true

structure FieldsSized (kes : HeaderKes) : Prop where
  issuer : kes.issuerVkey.length = 32
  hot : kes.kesVkey.length = 32
  signature : kes.kesSignature.length = 448
  certificate : kes.opCertSignature.length = 64

def evolution (slot : SlotNo) (opCertKesPeriod : UInt64) : UInt32 :=
  (saturatingSub (slot / slotsPerKesPeriod) opCertKesPeriod).toUInt32

theorem currentKesPeriod_eq (slot : SlotNo) :
    (slot / slotsPerKesPeriod).toNat = currentKesPeriod slot :=
  UInt64.toNat_div ..

/-- The evolution loses every multiple of 2³² of the periods since the start. -/
theorem evolution_toNat (slot : SlotNo) (opCertKesPeriod : UInt64) :
    (evolution slot opCertKesPeriod).toNat =
      (currentKesPeriod slot - opCertKesPeriod.toNat) % 2 ^ 32 := by
  unfold evolution
  rw [UInt64.toNat_toUInt32, saturatingSub_toNat, currentKesPeriod_eq]

theorem expectSize_eq_ok {kind : FieldKind} {actual expected : Nat} {done : Unit} :
    expectSize kind actual expected = .ok done ↔ actual = expected := by
  unfold expectSize
  split_ifs with same <;> simp [same]

theorem verifyHeaderKes_eq_ok {verifiers : Verifiers} {kes : HeaderKes} {slot : SlotNo}
    {counter opCertKesPeriod : UInt64} :
    verifyHeaderKes verifiers kes slot counter opCertKesPeriod = .ok () ↔
      FieldsSized kes ∧
        verifiers.verifyOpcert kes.issuerVkey kes.kesVkey counter opCertKesPeriod
          kes.opCertSignature = some true ∧
        (evolution slot opCertKesPeriod).toNat ≤ 63 ∧
        verifiers.verifyKes kes.kesVkey (evolution slot opCertKesPeriod) kes.kesSignature
          kes.headerBodyBytes = some true := by
  have late : evolution slot opCertKesPeriod > sum6MaxPeriod ↔
      ¬ (evolution slot opCertKesPeriod).toNat ≤ 63 :=
    UInt32.lt_iff_toNat_lt.trans Nat.not_le.symm
  unfold verifyHeaderKes
  rw [← evolution]
  simp only [bind_eq_ok, expectSize_eq_ok, late]
  constructor
  · rintro ⟨_, issuer, _, hot, _, signature, _, certificate, ok⟩
    by_cases certified : verifiers.verifyOpcert kes.issuerVkey kes.kesVkey counter opCertKesPeriod
        kes.opCertSignature = some true
    · rw [if_neg (not_not.mpr certified)] at ok
      by_cases low : (evolution slot opCertKesPeriod).toNat ≤ 63
      · rw [if_neg (not_not.mpr low)] at ok
        split_ifs at ok with unsigned
        exact ⟨⟨issuer, hot, signature, certificate⟩, certified, low, not_not.mp unsigned⟩
      · rw [if_pos low] at ok
        cases ok
    · rw [if_pos certified] at ok
      cases ok
  · rintro ⟨sized, certified, low, signed⟩
    refine ⟨(), sized.issuer, (), sized.hot, (), sized.signature, (), sized.certificate, ?_⟩
    rw [if_neg (not_not.mpr certified), if_neg (not_not.mpr low), if_neg (not_not.mpr signed)]
    rfl

/-! ## Certificates from the future, and from long before -/

theorem sampleVerifiers_accept {kes : HeaderKes} (sized : FieldsSized kes) {slot : SlotNo}
    {counter opCertKesPeriod : UInt64}
    (low : (currentKesPeriod slot - opCertKesPeriod.toNat) % 2 ^ 32 ≤ 63) :
    verifyHeaderKes sampleVerifiers kes slot counter opCertKesPeriod = .ok () := by
  apply verifyHeaderKes_eq_ok.mpr
  rw [evolution_toNat]
  exact ⟨sized, rfl, low, rfl⟩

/-- An accepted header lies in the window whatever the verifiers answer, exactly when its
certificate is not from the future and its age is below 2³² periods or not below 64 modulo 2³². -/
theorem accepted_in_window_iff (kes : HeaderKes) (slot : SlotNo) (counter opCertKesPeriod : UInt64) :
    (∀ verifiers : Verifiers, verifyHeaderKes verifiers kes slot counter opCertKesPeriod = .ok () →
        SignedInWindow verifiers kes slot opCertKesPeriod) ↔
      (FieldsSized kes → opCertKesPeriod.toNat ≤ currentKesPeriod slot ∧
        (currentKesPeriod slot - opCertKesPeriod.toNat < 2 ^ 32 ∨
          63 < (currentKesPeriod slot - opCertKesPeriod.toNat) % 2 ^ 32)) := by
  constructor
  · intro inWindow sized
    constructor
    · by_contra! future
      have none : currentKesPeriod slot - opCertKesPeriod.toNat = 0 :=
        Nat.sub_eq_zero_of_le future.le
      have accepted : verifyHeaderKes sampleVerifiers kes slot counter opCertKesPeriod = .ok () :=
        sampleVerifiers_accept sized (by rw [none]; decide)
      exact absurd (inWindow _ accepted).1 (Nat.not_le.mpr future)
    · by_contra! wraps
      have accepted : verifyHeaderKes sampleVerifiers kes slot counter opCertKesPeriod = .ok () :=
        sampleVerifiers_accept sized wraps.2
      have recent : currentKesPeriod slot - opCertKesPeriod.toNat ≤ 63 :=
        (inWindow _ accepted).2.1
      omega
  · intro condition verifiers accepted
    obtain ⟨sized, -, low, signed⟩ := verifyHeaderKes_eq_ok.mp accepted
    obtain ⟨started, recent | late⟩ := condition sized
    · have exactly : (evolution slot opCertKesPeriod).toNat =
          currentKesPeriod slot - opCertKesPeriod.toNat := by
        rw [evolution_toNat, Nat.mod_eq_of_lt recent]
      exact ⟨started, exactly ▸ low, _, exactly, signed⟩
    · rw [evolution_toNat] at low
      exact absurd low (Nat.not_le.mpr late)

/-- A certificate of period 1 signs the header of slot 0. -/
theorem certificate_from_the_future :
    verifyHeaderKes sampleVerifiers sampleKes 0 0 1 = .ok () ∧
      ¬ SignedInWindow sampleVerifiers sampleKes 0 1 := by
  constructor
  · exact sampleVerifiers_accept ⟨List.length_replicate, List.length_replicate,
      List.length_replicate, List.length_replicate⟩ (by decide)
  · exact fun inWindow => absurd inWindow.1 (by decide)

end Ade.Proof.Consensus
