import Ade.Consensus.ForkChoice
import Ade.Consensus.PraosState
import Ade.Library.Bytes
import Ade.Library.Machine

/-! Header admission: the era schedule, the operational certificate counters, the nonces. -/

namespace Ade.Consensus
open Library

/-! ## The era schedule -/

structure EraSummary where
  era : CardanoEra
  startSlot : SlotNo
  startEpoch : EpochNo
  slotLengthMs : UInt32
  epochLengthSlots : UInt32
  safeZoneSlots : UInt32
  randomnessStabilisationWindowSlots : Option UInt32

/-- Only the constructor of the source builds schedules. -/
structure EraSchedule where
  eras : List EraSummary
  nonempty : eras ≠ []
  lengths : ∀ era ∈ eras, era.slotLengthMs ≠ 0 ∧ era.epochLengthSlots ≠ 0
  monotone : eras.IsChain fun era next => era.startSlot < next.startSlot

inductive HFCError where
  | emptyEraList
  | nonMonotonicEras (prevStart nextStart : SlotNo)
  | zeroSlotLength (eraIndex : UInt8)
  | zeroEpochLength (eraIndex : UInt8)
  | slotBeforeSystemStart (slot firstEraStart : SlotNo)
  | slotAfterLastEra (slot lastEraEnd : SlotNo)
deriving DecidableEq, Repr

structure OutsideForecastRange where
  requested : SlotNo
  horizon : SlotNo
deriving DecidableEq, Repr

structure EraLocation where
  eraIndex : UInt8
  era : CardanoEra
  epoch : EpochNo
  relativeSlotInEpoch : UInt32
deriving DecidableEq, Repr

/-- The last era where no other one covers the slot. -/
def eraIndexAt (slot : SlotNo) : List EraSummary → Nat
  | current :: next :: rest =>
      if current.startSlot ≤ slot ∧ slot < next.startSlot then 0
      else eraIndexAt slot (next :: rest) + 1
  | _ => 0

namespace EraSchedule

def locate (schedule : EraSchedule) (slot : SlotNo) : Except HFCError EraLocation :=
  let index := eraIndexAt slot schedule.eras
  match schedule.eras.head?, schedule.eras[index]? with
  | some first, some current =>
      if slot < first.startSlot then .error (.slotBeforeSystemStart slot first.startSlot)
      else
        let slotsIntoEra := slot - current.startSlot
        let epochLength := current.epochLengthSlots.toUInt64
        match checkedAdd current.startEpoch (slotsIntoEra / epochLength) with
        | none => .error (.slotAfterLastEra slot (UInt64.ofNat (2 ^ 64 - 1)))
        | some epoch => .ok
            { eraIndex := UInt8.ofNat index, era := current.era, epoch,
              relativeSlotInEpoch := (slotsIntoEra % epochLength).toUInt32 }
  | _, _ => .error .emptyEraList

def checkForecastHorizon (schedule : EraSchedule) (slot : SlotNo) : Except OutsideForecastRange Unit :=
  match schedule.eras.getLast? with
  | none => .error ⟨slot, 0⟩
  | some last =>
      let horizon := saturatingAdd last.startSlot last.safeZoneSlots.toUInt64
      if slot > horizon then .error ⟨slot, horizon⟩ else .ok ()

end EraSchedule

/-! ## Operational certificate counters -/

abbrev OpCertCounterMap := BTreeMap (Hash28 × UInt64) UInt64

inductive OpCertCounterError where
  | regression (existing attempted : UInt64)
deriving DecidableEq, Repr

def upsertStrict (counters : OpCertCounterMap) (pool : Hash28) (kesPeriod counter : UInt64) :
    Except OpCertCounterError OpCertCounterMap :=
  match counters[(pool, kesPeriod)]? with
  | some existing =>
      if counter < existing then .error (.regression existing counter)
      else if counter = existing then .ok counters
      else .ok (counters.insert (pool, kesPeriod) counter)
  | none => .ok (counters.insert (pool, kesPeriod) counter)

structure OpCertObservation where
  pool : Hash28
  kesPeriod : UInt64
  counter : UInt64

def applyOpCert (state : PraosChainDepState) (observation : OpCertObservation) :
    Except OpCertCounterError PraosChainDepState := do
  let opCertCounters ← upsertStrict state.opCertCounters observation.pool observation.kesPeriod
    observation.counter
  return { state with opCertCounters }

/-! ## Headers -/

abbrev VrfVerificationKey := Vector UInt8 32
abbrev VrfProof := Vector UInt8 80
abbrev VrfOutput := Vector UInt8 64

inductive HeaderVrf where
  | tpraos (nonceProof leaderProof : VrfProof)
  | praos (proof : VrfProof) (output : VrfOutput)

structure HeaderKes where
  issuerVkey : Bytes
  kesVkey : Bytes
  kesSignature : Bytes
  opCertSignature : Bytes
  headerBodyBytes : Bytes

structure HeaderInput where
  slot : SlotNo
  blockNo : BlockNo
  prevHash : Hash32
  bodyHash : Hash32
  issuerPool : Hash28
  opCertKesPeriod : UInt64
  opCertCounter : UInt64
  vrfVk : VrfVerificationKey
  vrf : HeaderVrf
  kes : Option HeaderKes

/-- The summary of a header, of which the fork choice reads a part. -/
structure HeaderSummary extends ValidatedHeaderSummary where
  blockNo : BlockNo
  issuerPool : Hash28
  opCertCounter : UInt64
  vrfLeaderOutput : VrfOutput

inductive VrfCertError where
  | malformedKey
  | malformedProof
  | verificationFailed
  | leaderValueAboveThreshold (value threshold : Vector UInt8 8)
deriving DecidableEq

inductive FieldKind where
  | kesVkey | kesSignature | opCertSignature | issuerVkey
deriving DecidableEq, Repr

structure FieldError where
  field : FieldKind
  expected : Nat
  actual : Nat
deriving DecidableEq, Repr

inductive NonceEvolutionError where
  | slotBeforeLast (last attempted : SlotNo)
  | uninitialisedEpochNonce
  | missingLastEpochBlockNonce
deriving DecidableEq, Repr

inductive HeaderValidationError where
  | vrfCert (failure : VrfCertError)
  | opCertCounter (failure : OpCertCounterError)
  | nonce (failure : NonceEvolutionError)
  | slotBeforeLastApplied (last attempted : SlotNo)
  | blockNoOutOfOrder (last attempted : BlockNo)
  | hfc (failure : HFCError)
  | outsideForecastRange (range : OutsideForecastRange)
  | malformedField (failure : FieldError)
  | vrfKeyhashMismatch (expected actual : Hash32)
  | kesInvalid
  | opCertInvalid
deriving DecidableEq

structure StakeFraction where
  numer : UInt64
  denom : UInt64

structure ActiveSlotsCoeff where
  numer : UInt32
  denom : UInt32

structure LedgerView where
  totalActiveStake : EpochNo → Option UInt64
  poolActiveStake : EpochNo → Hash28 → Option UInt64
  poolVrfKeyhash : EpochNo → Hash28 → Option Hash32
  activeSlotsCoeff : EpochNo → Option ActiveSlotsCoeff

inductive LeaderEligibility where
  | enforce
  | trustDurable
deriving DecidableEq, Repr

/-- The hash and the verifiers. A verifier of signatures that fails and one that answers no are
told apart only by the caller. -/
structure Verifiers where
  blake2b256 : Bytes → Hash32
  verifyVrf : VrfVerificationKey → VrfProof → Bytes → Except VrfCertError VrfOutput
  checkLeaderClaim : VrfOutput → StakeFraction → ActiveSlotsCoeff → Except VrfCertError Unit
  verifyOpcert : (coldVkey hotVkey : Bytes) → (sequenceNumber kesPeriod : UInt64) →
    (coldSignature : Bytes) → Option Bool
  verifyKes : (vkey : Bytes) → (period : UInt32) → (signature message : Bytes) → Option Bool

variable (verifiers : Verifiers)

/-! ### Signatures -/

def slotsPerKesPeriod : UInt64 := 129600

def sum6MaxPeriod : UInt32 := 63

def expectSize (kind : FieldKind) (actual expected : Nat) : Except HeaderValidationError Unit :=
  if actual = expected then .ok () else .error (.malformedField ⟨kind, expected, actual⟩)

def verifyHeaderKes (kes : HeaderKes) (slot : SlotNo) (opCertCounter opCertKesPeriod : UInt64) :
    Except HeaderValidationError Unit := do
  expectSize .issuerVkey kes.issuerVkey.length 32
  expectSize .kesVkey kes.kesVkey.length 32
  expectSize .kesSignature kes.kesSignature.length 448
  expectSize .opCertSignature kes.opCertSignature.length 64
  if verifiers.verifyOpcert kes.issuerVkey kes.kesVkey opCertCounter opCertKesPeriod
      kes.opCertSignature ≠ some true then throw .opCertInvalid
  let evolution := (saturatingSub (slot / slotsPerKesPeriod) opCertKesPeriod).toUInt32
  if evolution > sum6MaxPeriod then throw .kesInvalid
  if verifiers.verifyKes kes.kesVkey evolution kes.kesSignature kes.headerBodyBytes ≠ some true then
    throw .kesInvalid

/-! ### Verifiable randomness -/

inductive VrfRole where
  | nonceContribution
  | leaderEligibility

def VrfRole.tagByte : VrfRole → UInt8
  | .nonceContribution => 0x4e
  | .leaderEligibility => 0x4c

def vrfInput (slot : SlotNo) (epochNonce : Nonce) (role : VrfRole) : Bytes :=
  toBeBytes 8 slot.toNat ++ epochNonce.toList ++ [role.tagByte]

def praosVrfInput (slot : SlotNo) (epochNonce : Nonce) : Bytes :=
  (verifiers.blake2b256 (toBeBytes 8 slot.toNat ++ epochNonce.toList)).toList

/-- A hash in the high bytes of a VRF output. -/
def highBytes (hash : Hash32) : VrfOutput := hash ++ Vector.replicate 32 (0 : UInt8)

def praosLeaderValue (output : VrfOutput) : VrfOutput :=
  highBytes (verifiers.blake2b256 (0x4c :: output.toList))

def praosNonceValue (output : VrfOutput) : Nonce :=
  verifiers.blake2b256 (verifiers.blake2b256 (0x4e :: output.toList)).toList

/-- The outputs for the leader threshold and for the nonce. -/
def headerVrfOutputs (state : PraosChainDepState) (header : HeaderInput) :
    Except VrfCertError (VrfOutput × VrfOutput) :=
  match header.vrf with
  | .tpraos nonceProof leaderProof => do
      let nonce ← verifiers.verifyVrf header.vrfVk nonceProof
        (vrfInput header.slot state.epochNonce .nonceContribution)
      let leader ← verifiers.verifyVrf header.vrfVk leaderProof
        (vrfInput header.slot state.epochNonce .leaderEligibility)
      return (leader, nonce)
  | .praos proof output => do
      let recomputed ← verifiers.verifyVrf header.vrfVk proof
        (praosVrfInput verifiers header.slot state.epochNonce)
      if recomputed ≠ output then throw .verificationFailed
      return (praosLeaderValue verifiers recomputed, highBytes (praosNonceValue verifiers recomputed))

def orFailed {α : Type} (found : Option α) : Except VrfCertError α :=
  match found with
  | some value => .ok value
  | none => .error .verificationFailed

def enforceLeaderClaim (ledgerView : LedgerView) (epoch : EpochNo) (pool : Hash28)
    (leaderValue : VrfOutput) : Except VrfCertError Unit := do
  let poolStake ← orFailed (ledgerView.poolActiveStake epoch pool)
  let totalStake ← orFailed (ledgerView.totalActiveStake epoch)
  if totalStake = 0 then throw .verificationFailed
  let asc ← orFailed (ledgerView.activeSlotsCoeff epoch)
  verifiers.checkLeaderClaim leaderValue ⟨poolStake, totalStake⟩ asc

/-! ### Nonces -/

def combine (a b : Nonce) : Nonce := verifiers.blake2b256 (a.toList ++ b.toList)

def nonceValue (output : VrfOutput) : Nonce := output.take 32

def checkContributionSlot (state : PraosChainDepState) (slot : SlotNo) :
    Except NonceEvolutionError Unit :=
  match state.lastSlot with
  | some last => if slot ≤ last then .error (.slotBeforeLast last slot) else .ok ()
  | none => .ok ()

def applyHeaderContribution (state : PraosChainDepState) (slot : SlotNo) (prevBlockHash : Hash32)
    (vrfNonceOutput : VrfOutput) (freezeBoundary : SlotNo) :
    Except NonceEvolutionError PraosChainDepState := do
  checkContributionSlot state slot
  let evolvingNonce := combine verifiers state.evolvingNonce (nonceValue vrfNonceOutput)
  return { state with
    evolvingNonce
    labNonce := prevBlockHash
    candidateNonce := if slot < freezeBoundary then evolvingNonce else state.candidateNonce
    lastSlot := some slot }

/-- Without a stabilisation window the candidate is never frozen. -/
def freezeBoundary (schedule : EraSchedule) (slot : SlotNo) (location : EraLocation) : SlotNo :=
  match schedule.eras[location.eraIndex.toNat]? with
  | none => UInt64.ofNat (2 ^ 64 - 1)
  | some era =>
      match era.randomnessStabilisationWindowSlots with
      | none => UInt64.ofNat (2 ^ 64 - 1)
      | some window =>
          let epochStart := saturatingSub slot location.relativeSlotInEpoch.toUInt64
          saturatingSub (saturatingAdd epochStart era.epochLengthSlots.toUInt64) window.toUInt64

/-! ### Admission -/

def checkSlot (state : PraosChainDepState) (header : HeaderInput) : Except HeaderValidationError Unit :=
  match state.lastSlot with
  | some last =>
      if header.slot ≤ last then .error (.slotBeforeLastApplied last header.slot) else .ok ()
  | none => .ok ()

def checkBlockNo (state : PraosChainDepState) (header : HeaderInput) :
    Except HeaderValidationError Unit :=
  match state.lastBlockNo with
  | some last =>
      if header.blockNo ≤ last then .error (.blockNoOutOfOrder last header.blockNo) else .ok ()
  | none => .ok ()

def checkOpCertCounter (state : PraosChainDepState) (header : HeaderInput) :
    Except HeaderValidationError Unit :=
  match state.opCertCounters[(header.issuerPool, header.opCertKesPeriod)]? with
  | some existing =>
      if header.opCertCounter < existing then
        .error (.opCertCounter (.regression existing header.opCertCounter))
      else .ok ()
  | none => .ok ()

def checkVrfKeyhash (ledgerView : LedgerView) (epoch : EpochNo) (header : HeaderInput) :
    Except HeaderValidationError Unit :=
  match ledgerView.poolVrfKeyhash epoch header.issuerPool with
  | some expected =>
      let actual := verifiers.blake2b256 header.vrfVk.toList
      if actual = expected then .ok () else .error (.vrfKeyhashMismatch expected actual)
  | none => .ok ()

/-- Blocks that are already durable are trusted. -/
def checkLeader (ledgerView : LedgerView) (epoch : EpochNo) (header : HeaderInput)
    (leaderValue : VrfOutput) : LeaderEligibility → Except HeaderValidationError Unit
  | .enforce =>
      (enforceLeaderClaim verifiers ledgerView epoch header.issuerPool leaderValue).mapError .vrfCert
  | .trustDurable => .ok ()

def checkKes (header : HeaderInput) : Except HeaderValidationError Unit :=
  match header.kes with
  | some kes =>
      verifyHeaderKes verifiers kes header.slot header.opCertCounter header.opCertKesPeriod
  | none => .ok ()

structure HeaderApplied where
  newState : PraosChainDepState
  summary : HeaderSummary

def validateAndApplyHeader (state : PraosChainDepState) (header : HeaderInput)
    (ledgerView : LedgerView) (schedule : EraSchedule) (leaderEligibility : LeaderEligibility) :
    Except HeaderValidationError HeaderApplied := do
  (schedule.checkForecastHorizon header.slot).mapError .outsideForecastRange
  checkSlot state header
  checkBlockNo state header
  checkOpCertCounter state header
  let location ← (schedule.locate header.slot).mapError .hfc
  checkVrfKeyhash verifiers ledgerView location.epoch header
  let outputs ← (headerVrfOutputs verifiers state header).mapError .vrfCert
  checkLeader verifiers ledgerView location.epoch header outputs.1 leaderEligibility
  checkKes verifiers header
  let afterOpCert ← (applyOpCert state
    ⟨header.issuerPool, header.opCertKesPeriod, header.opCertCounter⟩).mapError .opCertCounter
  let afterNonce ← (applyHeaderContribution verifiers afterOpCert header.slot header.prevHash
    outputs.2 (freezeBoundary schedule header.slot location)).mapError .nonce
  return {
    newState := { afterNonce with lastBlockNo := some header.blockNo }
    summary := {
      slot := header.slot
      blockNo := header.blockNo
      bodyHash := header.bodyHash
      issuerPool := header.issuerPool
      opCertCounter := header.opCertCounter
      vrfLeaderOutput := outputs.1 } }

end Ade.Consensus
