import Ade.Proof.Ledger.Delegation
import Ade.Ledger.CoinConservation

namespace Ade.Proof.Ledger
open Std (ExtTreeMap)
open Library Ade.Ledger

variable {params : ConwayDepositParams} {origin state next : CertState}

/-! ## Recorded deposits -/

theorem recordedDeposits_registration (params : ConwayDepositParams) {cred : StakeCredential}
    {deposit : Coin} {certIndex : UInt16}
    (applied : applyStakeRegistration state cred deposit certIndex = .ok next) :
    recordedDeposits params next = recordedDeposits params state + deposit.toNat := by
  obtain ⟨fresh, rfl⟩ := applyStakeRegistration_ok applied
  unfold recordedDeposits
  have listed := BTreeMap.toList_insert_perm fresh deposit
  dsimp only
  rw [(listed.map _).sum_eq, List.map_cons, List.sum_cons]
  ring

theorem recordedDeposits_deregistration (params : ConwayDepositParams) {cred : StakeCredential} {certIndex : UInt16}
    (applied : applyStakeDeregistration state cred certIndex = .ok next) :
    recordedDeposits params next = recordedDeposits params state -
      ((state.delegation.registrations[cred]?).getD 0).toNat := by
  obtain ⟨registered, rfl⟩ := applyStakeDeregistration_ok applied
  rw [ExtTreeMap.mem_iff_isSome_getElem?] at registered
  obtain ⟨deposit, found⟩ := Option.isSome_iff_exists.mp registered
  unfold recordedDeposits
  have listed := BTreeMap.toList_perm_erase found
  dsimp only
  rw [(listed.map _).sum_eq, List.map_cons, List.sum_cons, found, Option.getD_some]
  ring

theorem recordedDeposits_poolRegistration (params : ConwayDepositParams) {cert : PoolRegistrationCert}
    (applied : applyPoolRegistration state cert = .ok next) :
    recordedDeposits params next = recordedDeposits params state +
      if state.pool.pools.contains cert.poolId then 0 else (params.poolDeposit.toNat : Int) := by
  unfold applyPoolRegistration at applied
  dsimp only at applied
  by_cases active : state.pool.pools.contains cert.poolId
  · rw [if_pos active] at applied ⊢
    cases applied
    exact (add_zero _).symm
  · rw [if_neg active] at applied ⊢
    cases applied
    unfold recordedDeposits
    dsimp only
    rw [ExtTreeMap.size_insert, if_neg active]
    push_cast
    ring

theorem applyPoolRegistration_tables {cert : PoolRegistrationCert}
    (applied : applyPoolRegistration state cert = .ok next) :
    next.delegation.registrations = state.delegation.registrations ∧
      ∀ poolId, poolId ∈ next.pool.pools ↔ cert.poolId = poolId ∨ poolId ∈ state.pool.pools := by
  unfold applyPoolRegistration at applied
  dsimp only at applied
  split_ifs at applied with active
  · cases applied
    refine ⟨rfl, fun poolId => ⟨.inr, ?_⟩⟩
    rintro (rfl | member)
    · exact ExtTreeMap.contains_iff_mem.mp active
    · exact member
  · cases applied
    exact ⟨rfl, fun poolId => BTreeMap.mem_insert⟩

/-! ## The state after the earlier certificates -/

/-- `earlier` is newest first. -/
structure Follows (params : ConwayDepositParams) (origin : CertState) (earlier : List ConwayCert)
    (state : CertState) : Prop where
  held : ∀ (cred : StakeCredential) (deposit : Coin),
    state.delegation.registrations[cred]? = some deposit →
      depositHeld params.keyDeposit origin earlier cred = deposit
  pools : ∀ poolId : PoolId, poolId ∈ state.pool.pools ↔
    poolId ∈ origin.pool.pools ∨ earlier.any (ConwayCert.registersPool poolId)

theorem follows_nil : Follows params origin [] origin where
  held := by
    intro cred deposit found
    simp [depositHeld, found]
  pools := by simp

/-- A certificate that registers nothing leaves the held deposits and the pools alone. -/
theorem Follows.skip {earlier : List ConwayCert} (follows : Follows params origin earlier state)
    {cert : ConwayCert} (noDeposit : ∀ cred, cert.registers params.keyDeposit cred = none)
    (noPool : ∀ poolId, cert.registersPool poolId = false)
    (kept : ∀ (cred : StakeCredential) (deposit : Coin),
      next.delegation.registrations[cred]? = some deposit →
        state.delegation.registrations[cred]? = some deposit)
    (pools : ∀ poolId, poolId ∈ next.pool.pools ↔ poolId ∈ state.pool.pools) :
    Follows params origin (cert :: earlier) next where
  held := by
    intro cred deposit found
    rw [← follows.held cred deposit (kept cred deposit found)]
    simp only [depositHeld, List.findSome?_cons, noDeposit cred]
  pools := by
    intro poolId
    rw [pools, follows.pools, List.any_cons, noPool, Bool.false_or]

theorem Follows.register {earlier : List ConwayCert} (follows : Follows params origin earlier state)
    {cert : ConwayCert} {cred : StakeCredential} {deposit : Coin}
    (registers : ∀ other, cert.registers params.keyDeposit other =
      if cred = other then some deposit else none)
    (noPool : ∀ poolId, cert.registersPool poolId = false)
    (inserted : next.delegation.registrations =
      state.delegation.registrations.insert cred deposit)
    (pools : next.pool.pools = state.pool.pools) :
    Follows params origin (cert :: earlier) next where
  held := by
    intro other held found
    rw [inserted, BTreeMap.getElem?_insert] at found
    simp only [depositHeld, List.findSome?_cons, registers other]
    split_ifs at found ⊢ with same
    · cases found
      rfl
    · exact follows.held other held found
  pools := by
    intro poolId
    rw [pools, follows.pools, List.any_cons, noPool, Bool.false_or]

/-! ## One certificate -/

def net : CertDisposition → Int
  | .accountable (.newDeposit source) => (coinOf source).toNat
  | .accountable (.refund source) => -(coinOf source).toNat
  | .neutral | .notValidInConway => 0

/-- What a certificate is counted for, less what it records, is what is miscounted. -/
def Accounts (params : ConwayDepositParams) (origin : CertState) (earlier : List ConwayCert)
    (cert : ConwayCert) (counted : Int) (state next : CertState) : Prop :=
  counted - (recordedDeposits params next - recordedDeposits params state) =
      miscounted params origin earlier cert ∧
    Follows params origin (cert :: earlier) next

/-- The accounts look only at the registrations and the pools. -/
theorem Accounts.of_same {earlier : List ConwayCert} {cert : ConwayCert} {counted : Int}
    {middle : CertState} (accounts : Accounts params origin earlier cert counted state middle)
    (registrations : next.delegation.registrations = middle.delegation.registrations)
    (pools : next.pool.pools = middle.pool.pools) :
    Accounts params origin earlier cert counted state next := by
  obtain ⟨balance, follows⟩ := accounts
  have recorded : recordedDeposits params next = recordedDeposits params middle := by
    unfold recordedDeposits
    rw [registrations, pools]
  constructor
  · rw [recorded]
    exact balance
  · constructor
    · rw [registrations]
      exact follows.held
    · rw [pools]
      exact follows.pools

theorem Accounts.delegate {earlier : List ConwayCert} {cert : ConwayCert} {counted : Int}
    {middle : CertState} (accounts : Accounts params origin earlier cert counted state middle)
    {cred : StakeCredential} {poolId : PoolId} {certIndex : UInt16}
    (applied : applyStakeDelegation middle cred poolId certIndex = .ok next) :
    Accounts params origin earlier cert counted state next := by
  obtain ⟨-, -, rfl⟩ := applyStakeDelegation_ok applied
  exact accounts.of_same rfl rfl

section Effects

variable {earlier : List ConwayCert} (follows : Follows params origin earlier state)
  {cert : ConwayCert}

include follows

theorem accounts_registration {cred : StakeCredential} {deposit : Coin} {certIndex : UInt16}
    (applied : applyStakeRegistration state cred deposit certIndex = .ok next)
    (registers : ∀ other, cert.registers params.keyDeposit other =
      if cred = other then some deposit else none)
    (noPool : ∀ poolId, cert.registersPool poolId = false)
    (agrees : miscounted params origin earlier cert = 0) :
    Accounts params origin earlier cert deposit.toNat state next := by
  have recorded := recordedDeposits_registration params applied
  obtain ⟨-, rfl⟩ := applyStakeRegistration_ok applied
  constructor
  · rw [agrees, recorded]
    ring
  · exact follows.register registers noPool rfl rfl

theorem accounts_deregistration {cred : StakeCredential} {certIndex : UInt16} {refund : Coin}
    (applied : applyStakeDeregistration state cred certIndex = .ok next)
    (registers : ∀ other, cert.registers params.keyDeposit other = none)
    (noPool : ∀ poolId, cert.registersPool poolId = false)
    (differs : miscounted params origin earlier cert =
      (depositHeld params.keyDeposit origin earlier cred).toNat - refund.toNat) :
    Accounts params origin earlier cert (-refund.toNat) state next := by
  have recorded := recordedDeposits_deregistration params applied
  obtain ⟨registered, rfl⟩ := applyStakeDeregistration_ok applied
  rw [ExtTreeMap.mem_iff_isSome_getElem?] at registered
  obtain ⟨deposit, found⟩ := Option.isSome_iff_exists.mp registered
  constructor
  · rw [differs, recorded, follows.held cred deposit found, found, Option.getD_some]
    ring
  · apply follows.skip registers noPool
    · intro other held kept
      rw [BTreeMap.getElem?_erase] at kept
      split_ifs at kept
      exact kept
    · intro poolId
      rfl

theorem accounts_unchanged (registers : ∀ other, cert.registers params.keyDeposit other = none)
    (noPool : ∀ poolId, cert.registersPool poolId = false)
    (agrees : miscounted params origin earlier cert = 0) :
    Accounts params origin earlier cert 0 state state := by
  constructor
  · rw [agrees]
    ring
  · exact follows.skip registers noPool (fun _ _ found => found) (fun _ => Iff.rfl)

theorem accounts_poolRegistration {pool : PoolRegistrationCert}
    (applied : applyPoolRegistration state pool = .ok next) :
    Accounts params origin earlier (.poolRegistration pool)
      (if origin.pool.pools.contains pool.poolId then 0 else params.poolDeposit.toNat) state next := by
  have recorded := recordedDeposits_poolRegistration params applied
  have listed : state.pool.pools.contains pool.poolId ↔
      origin.pool.pools.contains pool.poolId ∨
        earlier.any (ConwayCert.registersPool pool.poolId) := by
    rw [ExtTreeMap.contains_iff_mem, ExtTreeMap.contains_iff_mem]
    exact follows.pools pool.poolId
  constructor
  · rw [recorded, miscounted]
    by_cases before : origin.pool.pools.contains pool.poolId
    · simp [before, listed]
    · by_cases repeated : earlier.any (ConwayCert.registersPool pool.poolId)
      · simp [before, repeated, listed]
      · simp [before, repeated, listed]
  · obtain ⟨registrations, pools⟩ := applyPoolRegistration_tables applied
    constructor
    · intro cred deposit found
      rw [registrations] at found
      exact follows.held cred deposit found
    · intro poolId
      rw [pools, follows.pools, List.any_cons, Bool.or_eq_true]
      show _ ↔ _ ∨ decide (pool.poolId = poolId) = true ∨ _
      rw [decide_eq_true_eq]
      exact or_left_comm

theorem accounts_cert {certIndex : UInt16} {outcome : ConwayCertOutcome}
    {disposition : CertDisposition} (stakeOrPool : cert.isStakeOrPool)
    (classified : classify cert params origin = .ok disposition)
    (accepted : applyConwayCert state cert ⟨params.keyDeposit, certIndex⟩ = .ok outcome) :
    Accounts params origin earlier cert (net disposition) state outcome.state := by
  cases cert with
  | accountRegistration credential =>
      obtain ⟨registered, applied, returned⟩ := bind_ok accepted
      cases returned
      cases classified
      exact accounts_registration follows applied (fun _ => rfl) (fun _ => rfl) rfl
  | accountRegistrationDeposit credential deposit =>
      obtain ⟨registered, applied, returned⟩ := bind_ok accepted
      cases returned
      cases classified
      exact accounts_registration follows applied (fun _ => rfl) (fun _ => rfl) rfl
  | stakeRegistrationDelegation credential poolId deposit =>
      obtain ⟨registered, applied, rest⟩ := bind_ok accepted
      obtain ⟨delegated, delegating, returned⟩ := bind_ok rest
      cases returned
      cases classified
      apply Accounts.delegate _ delegating
      exact accounts_registration follows applied (fun _ => rfl) (fun _ => rfl) rfl
  | voteRegistrationDelegation credential drep deposit =>
      obtain ⟨registered, applied, returned⟩ := bind_ok accepted
      cases returned
      cases classified
      exact accounts_registration follows applied (fun _ => rfl) (fun _ => rfl) rfl
  | stakeVoteRegistrationDelegation credential poolId drep deposit =>
      obtain ⟨registered, applied, rest⟩ := bind_ok accepted
      obtain ⟨delegated, delegating, returned⟩ := bind_ok rest
      cases returned
      cases classified
      apply Accounts.delegate _ delegating
      exact accounts_registration follows applied (fun _ => rfl) (fun _ => rfl) rfl
  | accountUnregistration credential =>
      obtain ⟨removed, applied, returned⟩ := bind_ok accepted
      cases returned
      rw [classify] at classified
      cases recorded : origin.delegation.registrations[credential]? with
      | none => simp [recorded] at classified
      | some refund =>
          simp only [recorded, Except.ok.injEq] at classified
          cases classified
          apply accounts_deregistration follows applied (fun _ => rfl) (fun _ => rfl)
          rw [miscounted, recorded, Option.getD_some]
          rfl
  | accountUnregistrationDeposit credential refund =>
      obtain ⟨removed, applied, returned⟩ := bind_ok accepted
      cases returned
      cases classified
      exact accounts_deregistration follows applied (fun _ => rfl) (fun _ => rfl) rfl
  | stakeDelegation credential poolId =>
      obtain ⟨delegated, applied, returned⟩ := bind_ok accepted
      cases returned
      cases classified
      exact (accounts_unchanged follows (fun _ => rfl) (fun _ => rfl) rfl).delegate applied
  | stakeVoteDelegation credential poolId drep =>
      obtain ⟨delegated, applied, returned⟩ := bind_ok accepted
      cases returned
      cases classified
      exact (accounts_unchanged follows (fun _ => rfl) (fun _ => rfl) rfl).delegate applied
  | poolRegistration pool =>
      obtain ⟨registered, applied, returned⟩ := bind_ok accepted
      cases returned
      have accounts := accounts_poolRegistration follows applied
      rw [classify] at classified
      split_ifs at classified accounts with before
      · cases classified
        exact accounts
      · cases classified
        exact accounts
  | poolRetirement poolId epoch =>
      obtain ⟨retired, applied, returned⟩ := bind_ok accepted
      cases returned
      cases classified
      obtain ⟨-, rfl⟩ := applyPoolRetirement_ok applied
      exact (accounts_unchanged follows (fun _ => rfl) (fun _ => rfl) rfl).of_same rfl rfl
  | drepRegistration | drepUnregistration => cases stakeOrPool
  | removedInConway tag => cases accepted
  | voteDelegation | authCommitteeHot | resignCommitteeCold | drepUpdate =>
      cases accepted
      cases classified
      exact accounts_unchanged follows (fun _ => rfl) (fun _ => rfl) rfl

end Effects

/-! ## All certificates -/

/-- Totals of at most `count` coins. -/
structure Bounded (count : Nat) (totals : DepositTotals) : Prop where
  newDeposits : 0 ≤ totals.newDeposits ∧ totals.newDeposits ≤ count * 2 ^ 64
  refundedDeposits : 0 ≤ totals.refundedDeposits ∧ totals.refundedDeposits ≤ count * 2 ^ 64

theorem saturatingAddI128_coin {count : Nat} (short : count + 1 < 2 ^ 63) {total : Int}
    (bounded : 0 ≤ total ∧ total ≤ count * 2 ^ 64) (coin : Coin) :
    saturatingAddI128 total coin.toNat = total + coin.toNat ∧
      0 ≤ total + coin.toNat ∧ total + coin.toNat ≤ (count + 1 : Nat) * 2 ^ 64 := by
  have small := coin.toNat_lt
  unfold saturatingAddI128
  omega

theorem accountCert_net {count : Nat} (short : count + 1 < 2 ^ 63) {totals : DepositTotals}
    (bounded : Bounded count totals) {cert : ConwayCert} {disposition : CertDisposition}
    (classified : classify cert params origin = .ok disposition) :
    ∃ result, accountCert params origin totals cert = .ok result ∧ Bounded (count + 1) result ∧
      result.newDeposits - result.refundedDeposits =
        totals.newDeposits - totals.refundedDeposits + net disposition := by
  have widen : ∀ {total : Int}, 0 ≤ total ∧ total ≤ count * 2 ^ 64 →
      0 ≤ total ∧ total ≤ (count + 1 : Nat) * 2 ^ 64 := by
    intro total held
    push_cast
    omega
  unfold accountCert classifyOrFail
  rw [classified]
  cases disposition with
  | accountable effect =>
      cases effect with
      | newDeposit source =>
          obtain ⟨exactly, fits⟩ := saturatingAddI128_coin short bounded.newDeposits (coinOf source)
          refine ⟨_, rfl, ⟨?_, widen bounded.refundedDeposits⟩, ?_⟩
          · rw [exactly]
            exact fits
          · dsimp only [net]
            rw [exactly]
            ring
      | refund source =>
          obtain ⟨exactly, fits⟩ :=
            saturatingAddI128_coin short bounded.refundedDeposits (coinOf source)
          refine ⟨_, rfl, ⟨widen bounded.newDeposits, ?_⟩, ?_⟩
          · rw [exactly]
            exact fits
          · dsimp only [net]
            rw [exactly]
            ring
  | neutral | notValidInConway =>
      exact ⟨_, rfl, ⟨widen bounded.newDeposits, widen bounded.refundedDeposits⟩, (add_zero _).symm⟩

/-- A certificate of a representative changes nothing here. -/
theorem follows_drep {earlier : List ConwayCert} (follows : Follows params origin earlier state)
    {cert : ConwayCert} (other : cert.isStakeOrPool = false) {env : ConwayCertEnv}
    {outcome : ConwayCertOutcome} (accepted : applyConwayCert state cert env = .ok outcome) :
    outcome.state = state ∧ miscounted params origin earlier cert = 0 ∧
      Follows params origin (cert :: earlier) state := by
  cases cert with
  | drepRegistration | drepUnregistration =>
      cases accepted
      exact ⟨rfl, rfl, follows.skip (fun _ => rfl) (fun _ => rfl) (fun _ _ found => found)
        (fun _ => Iff.rfl)⟩
  | _ => cases other

theorem accounts_certs {certs earlier : List ConwayCert} {index count : Nat}
    {totals : DepositTotals} {final : CertState} (follows : Follows params origin earlier state)
    (short : count + certs.length < 2 ^ 63) (bounded : Bounded count totals)
    (classified : ∀ cert ∈ certs, ∃ disposition, classify cert params origin = .ok disposition)
    (applied : applyConwayCertsFrom params.keyDeposit index certs state = .ok final) :
    ∃ result, (certs.filter ConwayCert.isStakeOrPool).foldlM (accountCert params origin) totals =
        .ok result ∧
      result.newDeposits - result.refundedDeposits -
          (recordedDeposits params final - recordedDeposits params state) =
        totals.newDeposits - totals.refundedDeposits +
          totalMiscounted params origin earlier certs := by
  induction certs generalizing earlier index count totals state with
  | nil =>
      cases applied
      exact ⟨totals, rfl, by simp [totalMiscounted]⟩
  | cons cert certs ih =>
      obtain ⟨outcome, accepted, rest⟩ := bind_ok applied
      obtain ⟨disposition, disposed⟩ := classified cert (List.mem_cons_self ..)
      have classifiedRest := fun other member => classified other (List.mem_cons_of_mem _ member)
      rw [List.length_cons] at short
      by_cases stakeOrPool : cert.isStakeOrPool
      · obtain ⟨balance, followsNext⟩ := accounts_cert follows stakeOrPool disposed accepted
        obtain ⟨middle, counted, boundedNext, step⟩ :=
          accountCert_net (by omega) bounded disposed
        obtain ⟨result, folded, total⟩ :=
          ih followsNext (by omega) boundedNext classifiedRest rest
        refine ⟨result, ?_, ?_⟩
        · rw [List.filter_cons_of_pos stakeOrPool, List.foldlM_cons, counted]
          exact folded
        · rw [totalMiscounted, ← balance]
          linarith
      · have other : cert.isStakeOrPool = false := by simpa using stakeOrPool
        obtain ⟨same, agrees, followsNext⟩ := follows_drep follows other accepted
        rw [same] at rest
        obtain ⟨result, folded, total⟩ := ih followsNext (by omega) bounded classifiedRest rest
        refine ⟨result, ?_, ?_⟩
        · rw [List.filter_cons_of_neg stakeOrPool]
          exact folded
        · rw [totalMiscounted, agrees, zero_add]
          exact total

theorem classified_of_accepted {decoders : BodyDecoders} {body : ConwayTxBody}
    {utxo : TxIn → Option Coin} {certs : List ConwayCert}
    (accepted : checkConwayCoinConservation decoders body utxo params state = .ok ())
    (decoded : bodyCerts decoders body = .ok certs) :
    ∀ cert ∈ certs, ∃ disposition, classify cert params state = .ok disposition := by
  intro cert member
  obtain ⟨withdrawals, -, accepted⟩ := bind_ok accepted
  obtain ⟨listed, same, accepted⟩ := bind_ok accepted
  rw [decoded] at same
  cases same
  obtain ⟨done, swept, -⟩ := bind_ok accepted
  rw [← List.zipIdx_map_fst 0 certs] at member
  obtain ⟨indexed, indexedMember, rfl⟩ := List.mem_map.mp member
  obtain ⟨disposition, classified, -⟩ := bind_ok (of_forM_ok swept indexed indexedMember)
  refine ⟨disposition, ?_⟩
  unfold classifyOrFail at classified
  cases result : classify indexed.1 params state with
  | error unsupported =>
      rw [result] at classified
      cases classified
  | ok found =>
      rw [result] at classified
      cases classified
      rfl

/-- For an accepted body whose certificates all apply, the value equation counts the change of the
recorded deposits exactly when what it miscounts adds up to nothing. The bound on the number of
certificates is the one on the length of a `Vec`. -/
theorem countedDeposits_eq_recorded_iff (decoders : BodyDecoders) (body : ConwayTxBody)
    (utxo : TxIn → Option Coin) (params : ConwayDepositParams) (state final : CertState)
    (certs : List ConwayCert)
    (accepted : checkConwayCoinConservation decoders body utxo params state = .ok ())
    (decoded : bodyCerts decoders body = .ok certs) (short : certs.length < 2 ^ 63)
    (applied : applyConwayCerts params.keyDeposit certs state = .ok final) :
    ∃ totals, accountCerts params state (certs.filter ConwayCert.isStakeOrPool) = .ok totals ∧
      (totals.newDeposits - totals.refundedDeposits =
          recordedDeposits params final - recordedDeposits params state ↔
        totalMiscounted params state [] certs = 0) := by
  have classified := classified_of_accepted accepted decoded
  have empty : Bounded 0 ⟨0, 0⟩ := ⟨by simp, by simp⟩
  obtain ⟨totals, counted, balance⟩ :=
    accounts_certs follows_nil (by omega) empty classified applied
  refine ⟨totals, counted, ?_⟩
  simp only [sub_zero, zero_add] at balance
  rw [← balance, sub_eq_zero]

/-! ## An unregistration that states its refund -/

def sampleUnregistration (refund : Coin) : ConwayCert :=
  .accountUnregistrationDeposit sampleCredential refund

/-- The encoding of a list of this one certificate. -/
def sampleCertBytes (refund : UInt8) : Bytes :=
  [0x81, 0x83, 0x08, 0x82, 0x00, 0x58, 0x1c] ++ List.replicate 28 7 ++ [refund]

def sampleDecoders : BodyDecoders where
  decodeConwayCerts bytes :=
    if bytes = sampleCertBytes 2 then .ok [sampleUnregistration 2]
    else if bytes = sampleCertBytes 5 then .ok [sampleUnregistration 5]
    else .error (.unexpectedEof 0 1)
  withdrawalsTotal _ := .error (.unexpectedEof 0 1)

/-- The refund pays the fee. -/
def sampleBody (refund : UInt8) : ConwayTxBody where
  inputs := [⟨Vector.replicate 32 1, 0⟩]
  outputs := [1000]
  fee := refund.toUInt64
  certs := some (sampleCertBytes refund)
  withdrawals := none
  donation := none

def sampleParams : ConwayDepositParams := ⟨2, 500⟩

/-- The credential is registered with a deposit of 2. -/
def sampleAccount : CertState :=
  { CertState.new with
    delegation := ⟨(∅ : BTreeMap StakeCredential Coin).insert sampleCredential 2, ∅,
      (∅ : BTreeMap StakeCredential Coin).insert sampleCredential 0⟩ }

theorem countedDeposits_eq_recorded_at_recorded_refund :
    ∃ totals, accountCerts sampleParams sampleAccount
        ([sampleUnregistration 2].filter ConwayCert.isStakeOrPool) = .ok totals ∧
      (totals.newDeposits - totals.refundedDeposits =
          recordedDeposits sampleParams CertState.new -
            recordedDeposits sampleParams sampleAccount ↔
        totalMiscounted sampleParams sampleAccount [] [sampleUnregistration 2] = 0) :=
  countedDeposits_eq_recorded_iff sampleDecoders (sampleBody 2) (fun _ => some 1000) sampleParams
    sampleAccount CertState.new [sampleUnregistration 2] rfl rfl
    (by decide) (by decide +kernel)

/-- A refund of 5 is accepted where 2 was deposited. -/
theorem countedDeposits_exceed_recorded :
    checkConwayCoinConservation sampleDecoders (sampleBody 5) (fun _ => some 1000) sampleParams
        sampleAccount = .ok () ∧
      bodyCerts sampleDecoders (sampleBody 5) = .ok [sampleUnregistration 5] ∧
      applyConwayCerts sampleParams.keyDeposit [sampleUnregistration 5] sampleAccount =
        .ok CertState.new ∧
      accountCerts sampleParams sampleAccount
        ([sampleUnregistration 5].filter ConwayCert.isStakeOrPool) = .ok ⟨0, 5⟩ ∧
      (0 : Int) - 5 ≠ recordedDeposits sampleParams CertState.new -
        recordedDeposits sampleParams sampleAccount := by
  refine ⟨?_, ?_, ?_, ?_, ?_⟩ <;> decide +kernel

end Ade.Proof.Ledger
