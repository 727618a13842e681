import Ade.Proof.Ledger.CoinConservation
import Ade.Ledger.ProposalDeposits

namespace Ade.Proof.Ledger
open Library Ade.Ledger

variable {params : ConwayDepositParams} {state : CertState}

/-! ## Sums without saturation -/

/-- At most `count` coins. -/
def Sums (count : Nat) (total : Int) : Prop := 0 ≤ total ∧ total ≤ count * 2 ^ 64

theorem sums_zero : Sums 0 0 := ⟨le_rfl, by simp⟩

theorem Sums.coin {count : Nat} {total : Int} (sums : Sums count total) (coin : Coin) :
    Sums (count + 1) (total + coin.toNat) := by
  have small := coin.toNat_lt
  unfold Sums at *
  push_cast
  omega

theorem sumOfCoins_cons (coin : Coin) (coins : List Coin) :
    sumOfCoins (coin :: coins) = coin.toNat + sumOfCoins coins := rfl

theorem sums_sumOfCoins (coins : List Coin) : Sums coins.length (sumOfCoins coins) := by
  induction coins with
  | nil => exact sums_zero
  | cons coin coins ih =>
      rw [sumOfCoins_cons, add_comm, List.length_cons]
      exact ih.coin coin

theorem sumOfCoins_eq_zero {coins : List Coin} :
    sumOfCoins coins = 0 ↔ ∀ coin ∈ coins, coin = 0 := by
  induction coins with
  | nil => simp [sumOfCoins]
  | cons coin coins ih =>
      have nonneg := (sums_sumOfCoins coins).1
      rw [sumOfCoins_cons, List.forall_mem_cons, ← ih, ← UInt64.toNat_inj]
      show _ ↔ coin.toNat = 0 ∧ _
      omega

theorem Sums.add {count other : Nat} {total amount : Int} (sums : Sums count total)
    (added : Sums other amount) : Sums (count + other) (total + amount) := by
  unfold Sums at *
  push_cast
  omega

theorem Sums.saturating {count : Nat} {total amount : Int} (sums : Sums count (total + amount))
    (short : count < 2 ^ 63) : saturatingAddI128 total amount = total + amount := by
  unfold Sums at sums
  unfold saturatingAddI128
  omega

theorem sumCoins_eq {count : Nat} {start : Int} {coins : List Coin} (sums : Sums count start)
    (short : count + coins.length < 2 ^ 63) : sumCoins start coins = start + sumOfCoins coins := by
  induction coins generalizing count start with
  | nil => exact (add_zero start).symm
  | cons coin coins ih =>
      rw [List.length_cons] at short
      have first : saturatingAddI128 start coin.toNat = start + coin.toNat :=
        (sums.coin coin).saturating (by omega)
      have rest := ih (sums.coin coin) (by omega)
      rw [sumOfCoins_cons, ← add_assoc, ← rest]
      unfold sumCoins
      rw [List.foldl_cons, first]

/-! ## Certificates -/

theorem accountCert_eq {count : Nat} (short : count + 1 < 2 ^ 63) {totals : DepositTotals}
    (deposits : Sums count totals.newDeposits) (refunds : Sums count totals.refundedDeposits)
    {cert : ConwayCert} {disposition : CertDisposition}
    (classified : classify cert params state = .ok disposition) :
    accountCert params state totals cert =
      .ok ⟨totals.newDeposits + (certDeposit params state cert).toNat,
        totals.refundedDeposits + (certRefund params state cert).toNat⟩ := by
  unfold accountCert classifyOrFail certDeposit certRefund
  rw [classified]
  cases disposition with
  | accountable effect =>
      cases effect with
      | newDeposit source =>
          have exactly := (deposits.coin (coinOf source)).saturating short
          show Except.ok (DepositTotals.mk _ _) = _
          rw [exactly]
          simp
      | refund source =>
          have exactly := (refunds.coin (coinOf source)).saturating short
          show Except.ok (DepositTotals.mk _ _) = _
          rw [exactly]
          simp
  | neutral | notValidInConway =>
      simp [Except.mapError, bind, Except.bind, pure, Except.pure]

theorem foldlM_accountCert_eq {certs : List ConwayCert} {count : Nat} {totals : DepositTotals}
    (deposits : Sums count totals.newDeposits) (refunds : Sums count totals.refundedDeposits)
    (short : count + certs.length < 2 ^ 63)
    (classified : ∀ cert ∈ certs, ∃ disposition, classify cert params state = .ok disposition) :
    certs.foldlM (accountCert params state) totals =
      .ok ⟨totals.newDeposits + sumOfCoins (certs.map (certDeposit params state)),
        totals.refundedDeposits + sumOfCoins (certs.map (certRefund params state))⟩ := by
  induction certs generalizing count totals with
  | nil => simp [sumOfCoins, pure, Except.pure]
  | cons cert certs ih =>
      rw [List.length_cons] at short
      obtain ⟨disposition, disposed⟩ := classified cert (List.mem_cons_self ..)
      have counted := accountCert_eq (by omega) deposits refunds disposed
      have rest := @ih (count + 1) ⟨_, _⟩ (deposits.coin (certDeposit params state cert))
        (refunds.coin (certRefund params state cert)) (by omega)
        fun other member => classified other (List.mem_cons_of_mem _ member)
      rw [List.foldlM_cons, counted]
      simp only [List.map_cons, sumOfCoins_cons, ← add_assoc]
      exact rest

/-! ## The two sides -/

theorem consumed_exactly {flows : CoinFlows} (fits : flows.FitsMemory) :
    saturatingAddI128 (saturatingAddI128 (sumCoins 0 flows.inputs) (sumOfCoins flows.withdrawals))
      (sumOfCoins flows.refunds) = flows.consumed := by
  obtain ⟨inputs, withdrawals, ⟨refunds, -⟩, -⟩ := fits
  have resolved : sumCoins 0 flows.inputs = sumOfCoins flows.inputs := by
    rw [sumCoins_eq sums_zero (by omega), zero_add]
  have withdrawn :=
    (sums_sumOfCoins flows.inputs).add (sums_sumOfCoins flows.withdrawals)
  have refunded := withdrawn.add (sums_sumOfCoins flows.refunds)
  rw [resolved, withdrawn.saturating (by omega), refunded.saturating (by omega)]
  rfl

theorem sumOfCoins_append (coins others : List Coin) :
    sumOfCoins (coins ++ others) = sumOfCoins coins + sumOfCoins others := by
  unfold sumOfCoins
  rw [List.map_append, List.sum_append]

theorem produced_exactly {flows : CoinFlows} (fits : flows.FitsMemory) :
    saturatingAddI128 (sumCoins flows.fee.toNat (flows.outputs ++ flows.donation.toList))
      (sumOfCoins flows.certDeposits) = flows.producedBesides := by
  obtain ⟨-, -, ⟨-, deposits⟩, outputs⟩ := fits
  have fee : Sums 1 flows.fee.toNat := by simpa using sums_zero.coin flows.fee
  have donation : flows.donation.toList.length ≤ 1 := Option.length_toList_le
  have paid : (flows.outputs ++ flows.donation.toList).length ≤ flows.outputs.length + 1 := by
    rw [List.length_append]
    omega
  have spent := fee.add (sums_sumOfCoins (flows.outputs ++ flows.donation.toList))
  have deposited := spent.add (sums_sumOfCoins flows.certDeposits)
  rw [sumCoins_eq fee (by omega), deposited.saturating (by omega), sumOfCoins_append]
  unfold CoinFlows.producedBesides
  ring

/-! ## The equation that is checked -/

section

variable {body : Codec.ConwayTxBody Codec.ProposalProcedure} {utxo : TxIn → Option Coin}
  {withdrawals : BTreeMap RewardAccount Coin} {certs : List ConwayCert}

theorem bodyWithdrawals_eq (decoded : decodedWithdrawals (coinFields body) = .ok withdrawals) :
    bodyWithdrawals conwayDecoders (coinFields body) = .ok (withdrawalsSum withdrawals) := by
  unfold decodedWithdrawals at decoded
  unfold bodyWithdrawals
  cases present : (coinFields body).withdrawals with
  | none =>
      rw [present] at decoded
      cases decoded
      rfl
  | some bytes =>
      simp only [present] at decoded ⊢
      have read := mapError_ok decoded
      simp only [conwayDecoders, read]
      rfl

/-- The sums of an accepted body are exact, and they agree without the deposits of the proposals. -/
theorem consumed_eq_producedBesides
    (accepted : checkConwayCoinConservation conwayDecoders (coinFields body) utxo params state =
      .ok ())
    (listed : decodedWithdrawals (coinFields body) = .ok withdrawals)
    (decoded : bodyCerts conwayDecoders (coinFields body) = .ok certs)
    (fits : (coinFlows body utxo params state withdrawals certs).FitsMemory) :
    (coinFlows body utxo params state withdrawals certs).consumed =
      (coinFlows body utxo params state withdrawals certs).producedBesides := by
  have classified := classified_of_accepted accepted decoded
  have short : 0 + certs.length < 2 ^ 63 := by
    have few := fits.certs.1
    rw [coinFlows, List.length_map] at few
    omega
  have counted := @foldlM_accountCert_eq params state certs 0 ⟨0, 0⟩ sums_zero sums_zero short
    classified
  dsimp only at counted
  rw [zero_add, zero_add] at counted
  obtain ⟨withdrawnTotal, withdrew, accepted⟩ := bind_ok accepted
  cases (bodyWithdrawals_eq listed).symm.trans withdrew
  obtain ⟨certs', same, accepted⟩ := bind_ok accepted
  cases decoded.symm.trans same
  obtain ⟨-, -, accepted⟩ := bind_ok accepted
  obtain ⟨totals, folded, accepted⟩ := bind_ok accepted
  cases counted.symm.trans folded
  rw [← consumed_exactly fits, ← produced_exactly fits]
  dsimp only at accepted
  split_ifs at accepted with differ
  exact not_not.mp differ

/-- An accepted body whose lists fit the memory balances exactly if its proposals deposit nothing:
their deposits are in no term of the equation, and every other term is exact. -/
theorem accepted_balances_iff
    (accepted : checkConwayCoinConservation conwayDecoders (coinFields body) utxo params state =
      .ok ())
    (listed : decodedWithdrawals (coinFields body) = .ok withdrawals)
    (decoded : bodyCerts conwayDecoders (coinFields body) = .ok certs)
    (fits : (coinFlows body utxo params state withdrawals certs).FitsMemory) :
    (coinFlows body utxo params state withdrawals certs).Balanced ↔
      ∀ proposal ∈ body.proposalProcedures.getD [], proposal.deposit = 0 := by
  unfold CoinFlows.Balanced
  rw [consumed_eq_producedBesides accepted listed decoded fits, left_eq_add, sumOfCoins_eq_zero]
  exact List.forall_mem_map

end

/-! ## A proposal that nobody pays for -/

def spentInput : TxIn := ⟨Vector.replicate 32 1, 0⟩

def sampleInformation (deposit : Coin) : Codec.ProposalProcedure where
  deposit
  returnAddr := 0xe0 :: List.replicate 28 7
  govAction := .infoAction
  anchor := ⟨[0x82, 0x60, 0x58, 0x20] ++ List.replicate 32 0⟩

/-- An input of 1000 pays for an output of 990 and a fee of 10. -/
def proposingBody (deposit : Coin) : Codec.ConwayTxBody Codec.ProposalProcedure where
  inputs := (∅ : BTreeSet TxIn).insert spentInput
  outputs := [⟨0x60 :: List.replicate 28 9, 990, none, none, none⟩]
  fee := 10
  ttl := none
  certs := none
  withdrawals := none
  metadataHash := none
  validityIntervalStart := none
  mint := none
  scriptDataHash := none
  collateralInputs := none
  requiredSigners := none
  networkId := none
  collateralReturn := none
  totalCollateral := none
  referenceInputs := none
  votingProcedures := none
  proposalProcedures := some [sampleInformation deposit]
  treasuryValue := none
  donation := none

def spentHoldings (txin : TxIn) : Option Coin := if txin = spentInput then some 1000 else none

def proposingFlows (deposit : Coin) : CoinFlows :=
  coinFlows (proposingBody deposit) spentHoldings sampleParams sampleAccount ∅ []

theorem proposing_accepted (deposit : Coin) :
    checkConwayCoinConservation conwayDecoders (coinFields (proposingBody deposit)) spentHoldings
      sampleParams sampleAccount = .ok () := by
  show checkConwayCoinConservation conwayDecoders (coinFields (proposingBody 0)) spentHoldings
    sampleParams sampleAccount = .ok ()
  decide

theorem proposing_fits (deposit : Coin) : (proposingFlows deposit).FitsMemory where
  inputs := (by decide : 1 < 2 ^ 61)
  withdrawals := (by decide : 0 < 2 ^ 61)
  certs := ⟨(by decide : 0 < 2 ^ 61), (by decide : 0 < 2 ^ 61)⟩
  outputs := (by decide : 1 < 2 ^ 61)

theorem accepted_balances_iff_sample :
    (proposingFlows 0).Balanced ↔
      ∀ proposal ∈ (proposingBody 0).proposalProcedures.getD [], proposal.deposit = 0 :=
  accepted_balances_iff (proposing_accepted 0) rfl rfl (proposing_fits 0)

/-- The deposit of a proposal is taken from nowhere. -/
theorem proposal_deposit_unpaid :
    checkConwayCoinConservation conwayDecoders (coinFields (proposingBody 100000000000))
        spentHoldings sampleParams sampleAccount = .ok () ∧
      (proposingFlows 100000000000).FitsMemory ∧
      (proposingFlows 100000000000).consumed = 1000 ∧
      (proposingFlows 100000000000).producedBesides = 1000 ∧
      ¬ (proposingFlows 100000000000).Balanced := by
  have consumed : (proposingFlows 100000000000).consumed = 1000 := by rfl
  have produced : (proposingFlows 100000000000).producedBesides = 1000 := by rfl
  refine ⟨proposing_accepted _, proposing_fits _, consumed, produced, fun balanced => ?_⟩
  unfold CoinFlows.Balanced at balanced
  rw [consumed, produced] at balanced
  have deposited : sumOfCoins (proposingFlows 100000000000).proposalDeposits = 100000000000 := by rfl
  rw [deposited] at balanced
  omega

end Ade.Proof.Ledger
