import Ade.Codec.ConwayCert
import Ade.Codec.Governance
import Ade.Ledger.CoinConservation

/-! The value equation on a decoded body, and the deposits of its proposals. -/

namespace Ade.Ledger
open Std Library Codec

/-! ## Withdrawals -/

abbrev RewardAccount := Vector UInt8 29

instance transOrd_rewardAccount : TransOrd RewardAccount := inferInstance

instance lawfulEqOrd_rewardAccount : LawfulEqOrd RewardAccount := inferInstance

/-- A repeated account is rejected, not replaced. -/
def readWithdrawalCoin (data : Bytes) (map : BTreeMap RewardAccount Coin) :
    Read (BTreeMap RewardAccount Coin) := do
  let keyOffset ← get
  let (keyBytes, _) ← readBytes data
  if sized : keyBytes.toArray.size = 29 then
    let (value, _) ← readUint data
    if map.contains ⟨keyBytes.toArray, sized⟩ then throw (.duplicateMapKey keyOffset)
    return map.insert ⟨keyBytes.toArray, sized⟩ value
  else throw (.invalidLength keyOffset "reward account must be 29 bytes")

def readWithdrawalMap (data : Bytes) : Read (BTreeMap RewardAccount Coin) := do
  match ← readMapHeader data with
  | .indefinite => throw (.invalidCborStructure 0 "withdrawals map must be definite-length")
  | .definite count _ =>
      let map ← Cursor.iterate (readWithdrawalCoin data) count.toNat ∅
      let offset ← get
      if offset ≠ data.length then throw (.trailingBytes offset data.length)
      return map

def decodeWithdrawals (data : Bytes) : Except CodecError (BTreeMap RewardAccount Coin) :=
  ((readWithdrawalMap data).runAt 0).1

def sumOfCoins (coins : List Coin) : Int := (coins.map fun coin => (coin.toNat : Int)).sum

def withdrawalsSum (map : BTreeMap RewardAccount Coin) : Int :=
  sumOfCoins (map.toList.map Prod.snd)

def conwayDecoders : BodyDecoders where
  decodeConwayCerts
  withdrawalsTotal bytes := withdrawalsSum <$> decodeWithdrawals bytes

/-! ## What a transaction moves -/

/-- The fields that the value equation reads. The proposals are not among them. -/
def coinFields (body : Codec.ConwayTxBody Codec.ProposalProcedure) : ConwayTxBody where
  inputs := body.inputs.toList
  outputs := body.outputs.map BabbageTxOut.coin
  fee := body.fee
  certs := body.certs
  withdrawals := body.withdrawals
  donation := body.donation

def certDeposit (depositParams : ConwayDepositParams) (certState : CertState) (cert : ConwayCert) :
    Coin :=
  match classify cert depositParams certState with
  | .ok (.accountable (.newDeposit source)) => coinOf source
  | _ => 0

def certRefund (depositParams : ConwayDepositParams) (certState : CertState) (cert : ConwayCert) :
    Coin :=
  match classify cert depositParams certState with
  | .ok (.accountable (.refund source)) => coinOf source
  | _ => 0

/-- What a transaction consumes and produces, each kind with its coins. -/
structure CoinFlows where
  inputs : List Coin
  withdrawals : List Coin
  refunds : List Coin
  outputs : List Coin
  fee : Coin
  donation : Option Coin
  certDeposits : List Coin
  proposalDeposits : List Coin

namespace CoinFlows

def consumed (flows : CoinFlows) : Int :=
  sumOfCoins flows.inputs + sumOfCoins flows.withdrawals + sumOfCoins flows.refunds

/-- Without the deposits of the proposals. -/
def producedBesides (flows : CoinFlows) : Int :=
  sumOfCoins flows.outputs + flows.fee.toNat + sumOfCoins flows.donation.toList +
    sumOfCoins flows.certDeposits

/-- Nothing is created and nothing is lost, the deposits of the proposals included. -/
def Balanced (flows : CoinFlows) : Prop :=
  flows.consumed = flows.producedBesides + sumOfCoins flows.proposalDeposits

/-- A coin is eight bytes, of an address space of 64 bits. -/
structure FitsMemory (flows : CoinFlows) : Prop where
  inputs : flows.inputs.length < 2 ^ 61
  withdrawals : flows.withdrawals.length < 2 ^ 61
  certs : flows.refunds.length < 2 ^ 61 ∧ flows.certDeposits.length < 2 ^ 61
  outputs : flows.outputs.length < 2 ^ 61

end CoinFlows

/-- The certificates are weighed against the state before the transaction. -/
def coinFlows (body : Codec.ConwayTxBody Codec.ProposalProcedure) (utxo : TxIn → Option Coin)
    (depositParams : ConwayDepositParams) (certState : CertState)
    (withdrawals : BTreeMap RewardAccount Coin) (certs : List ConwayCert) : CoinFlows where
  inputs := body.inputs.toList.filterMap utxo
  withdrawals := withdrawals.toList.map Prod.snd
  refunds := certs.map (certRefund depositParams certState)
  outputs := body.outputs.map BabbageTxOut.coin
  fee := body.fee
  donation := body.donation
  certDeposits := certs.map (certDeposit depositParams certState)
  proposalDeposits := (body.proposalProcedures.getD []).map Codec.ProposalProcedure.deposit

def decodedWithdrawals (body : ConwayTxBody) :
    Except LedgerError (BTreeMap RewardAccount Coin) :=
  match body.withdrawals with
  | some bytes => (decodeWithdrawals bytes).mapError .decoding
  | none => .ok ∅

end Ade.Ledger
