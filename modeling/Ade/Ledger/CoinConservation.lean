import Ade.Ledger.Utxo

/-! The value equation of a Conway transaction.

The decoders of certificates and withdrawals are parameters. -/

namespace Ade.Ledger
open Std Library

structure ConwayDepositParams where
  keyDeposit : Coin
  poolDeposit : Coin

inductive CoinSource where
  | explicitInCert (coin : Coin)
  | depositParam (coin : Coin)
  | registrationState (coin : Coin)
deriving DecidableEq, Repr

inductive DepositEffect where
  | newDeposit (source : CoinSource)
  | refund (source : CoinSource)
deriving DecidableEq, Repr

inductive CertDisposition where
  | accountable (effect : DepositEffect)
  | neutral
  | notValidInConway
deriving DecidableEq, Repr

/-- Classification looks at the state before the transaction. -/
def classify (cert : ConwayCert) (depositParams : ConwayDepositParams)
    (registrationState : CertState) :
    Except UnsupportedStateDependentDepositAccounting CertDisposition :=
  match cert with
  | .accountRegistration _ =>
      .ok (.accountable (.newDeposit (.depositParam depositParams.keyDeposit)))
  | .accountUnregistration credential =>
      match registrationState.delegation.registrations[credential]? with
      | some recorded => .ok (.accountable (.refund (.registrationState recorded)))
      | none => .error .legacyUnregistrationRefundUnresolved
  | .poolRegistration cert =>
      if registrationState.pool.pools.contains cert.poolId then .ok .neutral
      else .ok (.accountable (.newDeposit (.depositParam depositParams.poolDeposit)))
  | .accountRegistrationDeposit _ deposit
  | .stakeRegistrationDelegation _ _ deposit
  | .voteRegistrationDelegation _ _ deposit
  | .stakeVoteRegistrationDelegation _ _ _ deposit
  | .drepRegistration _ deposit => .ok (.accountable (.newDeposit (.explicitInCert deposit)))
  | .accountUnregistrationDeposit _ refund => .ok (.accountable (.refund (.explicitInCert refund)))
  | .drepUnregistration _ refund => .ok (.accountable (.refund (.explicitInCert refund)))
  | .stakeDelegation _ _ | .poolRetirement _ _ | .voteDelegation _ _ | .stakeVoteDelegation _ _ _
  | .authCommitteeHot _ _ | .resignCommitteeCold _ | .drepUpdate _ => .ok .neutral
  | .removedInConway _ => .ok .notValidInConway

def coinOf : CoinSource → Coin
  | .explicitInCert coin | .depositParam coin | .registrationState coin => coin

def removedTagOf : ConwayCert → UInt64
  | .removedInConway tag => tag
  | _ => 0 -- unreachable in the source

/-- `i128::saturating_add`. -/
def saturatingAddI128 (a b : Int) : Int := max (-2 ^ 127) (min (a + b) (2 ^ 127 - 1))

def classifyOrFail (depositParams : ConwayDepositParams) (certState : CertState)
    (cert : ConwayCert) : Except LedgerError CertDisposition :=
  (classify cert depositParams certState).mapError .unsupportedStateDependentDeposit

def checkEraValid (depositParams : ConwayDepositParams) (certState : CertState)
    (indexed : ConwayCert × Nat) : Except LedgerError Unit := do
  match ← classifyOrFail depositParams certState indexed.1 with
  | .notValidInConway =>
      .error (.eraInvalidCertificate (UInt16.ofNat indexed.2) (removedTagOf indexed.1))
  | _ => .ok ()

structure DepositTotals where
  newDeposits : Int
  refundedDeposits : Int
deriving DecidableEq, Repr

def accountCert (depositParams : ConwayDepositParams) (certState : CertState)
    (totals : DepositTotals) (cert : ConwayCert) : Except LedgerError DepositTotals := do
  match ← classifyOrFail depositParams certState cert with
  | .accountable (.newDeposit source) =>
      return { totals with
        newDeposits := saturatingAddI128 totals.newDeposits (coinOf source).toNat }
  | .accountable (.refund source) =>
      return { totals with
        refundedDeposits := saturatingAddI128 totals.refundedDeposits (coinOf source).toNat }
  | .neutral => return totals
  | .notValidInConway => return totals -- swept before

def accountCerts (depositParams : ConwayDepositParams) (certState : CertState)
    (certs : List ConwayCert) : Except LedgerError DepositTotals :=
  certs.foldlM (accountCert depositParams certState) ⟨0, 0⟩

/-- Outputs are their coins. -/
structure ConwayTxBody where
  inputs : List TxIn
  outputs : List Coin
  fee : Coin
  certs : Option Bytes
  withdrawals : Option Bytes
  donation : Option Coin

structure BodyDecoders where
  decodeConwayCerts : Bytes → Except Codec.CodecError (List ConwayCert)
  /-- `decode_withdrawals`, summed. -/
  withdrawalsTotal : Bytes → Except Codec.CodecError Int

def bodyCerts (decoders : BodyDecoders) (body : ConwayTxBody) : Except LedgerError (List ConwayCert) :=
  match body.certs with
  | some bytes => (decoders.decodeConwayCerts bytes).mapError .decoding
  | none => .ok []

def bodyWithdrawals (decoders : BodyDecoders) (body : ConwayTxBody) : Except LedgerError Int :=
  match body.withdrawals with
  | some bytes => (decoders.withdrawalsTotal bytes).mapError .decoding
  | none => .ok 0

/-- The coin an error reports. -/
def clampToCoin (amount : Int) : Coin := UInt64.ofNat (min (max amount 0) (2 ^ 64 - 1)).toNat

def sumCoins (start : Int) (coins : List Coin) : Int :=
  coins.foldl (fun total coin => saturatingAddI128 total coin.toNat) start

def checkConwayCoinConservation (decoders : BodyDecoders) (body : ConwayTxBody)
    (utxo : TxIn → Option Coin) (depositParams : ConwayDepositParams) (certState : CertState) :
    Except LedgerError Unit := do
  let withdrawalsTotal ← bodyWithdrawals decoders body
  let certs ← bodyCerts decoders body
  certs.zipIdx.forM (checkEraValid depositParams certState)
  let totals ← accountCerts depositParams certState certs
  let resolved := sumCoins 0 (body.inputs.filterMap utxo)
  let consumed := saturatingAddI128 (saturatingAddI128 resolved withdrawalsTotal)
    totals.refundedDeposits
  let outputs := sumCoins body.fee.toNat (body.outputs ++ body.donation.toList)
  let produced := saturatingAddI128 outputs totals.newDeposits
  if consumed ≠ produced then
    .error (.conservation (clampToCoin consumed) (clampToCoin produced))
  else .ok ()

/-! ## What the certificates do to the recorded deposits -/

def applyConwayCertsFrom (keyDeposit : Coin) : Nat → List ConwayCert → CertState →
    Except LedgerError CertState
  | _, [], state => .ok state
  | index, cert :: certs, state => do
      let outcome ← applyConwayCert state cert ⟨keyDeposit, UInt16.ofNat index⟩
      applyConwayCertsFrom keyDeposit (index + 1) certs outcome.state

/-- The certificates of one transaction in order. -/
def applyConwayCerts (keyDeposit : Coin) (certs : List ConwayCert) (state : CertState) :
    Except LedgerError CertState :=
  applyConwayCertsFrom keyDeposit 0 certs state

def recordedDeposits (depositParams : ConwayDepositParams) (state : CertState) : Int :=
  (state.delegation.registrations.toList.map fun entry => (entry.2.toNat : Int)).sum +
    depositParams.poolDeposit.toNat * state.pool.pools.size

/-- Certificates of stake credentials and pools, as opposed to representatives. -/
def ConwayCert.isStakeOrPool : ConwayCert → Bool
  | .drepRegistration _ _ | .drepUnregistration _ _ => false
  | _ => true

/-! ## Where counting and applying part -/

/-- The deposit that the certificate records for the credential. -/
def ConwayCert.registers (keyDeposit : Coin) (cred : StakeCredential) : ConwayCert → Option Coin
  | .accountRegistration credential => if credential = cred then some keyDeposit else none
  | .accountRegistrationDeposit credential deposit
  | .stakeRegistrationDelegation credential _ deposit
  | .voteRegistrationDelegation credential _ deposit
  | .stakeVoteRegistrationDelegation credential _ _ deposit =>
      if credential = cred then some deposit else none
  | _ => none

def ConwayCert.registersPool (poolId : PoolId) : ConwayCert → Bool
  | .poolRegistration cert => cert.poolId = poolId
  | _ => false

/-- The deposit of the latest registration among the earlier certificates, newest first, and
before them the one in the state. -/
def depositHeld (keyDeposit : Coin) (certState : CertState) (earlier : List ConwayCert)
    (cred : StakeCredential) : Coin :=
  match earlier.findSome? (ConwayCert.registers keyDeposit cred) with
  | some deposit => deposit
  | none => (certState.delegation.registrations[cred]?).getD 0

/-- What the value equation counts for a certificate beyond what applying it records. -/
def miscounted (depositParams : ConwayDepositParams) (certState : CertState)
    (earlier : List ConwayCert) : ConwayCert → Int
  | .accountUnregistration cred =>
      (depositHeld depositParams.keyDeposit certState earlier cred).toNat -
        ((certState.delegation.registrations[cred]?).getD 0).toNat
  | .accountUnregistrationDeposit cred refund =>
      (depositHeld depositParams.keyDeposit certState earlier cred).toNat - refund.toNat
  | .poolRegistration cert =>
      if ¬ certState.pool.pools.contains cert.poolId ∧
          earlier.any (ConwayCert.registersPool cert.poolId) then
        depositParams.poolDeposit.toNat
      else 0
  | _ => 0

def totalMiscounted (depositParams : ConwayDepositParams) (certState : CertState) :
    List ConwayCert → List ConwayCert → Int
  | _, [] => 0
  | earlier, cert :: certs =>
      miscounted depositParams certState earlier cert +
        totalMiscounted depositParams certState (cert :: earlier) certs

end Ade.Ledger
