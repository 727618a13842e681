import Ade.Codec.ConwayCert
import Mathlib.Data.Finset.Insert

/-! The walkers that collect the credentials by which a transaction must be witnessed. -/

namespace Ade.Ledger
open Std Library
open Ade.Codec (Read ContainerEncoding readArrayHeader readMapHeader readUint readBytes isBreak skip
  skipOptionalTag)

inductive RequiredSignerField where
  | certificates | withdrawals | votingProcedures | outputAddress
deriving DecidableEq, Repr

inductive RequiredSignerError where
  | unresolvableInput (input : TxIn)
  | malformedField (field : RequiredSignerField) (offset : Nat)
  | unsupportedEra (era : CardanoEra)
deriving DecidableEq, Repr

inductive Credential where
  | key (hash : Hash28)
  | script (hash : Hash28)
deriving DecidableEq, Repr

abbrev SignerRead := Cursor RequiredSignerError

/-! ## Adapters -/

section
variable {α δ : Type} (failure : Nat → δ)

/-- A failure is told by the offset at which it left the reader. -/
def failingAt (read : Read α) : Cursor δ α :=
  Cursor.ofRun fun offset =>
    let (result, after) := read.runAt offset
    (result.mapError fun _ => failure after, after)

/-- Every element takes at least a byte, so that `left` never runs out before the data does. -/
def iterateUntilBreak (data : Bytes) (process : Cursor δ α) : Nat → Cursor δ (List α)
  | 0 => do throw (failure (← get))
  | left + 1 => do
      if ← failingAt failure (isBreak data) then
        modify (· + 1)
        return []
      else
        let first ← process
        let rest ← iterateUntilBreak data process left
        return first :: rest

def iterate (data : Bytes) (process : Cursor δ α) : ContainerEncoding → Cursor δ (List α)
  | .definite count _ => Cursor.times process count.toNat
  | .indefinite => iterateUntilBreak failure data process data.length

end

def inField {α : Type} (field : RequiredSignerField) : Read α → SignerRead α :=
  failingAt (.malformedField field)

def malformed {α : Type} (field : RequiredSignerField) : SignerRead α := do
  throw (.malformedField field (← get))

section
variable (data : Bytes) (field : RequiredSignerField)

/-- The elements of an array of which `consumed` were read. -/
def drainArrayTail (consumed : Nat) : ContainerEncoding → SignerRead Unit
  | .definite count _ => do
      if consumed > count.toNat then malformed field
      else let _ ← Cursor.times (inField field (skip data)) (count.toNat - consumed)
  | .indefinite => do
      let _ ← iterate (.malformedField field) data (inField field (skip data)) .indefinite

def readRawHash28 : SignerRead Hash28 := do
  let (bytes, _) ← inField field (readBytes data)
  if sized : bytes.toArray.size = 28 then return ⟨bytes.toArray, sized⟩
  else malformed field

end

/-! ## Withdrawals -/

/-- Bytes behind the hash are passed over. -/
def RequiredSigners.rewardAccountCredential (rewardAccount : Bytes) :
    Except RequiredSignerError Credential :=
  match rewardAccount with
  | [] => .error (.malformedField .withdrawals 0)
  | header :: rest =>
      if sized : (rest.take 28).toArray.size = 28 then
        let hash : Hash28 := ⟨(rest.take 28).toArray, sized⟩
        if header &&& 0x10 ≠ 0 then .ok (.script hash) else .ok (.key hash)
      else .error (.malformedField .withdrawals 1)

def walkWithdrawalAccounts (data : Bytes) : SignerRead (List Bytes) := do
  inField .withdrawals (skipOptionalTag data)
  let enc ← inField .withdrawals (readMapHeader data)
  iterate (.malformedField .withdrawals) data (do
    let (account, _) ← inField .withdrawals (readBytes data)
    let _ ← inField .withdrawals (skip data)
    return account) enc

/-- The accounts are looked at after all of them were read. -/
def walkWithdrawalCredentials (data : Bytes) : Except RequiredSignerError (List Credential) := do
  let accounts ← ((walkWithdrawalAccounts data).runAt 0).1
  accounts.mapM RequiredSigners.rewardAccountCredential

/-! ## Certificates -/

def readCredential (data : Bytes) : SignerRead Credential := do
  let enc ← inField .certificates (readArrayHeader data)
  let (tag, _) ← inField .certificates (readUint data)
  let credential ←
    if tag = 0 then .key <$> readRawHash28 data .certificates
    else if tag = 1 then .script <$> readRawHash28 data .certificates
    else malformed .certificates
  drainArrayTail data .certificates 2 enc
  return credential

/-- The operator and the owners; the relays and the metadata are left to the caller. -/
def walkPoolRegistrationKeys (data : Bytes) : SignerRead (List Credential) := do
  let operator ← readRawHash28 data .certificates
  let _ ← Cursor.times (inField .certificates (skip data)) 5
  inField .certificates (skipOptionalTag data)
  let enc ← inField .certificates (readArrayHeader data)
  let owners ← iterate (.malformedField .certificates) data (readRawHash28 data .certificates) enc
  return .key operator :: owners.map .key

/-- The credentials, and how many elements behind the tag they take. -/
def walkCertFields (data : Bytes) (tag : UInt64) : SignerRead (List Credential × Nat) := do
  if tag = 0 ∨ tag = 5 ∨ tag = 6 then return ([], 0)
  else if tag = 1 ∨ tag = 2 ∨ (7 ≤ tag ∧ tag ≤ 13) then return ([← readCredential data], 1)
  else if tag = 3 then return (← walkPoolRegistrationKeys data, 7)
  else if tag = 4 then return ([.key (← readRawHash28 data .certificates)], 1)
  else if 14 ≤ tag ∧ tag ≤ 18 then return ([← readCredential data], 1)
  else malformed .certificates

def walkOneCertificate (data : Bytes) : SignerRead (List Credential) := do
  let enc ← inField .certificates (readArrayHeader data)
  let (tag, _) ← inField .certificates (readUint data)
  let (credentials, consumed) ← walkCertFields data tag
  drainArrayTail data .certificates (1 + consumed) enc
  return credentials

def walkCertificateSet (data : Bytes) : SignerRead (List Credential) := do
  inField .certificates (skipOptionalTag data)
  let enc ← inField .certificates (readArrayHeader data)
  List.flatten <$> iterate (.malformedField .certificates) data (walkOneCertificate data) enc

def walkCertificateCredentials (data : Bytes) : Except RequiredSignerError (List Credential) :=
  ((walkCertificateSet data).runAt 0).1

/-! ## Voters -/

def walkVoter (data : Bytes) : SignerRead Credential := do
  let enc ← inField .votingProcedures (readArrayHeader data)
  let (tag, _) ← inField .votingProcedures (readUint data)
  let hash ← if tag ≤ 4 then readRawHash28 data .votingProcedures else malformed .votingProcedures
  drainArrayTail data .votingProcedures 2 enc
  let _ ← inField .votingProcedures (skip data)
  return if tag = 1 ∨ tag = 3 then .script hash else .key hash

def walkVoters (data : Bytes) : SignerRead (List Credential) := do
  inField .votingProcedures (skipOptionalTag data)
  let enc ← inField .votingProcedures (readMapHeader data)
  iterate (.malformedField .votingProcedures) data (walkVoter data) enc

def walkVoterCredentials (data : Bytes) : Except RequiredSignerError (List Credential) :=
  ((walkVoters data).runAt 0).1

/-! ## Required signers -/

inductive SignerSource where
  | inputPaymentKey | explicitRequiredSigner | withdrawalKey | certificateKey | governanceVoter
  | collateralPaymentKey
deriving DecidableEq, Repr

structure RequiredSigners where
  keys : BTreeSet Hash28
  provenance : Finset (SignerSource × Hash28)

def RequiredSigners.require (req : RequiredSigners) (source : SignerSource) (key : Hash28) :
    RequiredSigners :=
  { req with keys := req.keys.insert key, provenance := insert (source, key) req.provenance }

/-- Scripts are no signers. -/
def requireKey (source : SignerSource) (req : RequiredSigners) : Credential → RequiredSigners
  | .key hash => req.require source hash
  | .script _ => req

def collectCertificateKeys (data : Bytes) (req : RequiredSigners) :
    Except RequiredSignerError RequiredSigners := do
  return (← walkCertificateCredentials data).foldl (requireKey .certificateKey) req

/-! ## What a decoded certificate asks for -/

def StakeCredential.credential : StakeCredential → Credential
  | keyHash hash => .key hash
  | scriptHash hash => .script hash

/-- The credentials that must witness a certificate. -/
def ConwayCert.witnesses : ConwayCert → List Credential
  | accountRegistration _ | removedInConway _ => []
  | poolRegistration cert => .key cert.poolId :: cert.owners.map .key
  | poolRetirement poolId _ => [.key poolId]
  | accountUnregistration credential | stakeDelegation credential _
  | accountRegistrationDeposit credential _ | accountUnregistrationDeposit credential _
  | voteDelegation credential _ | stakeVoteDelegation credential _ _
  | stakeRegistrationDelegation credential _ _ | voteRegistrationDelegation credential _ _
  | stakeVoteRegistrationDelegation credential _ _ _ => [credential.credential]
  | authCommitteeHot coldCredential _ | resignCommitteeCold coldCredential =>
      [coldCredential.credential]
  | drepRegistration drepCredential _ | drepUnregistration drepCredential _
  | drepUpdate drepCredential => [drepCredential.credential]

end Ade.Ledger
