import Ade.Codec.Conway

/-! The typed decoder of the certificates in a Conway transaction body. -/

namespace Ade.Codec
open Std Library
open Ade.Ledger (ConwayCert DRep PoolId PoolRegistrationCert StakeCredential)

def readCertHash28 : Bytes → Read Hash28 := readHash 28 "expected 28-byte hash"

def readPoolId : Bytes → Read PoolId := readCertHash28

/-- After the header of an array that must have an element. -/
def expectNonEmpty {α : Type} (detail : String) (next : Read α) : ContainerEncoding → Read α
  | .definite count _ =>
      if count ≥ 1 then next else do throw (.invalidCborStructure (← get) detail)
  | .indefinite => do throw (.invalidCborStructure (← get) detail)

/-- The hash is read before the type is looked at. -/
def decodeCertCredential (data : Bytes) : Read StakeCredential := do
  expectPair "stake credential must be array(2)" (do
    let credTypeOffset ← get
    let (credType, _) ← readUint data
    let hash ← readCertHash28 data
    if credType = 0 then return .keyHash hash
    else if credType = 1 then return .scriptHash hash
    else throw (.invalidCborStructure credTypeOffset "unknown stake credential type"))
    (← readArrayHeader data)

def decodeDRep (data : Bytes) : Read DRep := do
  expectNonEmpty "drep must be a non-empty definite-length array" (do
    let variantOffset ← get
    let (variant, _) ← readUint data
    if variant = 0 then return .keyHash (← readCertHash28 data)
    else if variant = 1 then return .scriptHash (← readCertHash28 data)
    else if variant = 2 then return .alwaysAbstain
    else if variant = 3 then return .alwaysNoConfidence
    else throw (.invalidCborStructure variantOffset "unknown drep variant tag"))
    (← readArrayHeader data)

/-! ## Pool registrations -/

/-- Any tag may stand before the pair. -/
def readMargin (data : Bytes) : Read (UInt64 × UInt64) := do
  let _ ← readTag data
  expectPair "pool margin must be array(2)" (do
    let (numerator, _) ← readUint data
    let (denominator, _) ← readUint data
    return (numerator, denominator)) (← readArrayHeader data)

def readAddrKeyhashSet (data : Bytes) : Read (List Hash28) := do
  if (← peekMajor data) = majorTag then
    let _ ← readTag data
    readArray data (readCertHash28 data)
  else readArray data (readCertHash28 data)

def readPoolRegistrationCert (data : Bytes) : Read PoolRegistrationCert := do
  let poolId ← readPoolId data
  let vrfHash ← readHash32 data
  let (pledge, _) ← readUint data
  let (cost, _) ← readUint data
  let margin ← readMargin data
  let (rewardAccount, _) ← readBytes data
  let owners ← readAddrKeyhashSet data
  return { poolId, vrfHash, pledge, cost, margin, rewardAccount, owners }

/-! ## Certificates -/

/-- The fields that are read behind the tag, however many elements the array declares. -/
def decodeCertFields (data : Bytes) (tagOffset : Nat) (tag : UInt64) : Read ConwayCert :=
  if tag = 0 then do return .accountRegistration (← decodeCertCredential data)
  else if tag = 1 then do return .accountUnregistration (← decodeCertCredential data)
  else if tag = 2 then do
    let credential ← decodeCertCredential data
    return .stakeDelegation credential (← readPoolId data)
  else if tag = 3 then do return .poolRegistration (← readPoolRegistrationCert data)
  else if tag = 4 then do
    let poolId ← readPoolId data
    let (epoch, _) ← readUint data
    return .poolRetirement poolId epoch
  else if tag = 5 ∨ tag = 6 then pure (.removedInConway tag)
  else if tag = 7 then do
    let credential ← decodeCertCredential data
    return .accountRegistrationDeposit credential (← readCoin data)
  else if tag = 8 then do
    let credential ← decodeCertCredential data
    return .accountUnregistrationDeposit credential (← readCoin data)
  else if tag = 9 then do
    let credential ← decodeCertCredential data
    return .voteDelegation credential (← decodeDRep data)
  else if tag = 10 then do
    let credential ← decodeCertCredential data
    let poolId ← readPoolId data
    return .stakeVoteDelegation credential poolId (← decodeDRep data)
  else if tag = 11 then do
    let credential ← decodeCertCredential data
    let poolId ← readPoolId data
    return .stakeRegistrationDelegation credential poolId (← readCoin data)
  else if tag = 12 then do
    let credential ← decodeCertCredential data
    let drep ← decodeDRep data
    return .voteRegistrationDelegation credential drep (← readCoin data)
  else if tag = 13 then do
    let credential ← decodeCertCredential data
    let poolId ← readPoolId data
    let drep ← decodeDRep data
    return .stakeVoteRegistrationDelegation credential poolId drep (← readCoin data)
  else if tag = 14 then do
    let coldCredential ← decodeCertCredential data
    return .authCommitteeHot coldCredential (← decodeCertCredential data)
  else if tag = 15 then do return .resignCommitteeCold (← decodeCertCredential data)
  else if tag = 16 then do
    let drepCredential ← decodeCertCredential data
    return .drepRegistration drepCredential (← readCoin data)
  else if tag = 17 then do
    let drepCredential ← decodeCertCredential data
    return .drepUnregistration drepCredential (← readCoin data)
  else if tag = 18 then do return .drepUpdate (← decodeCertCredential data)
  else throw (.unknownCertTag tag tagOffset)

/-- Behind the fields the whole certificate is skipped again from its start, and with it the elements
that were not parsed. -/
def decodeSingleCert (data : Bytes) : Read ConwayCert := do
  let certStart ← get
  expectNonEmpty "certificate must be a non-empty definite-length array" (do
    let tagOffset ← get
    let (tag, _) ← readUint data
    let cert ← decodeCertFields data tagOffset tag
    set certStart
    let _ ← skip data
    return cert) (← readArrayHeader data)

def decodeCertSet (data : Bytes) : Read (List ConwayCert) := do
  skipOptionalTag data
  readArray data (decodeSingleCert data)

def decodeConwayCerts (data : Bytes) : Except CodecError (List ConwayCert) :=
  let (certs, offset) := (decodeCertSet data).runAt 0
  certs.bind fun certs =>
    if offset = data.length then .ok certs else .error (.trailingBytes offset data.length)

end Ade.Codec
