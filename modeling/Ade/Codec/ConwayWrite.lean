import Ade.Codec.Governance

/-! The encoder of a Conway transaction body, and the two forms of an output. -/

namespace Ade.Codec
open Library
open Ade.Ledger (TxIn)

def encodeTxIn (input : TxIn) : Bytes :=
  writeArrayHeader (.definite 2 .inline) ++ writeBytesCanonical input.txHash.toList ++
    writeUintCanonical input.index.toUInt64

def encodeTxInputs (inputs : BTreeSet TxIn) : Bytes :=
  writeCountedArray (UInt64.ofNat inputs.size) ++ (inputs.toList.map encodeTxIn).flatten

def encodeRequiredSigners (signers : BTreeSet Hash28) : Bytes :=
  writeCountedArray (UInt64.ofNat signers.size) ++
    (signers.toList.map fun signer => writeBytesCanonical signer.toList).flatten

/-! ## Outputs -/

def encodeValue (output : BabbageTxOut) : Bytes :=
  match output.multiAsset with
  | some assets => writeArrayHeader (.definite 2 .inline) ++ writeUintCanonical output.coin ++ assets
  | none => writeUintCanonical output.coin

/-- An entry that is left out where there is no value. -/
def optionalEntry {α : Type} (key : UInt64) (write : α → Bytes) : Option α → Bytes
  | some value => writeUintCanonical key ++ write value
  | none => []

/-- The address and the value, and what else there is. -/
def outputCount (output : BabbageTxOut) : UInt64 :=
  UInt64.ofNat (2 + output.datumOption.isSome.toNat + output.scriptRef.isSome.toNat)

def encodeBabbageTxOutMap (output : BabbageTxOut) : Bytes :=
  writeMapHeader (.definite (outputCount output) .inline) ++
    (writeUintCanonical 0 ++ writeBytesCanonical output.address ++
      (writeUintCanonical 1 ++ encodeValue output ++
        (optionalEntry 2 id output.datumOption ++ optionalEntry 3 id output.scriptRef)))

def encodeBabbageTxOutArray (output : BabbageTxOut) : Bytes :=
  writeArrayHeader (.definite (outputCount output) .inline) ++
    (writeBytesCanonical output.address ++
      (encodeValue output ++ (output.datumOption.getD [] ++ output.scriptRef.getD [])))

def encodeConwayOutputs (outputs : List BabbageTxOut) : Bytes :=
  writeCountedArray (UInt64.ofNat outputs.length) ++ (outputs.map encodeBabbageTxOutMap).flatten

/-! ## The body -/

def hashBytes {size : Nat} (hash : Vector UInt8 size) : Bytes := writeBytesCanonical hash.toList

/-- The mandatory entries, and the optional ones that are there. -/
def bodyCount (body : ConwayTxBody ProposalProcedure) : UInt64 :=
  UInt64.ofNat (3 + body.ttl.isSome.toNat + body.certs.isSome.toNat + body.withdrawals.isSome.toNat +
    body.metadataHash.isSome.toNat + body.validityIntervalStart.isSome.toNat + body.mint.isSome.toNat +
    body.scriptDataHash.isSome.toNat + body.collateralInputs.isSome.toNat +
    body.requiredSigners.isSome.toNat + body.networkId.isSome.toNat + body.collateralReturn.isSome.toNat +
    body.totalCollateral.isSome.toNat + body.referenceInputs.isSome.toNat +
    body.votingProcedures.isSome.toNat + body.proposalProcedures.isSome.toNat +
    body.treasuryValue.isSome.toNat + body.donation.isSome.toNat)

def encodeConwayTxBody (body : ConwayTxBody ProposalProcedure) : Bytes :=
  writeCountedMap (bodyCount body) ++
    (writeUintCanonical 0 ++ encodeTxInputs body.inputs ++
    (writeUintCanonical 1 ++ encodeConwayOutputs body.outputs ++
    (writeUintCanonical 2 ++ writeUintCanonical body.fee ++
    (optionalEntry 3 writeUintCanonical body.ttl ++
    (optionalEntry 4 id body.certs ++
    (optionalEntry 5 id body.withdrawals ++
    (optionalEntry 7 hashBytes body.metadataHash ++
    (optionalEntry 8 writeUintCanonical body.validityIntervalStart ++
    (optionalEntry 9 id body.mint ++
    (optionalEntry 11 hashBytes body.scriptDataHash ++
    (optionalEntry 13 encodeTxInputs body.collateralInputs ++
    (optionalEntry 14 encodeRequiredSigners body.requiredSigners ++
    (optionalEntry 15 (fun id => writeUintCanonical id.toUInt64) body.networkId ++
    (optionalEntry 16 encodeBabbageTxOutMap body.collateralReturn ++
    (optionalEntry 17 writeUintCanonical body.totalCollateral ++
    (optionalEntry 18 encodeTxInputs body.referenceInputs ++
    (optionalEntry 19 id body.votingProcedures ++
    (optionalEntry 20 encodeProposalProcedures body.proposalProcedures ++
    (optionalEntry 21 writeUintCanonical body.treasuryValue ++
    optionalEntry 22 writeUintCanonical body.donation)))))))))))))))))))

end Ade.Codec
