import Ade.Consensus.PraosState

/-! Deciding whether a block is valid atop a state.

The decoder and the header and body authorities are parameters. The era schedule and the ledger view
that they read do not change during a call and are part of them. -/

namespace Ade.Receive
open Consensus

/-- The types of the data that only the authorities look into. -/
structure Kinds where
  Ledger : Type
  HeaderInput : Type
  BodyVerdict : Type
  HeaderError : Type
  BodyError : Type
  FieldError : Type
  MissingInput : Type

variable {K : Kinds}

inductive LeaderEligibility where
  | enforce
  | trustDurable
deriving DecidableEq, Repr

inductive BlockValidityError (K : Kinds) where
  | header (failure : K.HeaderError)
  | body (failure : K.BodyError)
  | bodyHashMismatch (header actual : Hash32)
  | malformedField (failure : K.FieldError)
  | missingConsensusInput (missing : K.MissingInput)
  | headerPositionInvalid (blockNumber : UInt64) (prevIsGenesis : Bool)

inductive BlockRejectClass where
  | headerInvalid
  | bodyInvalid
  | bodyHashMismatch
  | malformedField
  | missingConsensusInput
deriving DecidableEq, Repr

def BlockValidityError.class : BlockValidityError K → BlockRejectClass
  | .header _ => .headerInvalid
  | .body _ => .bodyInvalid
  | .bodyHashMismatch _ _ => .bodyHashMismatch
  | .malformedField _ => .malformedField
  | .missingConsensusInput _ => .missingConsensusInput
  | .headerPositionInvalid _ _ => .headerInvalid

/-- `slot` is the slot of the header input. -/
structure DecodedBlock (K : Kinds) where
  era : CardanoEra
  headerInput : K.HeaderInput
  slot : SlotNo
  blockHash : Hash32
  computedBodyHash : Hash32
  innerStart : Nat
  innerEnd : Nat

structure AppliedHeader where
  slot : SlotNo
  blockNo : BlockNo
  bodyHash : Hash32
  newState : PraosChainDepState

structure Authorities (K : Kinds) where
  decodeBlock : Bytes → Except (BlockValidityError K) (DecodedBlock K)
  validateAndApplyHeader : PraosChainDepState → K.HeaderInput → LeaderEligibility →
    Except K.HeaderError AppliedHeader
  applyBlockWithVerdicts : K.Ledger → CardanoEra → Bytes → Except K.BodyError (K.BodyVerdict × K.Ledger)

inductive BlockValidityVerdict (K : Kinds) where
  | valid (tip : Point) (blockNo : BlockNo) (body : K.BodyVerdict)
  | invalid (class_ : BlockRejectClass) (error : BlockValidityError K)

structure BlockValidityOutcome (K : Kinds) where
  verdict : BlockValidityVerdict K
  ledger : K.Ledger
  chainDep : PraosChainDepState

def invalid (ledger : K.Ledger) (chainDep : PraosChainDepState) (error : BlockValidityError K) :
    BlockValidityOutcome K :=
  ⟨.invalid error.class error, ledger, chainDep⟩

def blockValidityWithEligibility (authorities : Authorities K) (ledger : K.Ledger)
    (chainDep : PraosChainDepState) (blockCbor : Bytes) (leaderEligibility : LeaderEligibility) :
    BlockValidityOutcome K :=
  match authorities.decodeBlock blockCbor with
  | .error error => invalid ledger chainDep error
  | .ok decoded =>
      match authorities.validateAndApplyHeader chainDep decoded.headerInput leaderEligibility with
      | .error failure => invalid ledger chainDep (.header failure)
      | .ok applied =>
          if decoded.computedBodyHash ≠ applied.bodyHash then
            invalid ledger chainDep (.bodyHashMismatch applied.bodyHash decoded.computedBodyHash)
          else
            let inner := (blockCbor.take decoded.innerEnd).drop decoded.innerStart
            match authorities.applyBlockWithVerdicts ledger decoded.era inner with
            | .error failure => invalid ledger chainDep (.body failure)
            | .ok (body, newLedger) =>
                ⟨.valid ⟨applied.slot, decoded.blockHash⟩ applied.blockNo body, newLedger,
                  applied.newState⟩

def blockValidity (authorities : Authorities K) (ledger : K.Ledger) (chainDep : PraosChainDepState)
    (blockCbor : Bytes) : BlockValidityOutcome K :=
  blockValidityWithEligibility authorities ledger chainDep blockCbor .enforce

/-- Its only source is `admitViaBlockValidity`. -/
structure AdmittedBlock where
  bytes : Bytes
deriving DecidableEq, Repr

structure AdmittedOutcome (K : Kinds) where
  admitted : AdmittedBlock
  ledger : K.Ledger
  chainDep : PraosChainDepState

def admitViaBlockValidity (authorities : Authorities K) (blockBytes : Bytes) (ledger : K.Ledger)
    (chainDep : PraosChainDepState) : Except (BlockValidityError K) (AdmittedOutcome K) :=
  let outcome := blockValidity authorities ledger chainDep blockBytes
  match outcome.verdict with
  | .valid _ _ _ => .ok ⟨⟨blockBytes⟩, outcome.ledger, outcome.chainDep⟩
  | .invalid _ error => .error error

end Ade.Receive
