import Ade.Consensus.Header

/-! The evolution of the nonces: one step for a header, one for the epoch tick. -/

namespace Ade.Consensus
open Library

structure HeaderContribution where
  slot : SlotNo
  prevBlockHash : Hash32
  vrfNonceOutput : VrfOutput

inductive NonceInput where
  | headerContribution (contribution : HeaderContribution) (freezeBoundary : SlotNo)
  | epochBoundary (newEpoch : EpochNo)

variable (verifiers : Verifiers)

def applyEpochBoundary (state : PraosChainDepState) (newEpoch : EpochNo) :
    Except NonceEvolutionError PraosChainDepState :=
  if state.epochNonce = Nonce.zero ∧ state.candidateNonce = Nonce.zero then
    .error .uninitialisedEpochNonce
  else
    match state.lastEpochBlockNonce with
    | none => .error .missingLastEpochBlockNonce
    | some lastEpochBlockNonce => .ok
        { state with
          epochNonce := combine verifiers state.candidateNonce lastEpochBlockNonce
          previousEpochNonce := state.epochNonce
          lastEpochBlockNonce := some state.labNonce
          lastEpochBlock := some (saturatingSub newEpoch 1) }

def applyNonceInput (state : PraosChainDepState) :
    NonceInput → Except NonceEvolutionError PraosChainDepState
  | .headerContribution contribution freezeBoundary =>
      applyHeaderContribution verifiers state contribution.slot contribution.prevBlockHash
        contribution.vrfNonceOutput freezeBoundary
  | .epochBoundary newEpoch => applyEpochBoundary verifiers state newEpoch

end Ade.Consensus
