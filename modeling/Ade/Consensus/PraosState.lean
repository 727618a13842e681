import Ade.Types

/-! The chain-dependent state of the Praos header rules. -/

namespace Ade.Consensus
open Std Library

abbrev Nonce := Hash32

namespace Nonce

def zero : Nonce := Vector.replicate 32 0

end Nonce

/-- Counters are keyed by pool and then by KES period. -/
instance : Ord (Hash28 × UInt64) := lexOrd

instance : TransOrd (Hash28 × UInt64) := inferInstance

instance : LawfulEqOrd (Hash28 × UInt64) := inferInstance

structure PraosChainDepState where
  evolvingNonce : Nonce
  candidateNonce : Nonce
  epochNonce : Nonce
  previousEpochNonce : Nonce
  labNonce : Nonce
  lastEpochBlock : Option EpochNo
  lastEpochBlockNonce : Option Nonce
  lastSlot : Option SlotNo
  lastBlockNo : Option BlockNo
  opCertCounters : BTreeMap (Hash28 × UInt64) UInt64
deriving DecidableEq

namespace PraosChainDepState

def genesis (initialNonce : Nonce) : PraosChainDepState :=
  ⟨initialNonce, initialNonce, initialNonce, initialNonce, initialNonce, none, none, none, none, ∅⟩

def overlayRecoveredEta0 (state : PraosChainDepState) (eta0 : Nonce) : PraosChainDepState :=
  if state.epochNonce ≠ Nonce.zero then state
  else { state with epochNonce := eta0, evolvingNonce := eta0 }

end PraosChainDepState

end Ade.Consensus
