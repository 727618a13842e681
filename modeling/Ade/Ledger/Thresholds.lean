import Ade.Ledger.Ratification

/-! The thresholds a proposal has to meet: committee, DReps and stake pools. -/

namespace Ade.Ledger
open Std Library

abbrev DRepStakeDistribution := BTreeMap DRep UInt64

/-- The sum of `u64` values, which wraps. -/
def sumU64 (amounts : List UInt64) : UInt64 := amounts.foldl (· + ·) 0

/-- The dormancy offset is needed, but the governance state does not have it. -/
inductive DormantRequired where
  | dormantRequired
deriving DecidableEq, Repr

def isActiveDRep (drepExpiry : BTreeMap StakeCredential UInt64) (dormant currentEpoch : UInt64)
    (drep : DRep) : Bool :=
  let unexpired (credential : StakeCredential) : Bool :=
    ((drepExpiry[credential]?).map fun expiry => decide (saturatingAdd expiry dormant ≥ currentEpoch)).getD
      true
  match drep with
  | .alwaysAbstain => false
  | .keyHash hash => unexpired (.keyHash hash)
  | .scriptHash hash => unexpired (.scriptHash hash)
  | .alwaysNoConfidence => true

def activeDRepStakeFiltered (drepStake : DRepStakeDistribution)
    (drepExpiry : BTreeMap StakeCredential UInt64) (numDormant : DormantEpochs)
    (currentEpoch : UInt64) : Except DormantRequired (DRepStakeDistribution × UInt64) := do
  let dormant ← match numDormant with
    | .bound epochs => pure epochs
    | .unversioned => if drepExpiry.isEmpty then pure 0 else throw .dormantRequired
  let active := drepStake.filter fun drep _ => isActiveDRep drepExpiry dormant currentEpoch drep
  return (active, sumU64 (active.toList.map Prod.snd))

/-- The thresholds of the pools and of the DReps that an action has to meet. -/
def govActionThresholdIndex : GovAction → Option Nat × Option Nat
  | .noConfidence _ => (some 0, some 0)
  | .updateCommittee _ _ _ _ => (some 1, some 1)
  | .newConstitution _ _ => (none, some 3)
  | .hardForkInitiation _ _ => (some 3, some 4)
  | .parameterChange _ _ _ => (some 4, some 5)
  | .treasuryWithdrawals _ _ => (none, some 9)
  | .infoAction => (none, none)

/-- What every proposal is decided against. -/
structure RatificationInputs where
  totalDRepActiveStake : UInt64
  drepStake : DRepStakeDistribution
  poolStake : BTreeMap PoolId Coin
  /-- Cold credentials, with the epochs they expire in. -/
  committeeMembers : BTreeMap StakeCredential UInt64
  committeeQuorum : Rational
  poolThresholds : List (UInt64 × UInt64)
  drepThresholds : List (UInt64 × UInt64)
  currentEpoch : UInt64
  /-- From hot credentials to cold ones. -/
  committeeHotKeys : BTreeMap StakeCredential StakeCredential

namespace RatificationInputs

variable (inputs : RatificationInputs)

/-! ## The committee -/

def needsCommittee : GovAction → Bool
  | .noConfidence _ | .updateCommittee _ _ _ _ => false
  | _ => true

def activeMembers : List (StakeCredential × UInt64) :=
  inputs.committeeMembers.toList.filter fun member => decide (member.2 ≥ inputs.currentEpoch)

/-- A hot credential that the map does not have counts as it is. -/
def countsAsYes (entry : StakeCredential × Vote) : Bool :=
  if entry.2 ≠ .yes then false
  else match inputs.committeeHotKeys[entry.1]? with
    | some cold => inputs.activeMembers.any fun member => member.1 = cold
    | none => true

def committeeAccepts (p : GovActionState) : Bool :=
  if needsCommittee p.govAction ∧ ¬ inputs.committeeMembers.isEmpty then
    if inputs.activeMembers.isEmpty then true
    else
      let yesVotes := (p.committeeVotes.filter inputs.countsAsYes).length
      let yesRat := (Rational.new yesVotes inputs.activeMembers.length).getD .zero
      ¬ wrappingMulI128 yesRat.numerator inputs.committeeQuorum.denominator <
        wrappingMulI128 inputs.committeeQuorum.numerator yesRat.denominator
  else true

/-! ## Stake -/

/-- Whether `part` of `whole` meets a threshold; the products fit in 128 bits. -/
def meets (threshold : UInt64 × UInt64) (part whole : UInt64) : Bool :=
  ¬ part.toNat * threshold.2.toNat < threshold.1.toNat * whole.toNat

def drepOf : StakeCredential → DRep
  | .keyHash hash => .keyHash hash
  | .scriptHash hash => .scriptHash hash

/-- The stake of the voters with a certain vote. -/
def votedStake {K : Type} (stakeOf : K → UInt64) (vote : Vote) (votes : List (K × Vote)) : UInt64 :=
  sumU64 ((votes.filter fun entry => entry.2 = vote).map fun entry => stakeOf entry.1)

def lookupStake (credential : StakeCredential) : UInt64 := amountOf inputs.drepStake (drepOf credential)

def lookupPool (hash : Hash28) : UInt64 := amountOf inputs.poolStake hash

def drepsAccept (p : GovActionState) (drepIdx : Option Nat) : Bool :=
  match drepIdx.bind fun idx => inputs.drepThresholds[idx]? with
  | none => true
  | some threshold =>
      if inputs.totalDRepActiveStake > 0 ∧ threshold.2 > 0 then
        meets threshold (votedStake inputs.lookupStake .yes p.drepVotes) inputs.totalDRepActiveStake
      else true

/-- Without a vote cast, the pools accept. -/
def poolsAccept (p : GovActionState) (poolIdx : Option Nat) : Bool :=
  match poolIdx.bind fun idx => inputs.poolThresholds[idx]? with
  | none => true
  | some threshold =>
      if threshold.2 > 0 then
        let yesStake := votedStake inputs.lookupPool .yes p.spoVotes
        let noStake := votedStake inputs.lookupPool .no p.spoVotes
        if yesStake + noStake > 0 then meets threshold yesStake (yesStake + noStake) else true
      else true

end RatificationInputs

def checkRatification (p : GovActionState) (actionThresholds : Option Nat × Option Nat)
    (inputs : RatificationInputs) : Bool :=
  if ¬ inputs.committeeAccepts p then false
  else if ¬ inputs.drepsAccept p actionThresholds.2 then false
  else inputs.poolsAccept p actionThresholds.1

/-! ## Ratification -/

/-- Two `u64` as a quorum; a zero denominator is read as one. -/
def committeeQuorum (quorum : UInt64 × UInt64) : Rational :=
  (Rational.new (asI128 quorum.1) (asI128 (max quorum.2 1))).getD .one

/-- What a frozen ratification decides its proposals against. -/
def FrozenRatificationInput.against (input : FrozenRatificationInput)
    (drepDistribution : BTreeMap DRep Coin) (poolDistribution : BTreeMap PoolId Coin) :
    Except DormantRequired RatificationInputs := do
  let (active, total) ← activeDRepStakeFiltered drepDistribution input.gov.drepExpiry
    input.gov.numDormant input.epoch
  return {
    totalDRepActiveStake := total
    drepStake := active
    poolStake := poolDistribution
    committeeMembers := input.gov.committee
    committeeQuorum := committeeQuorum input.gov.committeeQuorum
    poolThresholds := input.gov.poolVotingThresholds
    drepThresholds := input.gov.drepVotingThresholds
    currentEpoch := input.epoch
    committeeHotKeys := input.gov.committeeHotKeys }

end Ade.Ledger
