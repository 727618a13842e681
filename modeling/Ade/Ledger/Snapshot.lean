import Ade.Ledger.Delegation
import Ade.Library.Totals

/-! Stake snapshots and their rotation at an epoch boundary. -/

namespace Ade.Ledger
open Std Library

structure SnapshotPoolParams where
  pledge : Coin
  cost : Coin
  margin : UInt64 × UInt64
  rewardAccount : StakeCredential
  selfDelegatedOwners : BTreeSet Hash28
deriving DecidableEq

structure StakeSnapshot where
  delegations : BTreeMap StakeCredential (PoolId × Coin)
  poolStakes : BTreeMap PoolId Coin
  poolParams : BTreeMap PoolId SnapshotPoolParams
deriving DecidableEq

namespace StakeSnapshot

def new : StakeSnapshot := ⟨∅, ∅, ∅⟩

/-- The stake of the owners delegated to this pool. -/
def selfDelegatedOwnerStake (snapshot : StakeSnapshot) (poolId : PoolId)
    (owners : BTreeSet Hash28) : UInt64 :=
  let stakes := owners.toList.filterMap fun owner =>
    (snapshot.delegations[StakeCredential.keyHash owner]?).filter fun entry => entry.1 = poolId
  stakes.foldl (fun acc entry => saturatingAdd acc entry.2) 0

/-- What each delegator of a pool has in the snapshot. -/
def delegatorStakes (snapshot : StakeSnapshot) (poolId : PoolId) : List (StakeCredential × Coin) :=
  (snapshot.delegations.toList.filter fun entry => entry.2.1 = poolId).map fun entry =>
    (entry.1, entry.2.2)

end StakeSnapshot

structure SnapshotState where
  mark : StakeSnapshot
  set : StakeSnapshot
  go : StakeSnapshot
deriving DecidableEq

def rotateSnapshots (current : SnapshotState) (newMark : StakeSnapshot) : SnapshotState where
  mark := newMark
  set := current.mark
  go := current.set

/-! ## The new mark -/

structure BoundaryBaseStake where
  boundaryPoint : SlotNo
  canonicalCredentialStake : BTreeMap StakeCredential Coin
deriving DecidableEq

/-- Bit 4 of the header byte tells a script account from a key account. -/
def rewardAccountCredential : Bytes → Option StakeCredential
  | [] => none
  | header :: hash =>
      if sized : hash.toArray.size = 28 then
        if header &&& 0x10 ≠ 0 then some (.scriptHash ⟨hash.toArray, sized⟩)
        else some (.keyHash ⟨hash.toArray, sized⟩)
      else none

def snapshotPoolParams (pools : BTreeMap PoolId PoolParams)
    (delegations : BTreeMap StakeCredential PoolId) : BTreeMap PoolId SnapshotPoolParams :=
  pools.filterMap fun poolId params => do
    let rewardAccount ← rewardAccountCredential params.rewardAccount
    let owners := params.owners.filter fun owner =>
      delegations[StakeCredential.keyHash owner]? = some poolId
    return { pledge := params.pledge, cost := params.cost, margin := params.margin
             rewardAccount, selfDelegatedOwners := ExtTreeSet.ofList owners }

/-- A credential without stake is left out of the mark. -/
def markCredential (base : BTreeMap StakeCredential Coin) (delegation : DelegationState)
    (mark : BTreeMap StakeCredential (PoolId × Coin) × BTreeMap PoolId Coin)
    (entry : StakeCredential × PoolId) :
    BTreeMap StakeCredential (PoolId × Coin) × BTreeMap PoolId Coin :=
  let stake := saturatingAdd (amountOf base entry.1) (amountOf delegation.rewards entry.1)
  if stake = 0 then mark
  else (mark.1.insert entry.1 (entry.2, stake), credit mark.2 entry.2 stake)

def buildBoundaryMarkSnapshot (base : BoundaryBaseStake) (delegation : DelegationState)
    (pools : BTreeMap PoolId PoolParams) : StakeSnapshot :=
  let marked := delegation.delegations.toList.foldl
    (markCredential base.canonicalCredentialStake delegation) (∅, ∅)
  { delegations := marked.1
    poolStakes := marked.2
    poolParams := snapshotPoolParams pools delegation.delegations }

/-- Before Conway a boundary without base stake marks the reward balances alone. -/
def rewardOnlyMark (delegation : DelegationState) (pools : BTreeMap PoolId PoolParams) :
    StakeSnapshot where
  delegations := delegation.delegations.map fun cred pool =>
    (pool, amountOf delegation.rewards cred)
  poolStakes := delegation.delegations.toList.foldl
    (fun stakes entry => if stakes.contains entry.2 then stakes else stakes.insert entry.2 0) ∅
  poolParams := snapshotPoolParams pools delegation.delegations

end Ade.Ledger
