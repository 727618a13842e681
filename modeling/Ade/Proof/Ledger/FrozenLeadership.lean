import Ade.Ledger.FrozenLeadership
import Ade.Proof.Ledger.EpochAccumulator

/-!
# The frozen leadership distribution

Pools, keys, stakes and the total are captured at different moments of a boundary. The reward update
changes no delegation, and nothing that is captured later has seen the reaped pools, so that all four
are about the delegations and the pools that stood before the boundary. A credential without stake is
in neither sum.
-/

namespace Ade.Proof.Ledger
open Library Ade.Ledger

/-! ## Sums -/

theorem sum_map_single {K : Type} [DecidableEq K] {keys : List K} (distinct : keys.Nodup) {key : K}
    (member : key ∈ keys) (amount : Nat) :
    (keys.map fun other => if key = other then amount else 0).sum = amount := by
  induction keys with
  | nil => cases member
  | cons first keys ih =>
      obtain ⟨fresh, distinct⟩ := List.nodup_cons.mp distinct
      rw [List.map_cons, List.sum_cons]
      rcases List.mem_cons.mp member with equal | later
      · rw [if_pos equal, Nat.add_eq_left, List.sum_eq_zero]
        intro entry listed
        obtain ⟨other, inside, rfl⟩ := List.mem_map.mp listed
        have different : key ≠ other := fun same => fresh (by rwa [← equal, same])
        exact if_neg different
      · have different : key ≠ first := fun same => fresh (by rwa [← same])
        rw [if_neg different, Nat.zero_add, ih distinct later]

/-- Every item is counted under its own key. -/
theorem sum_by_key {ι K : Type} [DecidableEq K] {keys : List K} (distinct : keys.Nodup) (key : ι → K)
    (amount : ι → Nat) {items : List ι} (covered : ∀ item ∈ items, key item ∈ keys) :
    (keys.map fun k => ((items.filter fun item => key item = k).map amount).sum).sum =
      (items.map amount).sum := by
  induction items with
  | nil =>
      rw [List.sum_eq_zero]
      · rfl
      · intro entry listed
        obtain ⟨k, -, rfl⟩ := List.mem_map.mp listed
        rfl
  | cons item items ih =>
      have split : ∀ k, (((item :: items).filter fun item => key item = k).map amount).sum =
          (if key item = k then amount item else 0) +
            ((items.filter fun item => key item = k).map amount).sum := by
        intro k
        rw [List.filter_cons]
        by_cases same : key item = k
        · rw [if_pos (decide_eq_true same), if_pos same, List.map_cons, List.sum_cons]
        · rw [if_neg (by rw [decide_eq_true_iff]; exact same), if_neg same, Nat.zero_add]
      rw [List.map_congr_left fun k _ => split k, List.sum_map_add,
        sum_map_single distinct (covered item (List.mem_cons_self ..)),
        ih fun other member => covered other (List.mem_cons_of_mem _ member), List.map_cons,
        List.sum_cons]

theorem foldl_saturatingAdd_eq {amounts : List UInt64} {start : UInt64}
    (fits : start.toNat + (amounts.map UInt64.toNat).sum < 2 ^ 64) :
    (amounts.foldl saturatingAdd start).toNat = start.toNat + (amounts.map UInt64.toNat).sum := by
  induction amounts generalizing start with
  | nil => rfl
  | cons amount amounts ih =>
      rw [List.map_cons, List.sum_cons] at fits ⊢
      have first := @saturatingAdd_toNat start amount (by omega)
      rw [List.foldl_cons, ih (by omega), first, Nat.add_assoc]

theorem amountOf_credit {K : Type} [Ord K] [Std.TransOrd K] [Std.LawfulEqOrd K] [DecidableEq K]
    (table : BTreeMap K UInt64) (key other : K) (amount : UInt64) :
    amountOf (credit table key amount) other =
      if key = other then saturatingAdd (amountOf table key) amount else amountOf table other := by
  unfold credit
  rw [amountOf, BTreeMap.getElem?_insert]
  split_ifs with same
  · rfl
  · rfl

/-! ## The mark -/

/-- What the delegators of a mark have. -/
def markedStake (mark : BTreeMap StakeCredential (PoolId × Coin)) : Nat :=
  (mark.toList.map fun entry => entry.2.2.toNat).sum

theorem markedStake_insert {mark : BTreeMap StakeCredential (PoolId × Coin)} {cred : StakeCredential}
    (fresh : cred ∉ mark) (entry : PoolId × Coin) :
    markedStake (mark.insert cred entry) = entry.2.toNat + markedStake mark := by
  unfold markedStake
  rw [((BTreeMap.toList_insert_perm fresh entry).map _).sum_eq, List.map_cons, List.sum_cons]

section
variable {base : BTreeMap StakeCredential Coin} {delegation : DelegationState}
  {mark : BTreeMap StakeCredential (PoolId × Coin) × BTreeMap PoolId Coin}

theorem markCredential_step {entry : StakeCredential × PoolId} (fresh : entry.1 ∉ mark.1)
    (fits : (amountOf mark.2 entry.2).toNat + credentialStake base delegation.rewards entry.1 < 2 ^ 64) :
    markedStake (markCredential base delegation mark entry).1 =
        credentialStake base delegation.rewards entry.1 + markedStake mark.1 ∧
      ∀ poolId, (amountOf (markCredential base delegation mark entry).2 poolId).toNat =
        (amountOf mark.2 poolId).toNat +
          if entry.2 = poolId then credentialStake base delegation.rewards entry.1 else 0 := by
  have stake : (saturatingAdd (amountOf base entry.1) (amountOf delegation.rewards entry.1)).toNat =
      credentialStake base delegation.rewards entry.1 :=
    saturatingAdd_toNat (by unfold credentialStake at fits; omega)
  unfold markCredential
  dsimp only
  split_ifs with zero
  · rw [zero] at stake
    rw [← stake]
    refine ⟨(Nat.zero_add _).symm, fun poolId => ?_⟩
    rw [show (0 : UInt64).toNat = 0 from rfl, ite_self, Nat.add_zero]
  · refine ⟨by rw [markedStake_insert fresh, stake], fun poolId => ?_⟩
    dsimp only
    rw [amountOf_credit]
    split_ifs with same
    · subst same
      rw [saturatingAdd_toNat (by omega), stake]
    · rfl

theorem markCredential_only {entry : StakeCredential × PoolId} {cred : StakeCredential}
    (other : entry.1 ≠ cred) (fresh : cred ∉ mark.1) :
    cred ∉ (markCredential base delegation mark entry).1 := by
  unfold markCredential
  dsimp only
  split_ifs
  · exact fresh
  · rw [BTreeMap.mem_insert, not_or]
    exact ⟨other, fresh⟩

/-- No pool and no total saturates, if all the stake together fits. -/
theorem markCredentials {entries : List (StakeCredential × PoolId)}
    (distinct : (entries.map Prod.fst).Nodup) (fresh : ∀ entry ∈ entries, entry.1 ∉ mark.1)
    (fits : ∀ poolId, (amountOf mark.2 poolId).toNat +
      (entries.map fun entry => credentialStake base delegation.rewards entry.1).sum < 2 ^ 64) :
    markedStake (entries.foldl (markCredential base delegation) mark).1 = markedStake mark.1 +
        (entries.map fun entry => credentialStake base delegation.rewards entry.1).sum ∧
      ∀ poolId, (amountOf (entries.foldl (markCredential base delegation) mark).2 poolId).toNat =
        (amountOf mark.2 poolId).toNat + ((entries.filter fun entry => entry.2 = poolId).map
          fun entry => credentialStake base delegation.rewards entry.1).sum := by
  induction entries generalizing mark with
  | nil => exact ⟨rfl, fun _ => rfl⟩
  | cons entry entries ih =>
      obtain ⟨unlisted, distinct⟩ := List.nodup_cons.mp distinct
      simp only [List.map_cons, List.sum_cons] at fits
      have here := fits entry.2
      obtain ⟨marked, staked⟩ := @markCredential_step base delegation mark entry
        (fresh entry (List.mem_cons_self ..)) (by omega)
      have absent : ∀ later ∈ entries, later.1 ∉ (markCredential base delegation mark entry).1 := by
        intro later member
        apply markCredential_only
        · intro same
          exact unlisted (same ▸ List.mem_map_of_mem member)
        · exact fresh later (List.mem_cons_of_mem _ member)
      have room : ∀ poolId, (amountOf (markCredential base delegation mark entry).2 poolId).toNat +
          (entries.map fun entry => credentialStake base delegation.rewards entry.1).sum < 2 ^ 64 := by
        intro poolId
        have there := fits poolId
        rw [staked poolId]
        split_ifs <;> omega
      obtain ⟨total, each⟩ := ih distinct absent room
      rw [List.foldl_cons]
      refine ⟨?_, fun poolId => ?_⟩
      · rw [total, marked, List.map_cons, List.sum_cons]
        omega
      · rw [each poolId, staked poolId, List.filter_cons]
        by_cases same : entry.2 = poolId
        · rw [if_pos same, if_pos (decide_eq_true same), List.map_cons, List.sum_cons]
          omega
        · rw [if_neg same, if_neg (by rw [decide_eq_true_iff]; exact same)]
          omega

end

/-! ## The moments of a boundary -/

theorem boundary_builds_mark {Utxo : Type} {state next : LedgerState Utxo} {cert : CertState}
    {ratifyFrozen : FrozenRatificationInput → Except GovernanceTerminal RatificationRecord}
    {newEpoch : EpochNo} {base : BoundaryBaseStake} {slots : UInt64}
    {accounting : EpochBoundaryAccounting} (held : state.certState = .authoritative cert)
    (ran : applyEpochBoundaryWithRegistrations ratifyFrozen state newEpoch none (some base) slots =
      .ok (next, accounting)) :
    ∃ rewards snaps, rewardsAfterUpdate state slots = .ok rewards ∧
      next.epochState.snapshots = .authoritative snaps ∧
      snaps.mark = buildBoundaryMarkSnapshot base { cert.delegation with rewards } cert.pool.pools := by
  obtain ⟨snaps, snapsRan, ran⟩ := bind_ok ran
  obtain ⟨found, certRan, ran⟩ := bind_ok ran
  have same : found = cert := by
    have full := requireFull_ok (orTerminal_ok certRan)
    rw [held] at full
    exact (Projection.authoritative.inj full).symm
  subst same
  obtain ⟨gov, -, ran⟩ := bind_ok ran
  obtain ⟨plan, -, ran⟩ := bind_ok ran
  obtain ⟨pot, potRan, ran⟩ := bind_ok ran
  obtain ⟨allocation, allocated, ran⟩ := bind_ok ran
  obtain ⟨mark, markRan, ran⟩ := bind_ok ran
  obtain ⟨treasury, -, ran⟩ := bind_ok ran
  obtain ⟨frozen, frozenRan, ran⟩ := bind_ok ran
  have kept := (freezeRatification_keeps (orTerminal_ok frozenRan)).1
  cases ran
  cases orTerminal_ok markRan
  refine ⟨_, _, ?_, by rw [kept], rfl⟩
  exact bind_eq_ok.mpr ⟨snaps, snapsRan, bind_eq_ok.mpr ⟨found, certRan, bind_eq_ok.mpr
    ⟨pot, potRan, bind_eq_ok.mpr ⟨allocation, allocated, rfl⟩⟩⟩⟩

theorem reduceEpochFees_keeps {acc reduced : EpochAccumulator} {amount : Coin}
    (ran : reduceEpochFees acc amount = .ok reduced) : reduced.certState = acc.certState := by
  obtain ⟨epochFees, -, ran⟩ := bind_ok ran
  cases ran
  rfl

theorem applyBootstrapRewardDeltas_keeps {delegation paid : DelegationState}
    {delta : BTreeMap StakeCredential Coin}
    (ran : applyBootstrapRewardDeltas delegation delta = some paid) :
    ∃ rewards, paid = { delegation with rewards } := by
  obtain ⟨rewards, -, ran⟩ := Option.bind_eq_some_iff.mp ran
  cases ran
  exact ⟨rewards, rfl⟩

/-- A seed authority pays rewards, and changes no delegation. -/
theorem stageSeedReward_keeps {commitments : SeedCommitments} {acc : EpochAccumulator}
    {authority : Option SeedRewardAuthority} {staged : StagedReward}
    (ran : stageSeedReward commitments acc authority = .ok staged) :
    ∃ rewards, staged.acc.certState =
      { acc.certState with delegation := { acc.certState.delegation with rewards } } := by
  match authority with
  | none =>
      cases ran
      exact ⟨_, rfl⟩
  | some (.imported update) =>
      dsimp only [stageSeedReward] at ran
      split_ifs at ran
      · cases ran
      obtain ⟨paid, paidRan, ran⟩ := bind_ok ran
      obtain ⟨reduced, reducedRan, ran⟩ := bind_ok ran
      cases ran
      obtain ⟨rewards, rfl⟩ := applyBootstrapRewardDeltas_keeps (orError_ok paidRan)
      exact ⟨rewards, reduceEpochFees_keeps reducedRan⟩
  | some (.native reward) =>
      dsimp only [stageSeedReward] at ran
      split_ifs at ran
      · cases ran
      obtain ⟨reduced, reducedRan, ran⟩ := bind_ok ran
      cases ran
      exact ⟨_, reduceEpochFees_keeps reducedRan⟩

theorem applyBootstrapPots_keeps {acc crossed : EpochAccumulator} {pots : Option (Coin × Coin)}
    (ran : applyBootstrapPots acc pots = .ok crossed) :
    crossed.epochState.snapshots = acc.epochState.snapshots := by
  match pots with
  | none =>
      cases ran
      rfl
  | some (deltaReserves, deltaTreasury) =>
      obtain ⟨reserves, -, ran⟩ := bind_ok ran
      obtain ⟨treasury, -, ran⟩ := bind_ok ran
      cases ran
      rfl

theorem boundaryView_certState (acc : EpochAccumulator) (inputs : SeedBoundaryRewardInputs) :
    (boundaryView acc inputs).certState = .authoritative acc.certState := by
  cases inputs <;> rfl

section
variable {ratifyFrozen : FrozenRatificationInput → Except GovernanceTerminal RatificationRecord}
  {commitments : SeedCommitments} {acc after : EpochAccumulator} {target : EpochNo}
  {ctx : SelectedBlockCtx}

/-- What is frozen with the mark that was built over `rewards`. -/
def freezeInputs (acc : EpochAccumulator) (target leadership : EpochNo) (mark : StakeSnapshot) :
    BoundaryFreezeInputs where
  sourceEpoch := target
  targetLeadershipEpoch := leadership
  delegatedPools :=
    Std.ExtTreeSet.ofList (acc.certState.delegation.delegations.toList.map Prod.snd)
  registeredPoolVrfs := acc.certState.pool.pools.map fun _ params => params.vrfHash
  markPoolStakes := mark.poolStakes
  totalActiveStake := mark.totalActiveStake

theorem transition_freezes {inputs : BoundaryFreezeInputs}
    (ran : crossEpochBoundaryTransition ratifyFrozen commitments acc target ctx = .ok (after, inputs)) :
    ∃ base rewards leadership, ctx.boundaryMark = some base ∧
      acc.rewardsAfterUpdate commitments target ctx = .ok rewards ∧
      checkedAdd target 1 = some leadership ∧
      inputs = freezeInputs acc target leadership (buildBoundaryMarkSnapshot (boundaryBase ctx base)
        { acc.certState.delegation with rewards } acc.certState.pool.pools) := by
  obtain ⟨base, marked, ran⟩ := bind_ok ran
  obtain ⟨authority, taken, ran⟩ := bind_ok ran
  obtain ⟨staged, stagedRan, ran⟩ := bind_ok ran
  obtain ⟨result, computed, ran⟩ := bind_ok ran
  obtain ⟨-, -, ran⟩ := bind_ok ran
  obtain ⟨cert, -, ran⟩ := bind_ok ran
  obtain ⟨gov, -, ran⟩ := bind_ok ran
  obtain ⟨crossed, pots, ran⟩ := bind_ok ran
  obtain ⟨leadership, next, ran⟩ := bind_ok ran
  obtain ⟨mark, rotated, ran⟩ := bind_ok ran
  cases ran
  obtain ⟨paid, certKept⟩ := stageSeedReward_keeps stagedRan
  obtain ⟨rewards, snaps, updated, full, built⟩ :=
    boundary_builds_mark (boundaryView_certState _ _) (orBoundaryFailure_ok computed)
  have snapshots := applyBootstrapPots_keeps pots
  dsimp only at snapshots
  rw [full] at snapshots
  rw [rotatedMark, snapshots] at rotated
  cases rotated
  rw [certKept] at built
  refine ⟨base, rewards, leadership, requireBoundaryStake_ok marked, ?_, orError_ok next, ?_⟩
  · refine bind_eq_ok.mpr ⟨authority, taken, bind_eq_ok.mpr ⟨staged, stagedRan, ?_⟩⟩
    rw [updated]
    rfl
  · rw [built]
    rfl

end

/-! ## The frozen pools -/

theorem getElem?_freezePools (stakes : BTreeMap PoolId Coin) (vrfs : BTreeMap PoolId Hash32)
    (poolIds : List PoolId) (pools : BTreeMap Hash28 LeadershipPoolEntry) (poolId : PoolId) :
    (poolIds.foldl (freezePool stakes vrfs) pools)[poolId]? =
      if poolId ∈ poolIds then
        ((vrfs[poolId]?).map (LeadershipPoolEntry.mk (amountOf stakes poolId))).or pools[poolId]?
      else pools[poolId]? := by
  induction poolIds generalizing pools with
  | nil => simp only [List.foldl_nil, List.not_mem_nil, if_false]
  | cons first poolIds ih =>
      rw [List.foldl_cons, ih, freezePool]
      by_cases same : first = poolId
      · subst same
        cases vrfs[first]? with
        | none => simp only [List.mem_cons, true_or, ite_self, Option.map_none, Option.none_or]
        | some vrf =>
            simp only [BTreeMap.getElem?_insert, if_true, Option.map_some, Option.some_or, ite_self,
              List.mem_cons, true_or]
      · have other : poolId ≠ first := fun equal => same equal.symm
        cases vrfs[first]? with
        | none => simp only [List.mem_cons, other, false_or]
        | some vrf => simp only [BTreeMap.getElem?_insert, if_neg same, List.mem_cons, other, false_or]

section
variable {cert : CertState} {base : BoundaryBaseStake} {rewards : BTreeMap StakeCredential Coin}
  {epoch : EpochNo} {slot : SlotNo} {hash commitment : Hash32}

/-- The distribution over what stood before the boundary. -/
def frozenDistr (cert : CertState) (mark : StakeSnapshot) (epoch : EpochNo) (slot : SlotNo)
    (hash commitment : Hash32) : FrozenLeadershipPoolDistr :=
  .fromBoundarySnapshot epoch slot hash commitment
    (Std.ExtTreeSet.ofList (cert.delegation.delegations.toList.map Prod.snd)) mark.poolStakes
    (cert.pool.pools.map fun _ params => params.vrfHash) mark.totalActiveStake

theorem frozenDistr_pools (mark : StakeSnapshot) (poolId : PoolId) :
    (frozenDistr cert mark epoch slot hash commitment).pools[poolId]? =
      if poolId ∈ cert.delegation.delegations.toList.map Prod.snd then
        (cert.pool.pools[poolId]?).map fun params =>
          ⟨amountOf mark.poolStakes poolId, params.vrfHash⟩
      else none := by
  have looked := getElem?_freezePools mark.poolStakes
    (cert.pool.pools.map fun _ params => params.vrfHash)
    (Std.ExtTreeSet.ofList (cert.delegation.delegations.toList.map Prod.snd) compare).toList ∅ poolId
  simp only [Std.ExtTreeSet.mem_toList, Std.ExtTreeSet.mem_ofList, List.contains_iff_mem,
    Std.ExtTreeMap.getElem?_map, Option.map_map, Std.ExtTreeMap.getElem?_empty, Option.or_none] at looked
  exact looked

theorem mem_delegated {poolId : PoolId} :
    poolId ∈ cert.delegation.delegations.toList.map Prod.snd ↔
      ∃ cred : StakeCredential, cert.delegation.delegations[cred]? = some poolId := by
  rw [List.mem_map]
  constructor
  · rintro ⟨⟨cred, _⟩, member, rfl⟩
    exact ⟨cred, BTreeMap.mem_toList.mp member⟩
  · rintro ⟨cred, found⟩
    exact ⟨(cred, poolId), BTreeMap.mem_toList.mpr found, rfl⟩

theorem frozenDistr_some {mark : StakeSnapshot} {poolId : PoolId} {entry : LeadershipPoolEntry}
    (found : (frozenDistr cert mark epoch slot hash commitment).pools[poolId]? = some entry) :
    poolId ∈ cert.delegation.delegations.toList.map Prod.snd ∧
      entry.activeStake = amountOf mark.poolStakes poolId ∧
      ∃ params : PoolParams, cert.pool.pools[poolId]? = some params ∧ entry.vrfKeyhash = params.vrfHash := by
  rw [frozenDistr_pools] at found
  split_ifs at found with delegated
  obtain ⟨params, registered, rfl⟩ := Option.map_eq_some_iff.mp found
  exact ⟨delegated, rfl, params, registered, rfl⟩

theorem mem_frozenDistr (wellFormed : cert.DelegatesToPools) {mark : StakeSnapshot} {poolId : PoolId} :
    poolId ∈ (frozenDistr cert mark epoch slot hash commitment).pools ↔
      poolId ∈ cert.delegation.delegations.toList.map Prod.snd := by
  rw [Std.ExtTreeMap.mem_iff_isSome_getElem?, frozenDistr_pools]
  split_ifs with delegated
  · obtain ⟨cred, target⟩ := mem_delegated.mp delegated
    have registered := wellFormed cred poolId target
    rw [Std.ExtTreeMap.mem_iff_isSome_getElem?] at registered
    rw [Option.isSome_map]
    exact iff_of_true registered delegated
  · exact iff_of_false Bool.false_ne_true delegated

theorem sum_relativeStake (distr : FrozenLeadershipPoolDistr)
    (entries : List (Hash28 × LeadershipPoolEntry)) :
    (entries.map fun entry => distr.relativeStake entry.2).sum =
      ((entries.map fun entry => entry.2.activeStake.toNat).sum : Nat) /
        (distr.totalActiveStake.toNat : ℚ) := by
  induction entries with
  | nil => simp
  | cons entry entries ih =>
      rw [List.map_cons, List.sum_cons, ih, List.map_cons, List.sum_cons, Nat.cast_add, add_div]
      rfl

theorem nodup_fst_toList {K V : Type} [Ord K] [Std.TransOrd K] [Std.LawfulEqOrd K]
    (table : BTreeMap K V) : (table.toList.map Prod.fst).Nodup := by
  rw [Std.ExtTreeMap.map_fst_toList_eq_keys]
  exact Std.ExtTreeMap.nodup_keys

theorem stake_of_delegators (delegations : BTreeMap StakeCredential PoolId)
    (amount : StakeCredential → Nat) (poolId : PoolId) :
    ((delegations.toList.filter fun entry => entry.2 = poolId).map fun entry => amount entry.1).sum =
      ((delegatorsOf delegations poolId).map amount).sum := by
  rw [delegatorsOf, List.map_map]
  rfl

theorem frozenDistr_distributes (wellFormed : cert.DelegatesToPools)
    (fits : delegatedStake cert.delegation.delegations base.canonicalCredentialStake rewards < 2 ^ 64) :
    (frozenDistr cert (buildBoundaryMarkSnapshot base { cert.delegation with rewards } cert.pool.pools)
      epoch slot hash commitment).Distributes cert base.canonicalCredentialStake rewards := by
  set delegation : DelegationState := { cert.delegation with rewards } with staged
  set mark := buildBoundaryMarkSnapshot base delegation cert.pool.pools with built
  set distr := frozenDistr cert mark epoch slot hash commitment with frozen
  obtain ⟨marked, staked⟩ := @markCredentials base.canonicalCredentialStake delegation (∅, ∅) _
    (nodup_fst_toList delegation.delegations) (fun _ _ => Std.ExtTreeMap.not_mem_empty) (fun poolId => by
      rw [amountOf, Std.ExtTreeMap.getElem?_empty]
      exact (Nat.zero_add _).trans_lt fits)
  have total : distr.totalActiveStake.toNat =
      delegatedStake cert.delegation.delegations base.canonicalCredentialStake rewards := by
    have sum : markedStake mark.delegations =
        delegatedStake cert.delegation.delegations base.canonicalCredentialStake rewards :=
      marked.trans (Nat.zero_add _)
    have amounts : ((mark.delegations.toList.map fun entry => entry.2.2).map UInt64.toNat).sum =
        markedStake mark.delegations := by rw [List.map_map]; rfl
    have folded := @foldl_saturatingAdd_eq (mark.delegations.toList.map fun entry => entry.2.2) 0
      (by rw [amounts, sum]; exact (Nat.zero_add _).trans_lt fits)
    rw [amounts, sum] at folded
    exact folded.trans (Nat.zero_add _)
  have stakes : ∀ (poolId : PoolId) (entry : LeadershipPoolEntry), distr.pools[poolId]? = some entry →
      entry.activeStake.toNat = ((delegatorsOf cert.delegation.delegations poolId).map
        (credentialStake base.canonicalCredentialStake rewards)).sum := by
    intro poolId entry found
    rw [(frozenDistr_some found).2.1]
    exact ((staked poolId).trans (Nat.zero_add _)).trans (stake_of_delegators _ _ poolId)
  have sum : (distr.pools.toList.map fun entry => entry.2.activeStake.toNat).sum =
      distr.totalActiveStake.toNat := by
    have covered : ∀ item ∈ cert.delegation.delegations.toList, item.2 ∈ distr.pools.toList.map Prod.fst := by
      intro item member
      rw [Std.ExtTreeMap.map_fst_toList_eq_keys, Std.ExtTreeMap.mem_keys]
      exact (mem_frozenDistr wellFormed).mpr (List.mem_map_of_mem member)
    have counted := sum_by_key (nodup_fst_toList distr.pools) Prod.snd
      (fun item : StakeCredential × PoolId =>
        credentialStake base.canonicalCredentialStake rewards item.1) covered
    rw [List.map_map] at counted
    rw [total, delegatedStake, ← counted]
    congr 1
    apply List.map_congr_left
    intro entry member
    rw [stakes entry.1 entry.2 (BTreeMap.mem_toList.mp member), ← stake_of_delegators]
    rfl
  refine ⟨fun poolId => (mem_frozenDistr wellFormed).trans mem_delegated, stakes,
    fun poolId entry found => (frozenDistr_some found).2.2, sum, fun poolId entry found => ?_,
    fun positive => ?_⟩
  · have listed : entry.activeStake.toNat ∈ distr.pools.toList.map fun entry => entry.2.activeStake.toNat :=
      List.mem_map.mpr ⟨(poolId, entry), BTreeMap.mem_toList.mpr found, rfl⟩
    have below := List.single_le_sum (fun _ _ => Nat.zero_le _) _ listed
    rw [sum] at below
    exact div_le_one_of_le₀ (by exact_mod_cast below) (Nat.cast_nonneg _)
  · have nonzero : (distr.totalActiveStake.toNat : ℚ) ≠ 0 := by
      rw [Nat.cast_ne_zero]
      exact fun zero => positive (UInt64.toNat_inj.mp zero)
    rw [sum_relativeStake, sum, div_self nonzero]

end

/-! ## Crossing -/

/-- Whatever boundary is crossed, the distribution that it freezes is one: every pool with a delegator
before the boundary has the stake of its delegators after the reward update, under the key that was
registered before the boundary, and the stakes add up to the total. -/
theorem frozen_leadership_distributes
    (ratifyFrozen : FrozenRatificationInput → Except GovernanceTerminal RatificationRecord)
    (commitments : SeedCommitments) (acc after : EpochAccumulator) (target : EpochNo)
    (ctx : SelectedBlockCtx) (slot : SlotNo) (hash commitment : Hash32) (effect : EpochBoundaryEffect)
    (wellFormed : acc.certState.DelegatesToPools)
    (crossed : crossEpochBoundaryWithEffect ratifyFrozen commitments acc target ctx slot hash
      commitment = .ok (after, effect)) :
    ∃ base rewards distr, ctx.boundaryMark = some base ∧
      acc.rewardsAfterUpdate commitments target ctx = .ok rewards ∧
      effect = .freezeLeadership target distr.targetLeadershipEpoch distr ∧
      distr.targetLeadershipEpoch.toNat = target.toNat + 1 ∧
      distr.sourceSlot = slot ∧ distr.sourceHash = hash ∧
      distr.sourceCheckpointCommitment = commitment ∧
      (delegatedStake acc.certState.delegation.delegations base rewards < 2 ^ 64 →
        distr.Distributes acc.certState base rewards) := by
  obtain ⟨⟨reached, inputs⟩, ran, returned⟩ := bind_ok crossed
  cases returned
  obtain ⟨base, rewards, leadership, marked, updated, next, rfl⟩ := transition_freezes ran
  refine ⟨base, rewards, frozenDistr acc.certState (buildBoundaryMarkSnapshot (boundaryBase ctx base)
    { acc.certState.delegation with rewards } acc.certState.pool.pools) leadership slot hash commitment,
    marked, updated, rfl, ?_, rfl, rfl, rfl, ?_⟩
  · exact checkedAdd_toNat next
  · exact fun fits => @frozenDistr_distributes acc.certState (boundaryBase ctx base) rewards
      leadership slot hash commitment wellFormed fits

/-- A pool with two delegators, one of them without stake, that retires at the boundary with a new key
staged. -/
def sampleDelegatedCert : CertState where
  delegation :=
    { registrations := ∅
      delegations := ((∅ : BTreeMap StakeCredential PoolId).insert (sampleKey 1) (Vector.replicate 28 1)).insert
        (sampleKey 2) (Vector.replicate 28 1)
      rewards := (∅ : BTreeMap StakeCredential Coin).insert (sampleKey 1) 5 }
  pool :=
    { pools := (∅ : BTreeMap PoolId PoolParams).insert (Vector.replicate 28 1)
        ⟨Vector.replicate 28 1, Vector.replicate 32 1, 0, 0, (0, 1), [], []⟩
      futurePools := (∅ : BTreeMap PoolId PoolParams).insert (Vector.replicate 28 1)
        ⟨Vector.replicate 28 1, Vector.replicate 32 2, 0, 0, (0, 1), [], []⟩
      retiring := (∅ : BTreeMap PoolId EpochNo).insert (Vector.replicate 28 1) 508 }

def sampleDelegatedAccumulator : EpochAccumulator :=
  { sampleAccumulator none with certState := sampleDelegatedCert }

def sampleStakeCtx : SelectedBlockCtx :=
  { sampleCtx with boundaryMark := some ((∅ : BTreeMap StakeCredential Coin).insert (sampleKey 1) 30) }

theorem sampleDelegated_wellFormed : sampleDelegatedCert.DelegatesToPools := by
  intro cred poolId found
  have target : poolId = Vector.replicate 28 1 := by
    unfold sampleDelegatedCert at found
    simp only [BTreeMap.getElem?_insert, Std.ExtTreeMap.getElem?_empty] at found
    split_ifs at found <;> exact (Option.some.inj found).symm
  rw [target]
  exact BTreeMap.mem_insert.mpr (.inl rfl)

theorem frozen_leadership_distributes_sample : ∃ after effect base distr,
    crossEpochBoundaryWithEffect sampleEnv.ratifyFrozen sampleEnv.commitments sampleDelegatedAccumulator
      508 sampleStakeCtx 150 (sampleDigest []) (sampleDigest [1]) = .ok (after, effect) ∧
    effect = .freezeLeadership 508 distr.targetLeadershipEpoch distr ∧
    distr.Distributes sampleDelegatedCert base
      ((∅ : BTreeMap StakeCredential Coin).insert (sampleKey 1) 5) := by
  obtain ⟨⟨after, effect⟩, crossed⟩ := exists_of_isOk (by decide +kernel :
    (crossEpochBoundaryWithEffect sampleEnv.ratifyFrozen sampleEnv.commitments
      sampleDelegatedAccumulator 508 sampleStakeCtx 150 (sampleDigest []) (sampleDigest [1])).isOk = true)
  obtain ⟨base, rewards, distr, marked, updated, frozen, -, -, -, -, distributes⟩ :=
    frozen_leadership_distributes sampleEnv.ratifyFrozen sampleEnv.commitments
      sampleDelegatedAccumulator after 508 sampleStakeCtx 150 (sampleDigest []) (sampleDigest [1]) effect
      sampleDelegated_wellFormed crossed
  have known : sampleDelegatedAccumulator.rewardsAfterUpdate sampleEnv.commitments 508 sampleStakeCtx =
      .ok ((∅ : BTreeMap StakeCredential Coin).insert (sampleKey 1) 5) := by decide +kernel
  cases known.symm.trans updated
  cases marked
  exact ⟨after, effect, _, distr, crossed, frozen, distributes (by decide +kernel)⟩

end Ade.Proof.Ledger
