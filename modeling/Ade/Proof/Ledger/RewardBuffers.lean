import Ade.Proof.Ledger.VoteCapture

namespace Ade.Proof.Ledger
open Library Library.Cursor Ade.Ledger

/-! ## Amounts of an epoch -/

section
variable {blocks later : List SelectedBlock} {epoch target : Nat} {amount : SelectedBlock → Nat}

theorem inEpoch_append (blocks later : List SelectedBlock) (epoch : Nat)
    (amount : SelectedBlock → Nat) :
    inEpoch (blocks ++ later) epoch amount =
      inEpoch blocks epoch amount + inEpoch later epoch amount := by
  unfold inEpoch
  rw [List.filter_append, List.map_append, List.sum_append]

theorem inEpoch_none (other : ∀ block ∈ blocks, block.ctx.blockEpoch.toNat ≠ epoch) :
    inEpoch blocks epoch amount = 0 := by
  unfold inEpoch
  have nothing : blocks.filter (fun block => block.ctx.blockEpoch.toNat = epoch) = [] := by
    rw [List.filter_eq_nil_iff]
    intro block member
    simpa using other block member
  rw [nothing]
  rfl

theorem inEpoch_single {block : SelectedBlock} (within_ : block.ctx.blockEpoch.toNat = epoch) :
    inEpoch [block] epoch amount = amount block := by
  unfold inEpoch
  rw [List.filter_cons_of_pos (by simpa using within_)]
  simp

/-- What the boundary into `target` is fed, where `older` and `newer` stood in the two buffers of the
epoch `first`. -/
def fedInto (first older newer : Nat) (blocks : List SelectedBlock) (amount : SelectedBlock → Nat)
    (target : Nat) : Nat :=
  if target = first + 1 then older
  else if target = first + 2 then newer + inEpoch blocks first amount
  else inEpoch blocks (target - 2) amount

variable {first older newer : Nat}

theorem fedInto_append (since : first < target)
    (after : ∀ block ∈ later, target < block.ctx.blockEpoch.toNat + 2) :
    fedInto first older newer (blocks ++ later) amount target =
      fedInto first older newer blocks amount target := by
  have above : ∀ epoch, epoch + 2 = target → inEpoch later epoch amount = 0 := by
    intro epoch behind
    apply inEpoch_none
    intro block member
    have passed := after block member
    omega
  unfold fedInto
  split_ifs with oldest newest
  · rfl
  · rw [inEpoch_append, above first newest.symm, add_zero]
  · rw [inEpoch_append, above (target - 2) (by omega), add_zero]

/-- What has been collected for the boundary after the next. -/
theorem fedInto_collected (since : first ≤ epoch) :
    fedInto first older newer blocks amount (epoch + 2) =
      (if epoch = first then newer else 0) + inEpoch blocks epoch amount := by
  unfold fedInto
  rw [if_neg (by omega)]
  by_cases newest : epoch = first
  · rw [if_pos (by omega), if_pos newest, newest]
  · rw [if_neg (by omega), if_neg newest, zero_add]
    rfl

/-- A new epoch starts with nothing. -/
theorem fedInto_fresh (since : first ≤ epoch)
    (earlier : ∀ block ∈ blocks, block.ctx.blockEpoch.toNat ≤ epoch) :
    fedInto first older newer blocks amount (epoch + 1 + 2) = 0 := by
  have nothing : inEpoch blocks (epoch + 1) amount = 0 := by
    apply inEpoch_none
    intro block member
    have within_ := earlier block member
    omega
  rw [fedInto_collected (by omega), if_neg (by omega), nothing]

theorem fedInto_block {block : SelectedBlock} (since : first ≤ epoch)
    (within_ : block.ctx.blockEpoch.toNat = epoch) :
    fedInto first older newer (blocks ++ [block]) amount (epoch + 2) =
      fedInto first older newer blocks amount (epoch + 2) + amount block := by
  rw [fedInto_collected since, fedInto_collected since, inEpoch_append, inEpoch_single within_,
    add_assoc]

end

/-! ## What a block collects -/

section
variable {env : AccumulatorEnv} {invalid : BTreeSet UInt64}

theorem applyTxScan_ok {scanned : ScannedTx} {effects next : BlockTxEffects}
    (applied : applyTxScan env scanned.tx scanned.index invalid scanned.bodyBytes effects =
      .ok next) :
    next.fees.toNat = effects.fees.toNat + txFee env invalid scanned ∧
      next.donations.toNat = effects.donations.toNat + txDonation invalid scanned := by
  obtain ⟨donations, donated, applied⟩ := bind_ok applied
  have pot := checkedAdd_toNat (orError_ok donated)
  unfold txFee txDonation
  unfold txDonationContribution at pot
  by_cases discarded : invalid.contains scanned.index
  · rw [if_pos discarded] at applied ⊢
    rw [if_pos discarded]
    rw [discarded] at pot
    obtain ⟨balance, consumed, applied⟩ := bind_ok applied
    obtain ⟨fees, added, returned⟩ := bind_ok applied
    cases returned
    rw [consumed]
    exact ⟨checkedAdd_toNat (orError_ok added), pot⟩
  · rw [if_neg discarded] at applied ⊢
    rw [if_neg discarded]
    rw [Bool.not_eq_true] at discarded
    rw [discarded] at pot
    obtain ⟨fees, added, returned⟩ := bind_ok applied
    cases returned
    exact ⟨checkedAdd_toNat (orError_ok added), pot⟩

/-- The effects of a block are the sums over its transactions. -/
structure Collects (env : AccumulatorEnv) (invalid : BTreeSet UInt64) (effects : BlockTxEffects)
    (txs : List ScannedTx) : Prop where
  fees : effects.fees.toNat = (txs.map (txFee env invalid)).sum
  donations : effects.donations.toNat = (txs.map (txDonation invalid)).sum

theorem scanTx_readsAlong (data : Bytes) (index : UInt64) :
    ReadsAlong (Collects env invalid) (scanTx env data invalid index) (collectTx data index) := by
  intro effects txs offset next after collected ran
  obtain ⟨bodyStart, moved, got, ran⟩ := of_runAt_bind_ok ran
  obtain ⟨tx, moved', read, ran⟩ := of_runAt_bind_ok ran
  obtain ⟨bodyEnd, moved'', got', ran⟩ := of_runAt_bind_ok ran
  rw [runAt_liftExcept] at ran
  obtain ⟨applied, unmoved⟩ := Prod.mk.inj ran
  obtain ⟨fees, donations⟩ :=
    @applyTxScan_ok env invalid ⟨index, tx, Codec.slice data (bodyStart, bodyEnd)⟩ _ _ applied
  refine ⟨txs ++ [⟨index, tx, Codec.slice data (bodyStart, bodyEnd)⟩], ?_, ?_, ?_⟩
  · unfold collectTx
    rw [runAt_bind_ok got, runAt_bind_ok read, runAt_bind_ok got', ← unmoved]
    rfl
  · rw [fees, collected.fees]
    simp
  · rw [donations, collected.donations]
    simp

theorem scanBlockTxEffects_ok {block : ShelleyBlock} {effects : BlockTxEffects}
    (scanned : scanBlockTxEffects env block.txCount block.txBodies invalid = .ok effects) :
    Collects env invalid effects (scannedTxs block) := by
  unfold scanBlockTxEffects at scanned
  unfold scannedTxs
  split_ifs at scanned ⊢ with empty
  · cases scanned
    exact ⟨rfl, rfl⟩
  · obtain ⟨counted, walked, required⟩ := bind_ok scanned
    have read : runAt (forEachBody block.txBodies (scanTx env block.txBodies invalid) ⟨0, 0, []⟩) 0 =
        (.ok counted, _) := Prod.ext walked rfl
    have nothing : Collects env invalid ⟨0, 0, []⟩ [] := ⟨rfl, rfl⟩
    obtain ⟨collected, ran, sums⟩ :=
      forEachBody_readsAlong (scanTx_readsAlong block.txBodies) nothing read
    unfold requireCount at required
    split_ifs at required
    cases required
    rw [ran]
    exact sums

theorem countBlock_ok {counts next : BTreeMap PoolId UInt64} {issuer : PoolId}
    (counted : countBlock counts issuer = .ok next) (pool : PoolId) :
    (amountOf next pool).toNat = (amountOf counts pool).toNat + if issuer = pool then 1 else 0 := by
  obtain ⟨blocks, added, returned⟩ := bind_ok counted
  cases returned
  have one_more := checkedAdd_toNat (orError_ok added)
  by_cases same : issuer = pool
  · subst same
    rw [amountOf, BTreeMap.getElem?_insert, if_pos rfl, if_pos rfl, Option.getD_some]
    exact one_more
  · rw [amountOf, BTreeMap.getElem?_insert, if_neg same, if_neg same]
    rfl

/-- What the transactions of a block change in the buffers. -/
structure BlockCollected (env : AccumulatorEnv) (acc : EpochAccumulator) (block : SelectedBlock)
    (applied : EpochAccumulator) : Prop where
  quiet : applied.pendingRewardUpdate = acc.pendingRewardUpdate
  epoch : applied.epochState.epoch = acc.epochState.epoch
  prevBlockProduction : applied.prevBlockProduction = acc.prevBlockProduction
  prevEpochFees : applied.prevEpochFees = acc.prevEpochFees
  blocks : ∀ pool, (amountOf applied.epochState.blockProduction pool).toNat =
    (amountOf acc.epochState.blockProduction pool).toNat + block.madeBy pool
  fees : applied.epochState.epochFees.toNat = acc.epochState.epochFees.toNat + block.fees env
  donations : applied.epochState.donationPot.toNat =
    acc.epochState.donationPot.toNat + block.donations env

theorem applyWithinEpoch_collects {acc applied : EpochAccumulator} {block : SelectedBlock}
    {decoded : CardanoEra × ShelleyBlock}
    (decodes : decodeSelectedBlock env block.bytes = .ok decoded)
    (ran : applyWithinEpoch env acc decoded.2 decoded.1 block.ctx = .ok applied) :
    BlockCollected env acc block applied := by
  obtain ⟨invalid, canonical, ran⟩ := bind_ok ran
  obtain ⟨effects, scanned, ran⟩ := bind_ok ran
  obtain ⟨ledger, -, ran⟩ := bind_ok ran
  obtain ⟨gov, -, ran⟩ := bind_ok ran
  obtain ⟨blocks, counted, ran⟩ := bind_ok ran
  obtain ⟨fees, feesAdded, ran⟩ := bind_ok ran
  obtain ⟨donations, donationsAdded, ran⟩ := bind_ok ran
  cases ran
  have sums := scanBlockTxEffects_ok scanned
  have indices : invalidIndicesOf decoded.2 = invalid := by
    unfold invalidIndicesOf
    rw [canonical]
    rfl
  refine ⟨rfl, rfl, rfl, rfl, countBlock_ok counted, ?_, ?_⟩
  · unfold SelectedBlock.fees SelectedBlock.overTxs
    rw [decodes]
    dsimp only
    rw [indices, ← sums.fees]
    exact checkedAdd_toNat (orError_ok feesAdded)
  · unfold SelectedBlock.donations SelectedBlock.overTxs
    rw [decodes]
    dsimp only
    rw [indices, ← sums.donations]
    exact checkedAdd_toNat (orError_ok donationsAdded)

end

/-! ## The donation pot -/

section
variable {ratifyFrozen : FrozenRatificationInput → Except GovernanceTerminal RatificationRecord}
  {Utxo : Type} {state next : LedgerState Utxo} {newEpoch : EpochNo}

theorem checkedAdd_zero (amount : UInt64) : checkedAdd amount 0 = some amount :=
  checkedAdd_eq_some.mpr (by rw [UInt64.toNat_zero, add_zero])

theorem newTreasury_ok {treasury delta total_ : UInt64} {paid : Payouts} {donationPot : Coin}
    (ran : newTreasury treasury delta paid donationPot newEpoch = .ok total_) :
    ∃ undonated, newTreasury treasury delta paid 0 newEpoch = .ok undonated ∧
      total_.toNat = undonated.toNat + donationPot.toNat := by
  unfold newTreasury at ran ⊢
  dsimp only at ran ⊢
  split at ran
  · next added =>
      cases ran
      refine ⟨_, ?_, checkedAdd_toNat added⟩
      rw [checkedAdd_zero]
  · cases ran

/-- The record does not depend on the treasury. -/
theorem freezeRatification_treasury {frozen : LedgerState Utxo} {base : Option BoundaryBaseStake}
    {delegatedAtSnap : BTreeSet PoolId} (treasury : UInt64)
    (ran : freezeRatification ratifyFrozen next base delegatedAtSnap = .ok frozen) :
    freezeRatification ratifyFrozen
        { next with epochState := { next.epochState with treasury } } base delegatedAtSnap =
      .ok { frozen with epochState := { frozen.epochState with treasury } } := by
  unfold freezeRatification at ran ⊢
  dsimp only
  split_ifs at ran ⊢ with conway
  · cases base with
    | none => cases ran
    | some base =>
        obtain ⟨input, read, ran⟩ := bind_ok ran
        refine bind_eq_ok.mpr ⟨input, read, ?_⟩
        cases input with
        | none =>
            cases ran
            rfl
        | some input =>
            obtain ⟨record, ratified, ran⟩ := bind_ok ran
            refine bind_eq_ok.mpr ⟨record, ratified, ?_⟩
            split at ran
            · next held =>
                cases ran
                rfl
            · cases ran
              rfl
  · cases ran
    rfl

theorem boundary_donates {registrationOverride : Option (BTreeMap StakeCredential Unit)}
    {base : Option BoundaryBaseStake} {slots : UInt64} {accounting : EpochBoundaryAccounting}
    (ran : applyEpochBoundaryWithRegistrations ratifyFrozen state newEpoch registrationOverride base
      slots = .ok (next, accounting)) :
    ∃ treasury : UInt64, applyEpochBoundaryWithRegistrations ratifyFrozen
        { state with epochState := { state.epochState with donationPot := 0 } } newEpoch
        registrationOverride base slots =
          .ok ({ next with epochState := { next.epochState with treasury } }, accounting) ∧
      next.epochState.treasury.toNat = treasury.toNat + state.epochState.donationPot.toNat := by
  obtain ⟨snaps, snapsRan, ran⟩ := bind_ok ran
  obtain ⟨cert, certRan, ran⟩ := bind_ok ran
  obtain ⟨gov, govRan, ran⟩ := bind_ok ran
  obtain ⟨plan, planRan, ran⟩ := bind_ok ran
  obtain ⟨pot, potRan, ran⟩ := bind_ok ran
  obtain ⟨allocation, allocated, ran⟩ := bind_ok ran
  obtain ⟨mark, markRan, ran⟩ := bind_ok ran
  obtain ⟨treasury, treasuryRan, ran⟩ := bind_ok ran
  obtain ⟨frozen, frozenRan, ran⟩ := bind_ok ran
  cases ran
  obtain ⟨undonated, without, sum⟩ := newTreasury_ok (orTerminal_ok treasuryRan)
  have kept := (freezeRatification_keeps (orTerminal_ok frozenRan)).1
  refine ⟨undonated, ?_, ?_⟩
  · refine bind_eq_ok.mpr ⟨snaps, snapsRan, bind_eq_ok.mpr ⟨cert, certRan, bind_eq_ok.mpr ⟨gov,
      govRan, bind_eq_ok.mpr ⟨plan, planRan, bind_eq_ok.mpr ⟨pot, potRan, bind_eq_ok.mpr
      ⟨allocation, allocated, bind_eq_ok.mpr ⟨mark, markRan, bind_eq_ok.mpr ⟨undonated, ?_,
      bind_eq_ok.mpr ⟨_, ?_, rfl⟩⟩⟩⟩⟩⟩⟩⟩⟩
    · exact congrArg orTerminal without
    · exact congrArg orTerminal (freezeRatification_treasury undonated (orTerminal_ok frozenRan))
  · rw [kept]
    exact sum

end

/-! ## The buffers along a run -/

section
variable {env : AccumulatorEnv} {start acc next : EpochAccumulator} {done later : List SelectedBlock}

/-- `blocks`, `fees` and `donations` are what the boundary into `target` is fed, after the blocks
that are done. -/
structure FedBy (env : AccumulatorEnv) (start : EpochAccumulator) (done : List SelectedBlock)
    (target : Nat) (blocks : BTreeMap PoolId UInt64) (fees : Coin) : Prop where
  blocks : ∀ pool, (amountOf blocks pool).toNat =
    fedInto start.epochState.epoch.toNat (amountOf start.prevBlockProduction pool).toNat
      (amountOf start.epochState.blockProduction pool).toNat done (SelectedBlock.madeBy · pool) target
  fees : fees.toNat = fedInto start.epochState.epoch.toNat start.prevEpochFees.toNat
    start.epochState.epochFees.toNat done (SelectedBlock.fees env) target

/-- The buffers of `acc` after the blocks that are done. -/
structure Buffered (env : AccumulatorEnv) (start : EpochAccumulator) (done : List SelectedBlock)
    (acc : EpochAccumulator) : Prop where
  quiet : acc.pendingRewardUpdate = none
  since : start.epochState.epoch.toNat ≤ acc.epochState.epoch.toNat
  earlier : ∀ block ∈ done, block.ctx.blockEpoch.toNat ≤ acc.epochState.epoch.toNat
  untouched : acc.epochState.epoch = start.epochState.epoch →
    acc.prevBlockProduction = start.prevBlockProduction ∧ acc.prevEpochFees = start.prevEpochFees
  previous : FedBy env start done (acc.epochState.epoch.toNat + 1) acc.prevBlockProduction
    acc.prevEpochFees
  current : FedBy env start done (acc.epochState.epoch.toNat + 2) acc.epochState.blockProduction
    acc.epochState.epochFees
  donations : acc.epochState.donationPot.toNat = fedInto start.epochState.epoch.toNat 0
    start.epochState.donationPot.toNat done (SelectedBlock.donations env)
    (acc.epochState.epoch.toNat + 2)

theorem FedBy.append {target : Nat} {blocks : BTreeMap PoolId UInt64} {fees : Coin}
    (fed : FedBy env start done target blocks fees) (since : start.epochState.epoch.toNat < target)
    (after : ∀ block ∈ later, target < block.ctx.blockEpoch.toNat + 2) :
    FedBy env start (done ++ later) target blocks fees where
  blocks := by
    intro pool
    rw [fedInto_append since after]
    exact fed.blocks pool
  fees := by
    rw [fedInto_append since after]
    exact fed.fees

theorem buffered_start (quiet : start.pendingRewardUpdate = none) : Buffered env start [] start where
  quiet := quiet
  since := le_rfl
  earlier := by simp
  untouched := fun _ => ⟨rfl, rfl⟩
  previous := ⟨fun pool => by simp [fedInto], by simp [fedInto]⟩
  current := ⟨fun pool => by simp [fedInto, inEpoch], by simp [fedInto, inEpoch]⟩
  donations := by simp [fedInto, inEpoch]

theorem Buffered.block {block : SelectedBlock} {applied : EpochAccumulator} {slot : SlotNo}
    (held : Buffered env start done acc) (within_ : block.ctx.blockEpoch = acc.epochState.epoch)
    (collected : BlockCollected env acc block applied) :
    Buffered env start (done ++ [block])
      { applied with epochState := { applied.epochState with slot } } := by
  have since := held.since
  have now := congrArg UInt64.toNat within_
  have after : ∀ other ∈ [block], acc.epochState.epoch.toNat + 1 <
      other.ctx.blockEpoch.toNat + 2 := by
    intro other member
    obtain rfl := List.mem_singleton.mp member
    omega
  constructor
  · exact collected.quiet.trans held.quiet
  · rw [collected.epoch]
    exact since
  · intro other member
    rw [collected.epoch]
    rcases List.mem_append.mp member with member | member
    · exact held.earlier other member
    · obtain rfl := List.mem_singleton.mp member
      exact now.le
  · intro first
    rw [collected.epoch] at first
    rw [collected.prevBlockProduction, collected.prevEpochFees]
    exact held.untouched first
  · rw [collected.epoch, collected.prevBlockProduction, collected.prevEpochFees]
    exact held.previous.append (by omega) after
  · constructor
    · intro pool
      rw [collected.epoch, fedInto_block since now, collected.blocks, held.current.blocks]
    · rw [collected.epoch, fedInto_block since now, collected.fees, held.current.fees]
  · rw [collected.epoch, fedInto_block since now, collected.donations, held.donations]

/-- The buffers as the boundary that follows is fed them. -/
theorem Buffered.fed (held : Buffered env start done acc)
    (after : ∀ block ∈ later, acc.epochState.epoch.toNat + 1 ≤ block.ctx.blockEpoch.toNat) :
    RewardsFed env start (done ++ later) (acc.epochState.epoch.toNat + 1)
      (boundaryView acc .ordinary).epochState := by
  have since := held.since
  have previous := held.previous.append (by omega) fun block member => by
    have passed := after block member
    omega
  have donations := held.donations
  rw [← @fedInto_append done later _ _ _ _ _ (by omega) fun block member => by
    have passed := after block member
    omega, fedInto_collected since] at donations
  constructor
  · intro first
    have still : acc.epochState.epoch.toNat = start.epochState.epoch.toNat := by omega
    obtain ⟨blocks, fees⟩ := held.untouched (UInt64.toNat_inj.mp still)
    refine ⟨blocks, fees, ?_⟩
    rw [if_pos still, still] at donations
    exact donations
  · intro second
    rw [second] at previous
    refine ⟨fun pool => ?_, ?_⟩
    · have counted := previous.blocks pool
      rw [fedInto_collected le_rfl, if_pos rfl] at counted
      exact counted
    · have paid := previous.fees
      rw [fedInto_collected le_rfl, if_pos rfl] at paid
      exact paid
  · intro afterwards
    obtain ⟨epoch, behind⟩ : ∃ epoch, acc.epochState.epoch.toNat + 1 = epoch + 2 :=
      ⟨acc.epochState.epoch.toNat - 1, by omega⟩
    rw [behind] at previous ⊢
    refine ⟨fun pool => ?_, ?_⟩
    · have counted := previous.blocks pool
      rw [fedInto_collected (by omega), if_neg (by omega), zero_add] at counted
      exact counted
    · have paid := previous.fees
      rw [fedInto_collected (by omega), if_neg (by omega), zero_add] at paid
      exact paid
  · intro afterwards
    rw [if_neg (by omega), zero_add] at donations
    exact donations

theorem Buffered.cross {target : EpochNo} {ctx : SelectedBlockCtx}
    (held : Buffered env start done acc) (follows : target.toNat = acc.epochState.epoch.toNat + 1)
    (crossed : crossEpochBoundary env.ratifyFrozen env.commitments acc target ctx = .ok next) :
    Buffered env start done next ∧ next.epochState.epoch = target := by
  have since := held.since
  obtain ⟨base, result, accounting, -, computed, rotates⟩ :=
    crossEpochBoundary_ordinary held.quiet crossed
  have returns := boundary_returns computed
  have epoch : next.epochState.epoch = target := by
    rw [rotates.rest]
    exact returns.epoch
  have entered : next.epochState.epoch.toNat = acc.epochState.epoch.toNat + 1 := by
    rw [epoch, follows]
  have nothing := fun older newer amount =>
    @fedInto_fresh done _ amount start.epochState.epoch.toNat older newer since held.earlier
  refine ⟨⟨?_, ?_, ?_, ?_, ?_, ⟨?_, ?_⟩, ?_⟩, epoch⟩
  · rw [rotates.rest]
    exact held.quiet
  · omega
  · intro block member
    have earlier := held.earlier block member
    omega
  · intro first
    have same := congrArg UInt64.toNat first
    omega
  · rw [entered, rotates.rest]
    exact held.current
  · intro pool
    rw [entered, nothing, rotates.rest]
    dsimp only
    rw [returns.blockProduction]
    rfl
  · rw [entered, nothing, rotates.rest]
    dsimp only
    rw [returns.epochFees]
    rfl
  · rw [entered, nothing, rotates.rest]
    dsimp only
    rw [returns.donationPot]
    rfl

/-- A boundary of a run, after the blocks that are done. -/
structure CrossedAfter (env : AccumulatorEnv) (start : EpochAccumulator) (done : List SelectedBlock)
    (crossing : Crossing) : Prop where
  held : Buffered env start done crossing.before
  follows : crossing.target.toNat = crossing.before.epochState.epoch.toNat + 1
  crossed : crossEpochBoundary env.ratifyFrozen env.commitments crossing.before crossing.target
    crossing.ctx = .ok crossing.after

theorem boundaries_eq {prior blockEpoch : EpochNo} (reached : prior ≤ blockEpoch) :
    boundaries prior blockEpoch =
      (List.range' (prior.toNat + 1) (blockEpoch.toNat - prior.toNat)).map UInt64.ofNat := by
  rw [UInt64.le_iff_toNat_le] at reached
  have small := blockEpoch.toNat_lt
  unfold boundaries
  cases entered : checkedAdd prior 1 with
  | none =>
      unfold checkedAdd at entered
      split_ifs at entered with fits
      have last : blockEpoch.toNat - prior.toNat = 0 := by
        rw [UInt64.toNat_one] at fits
        omega
      rw [last]
      rfl
  | some first =>
      have next := checkedAdd_toNat entered
      rw [UInt64.toNat_one] at next
      dsimp only
      rw [next, Nat.add_sub_add_right]

theorem crossBoundaries_buffered {count : Nat} {ctx : SelectedBlockCtx} {last : EpochAccumulator}
    (held : Buffered env start done acc) (fits : acc.epochState.epoch.toNat + count < 2 ^ 64)
    (crossed : crossBoundaries env acc
      ((List.range' (acc.epochState.epoch.toNat + 1) count).map UInt64.ofNat) ctx = .ok last) :
    Buffered env start done last ∧
      last.epochState.epoch.toNat = acc.epochState.epoch.toNat + count ∧
      (blockCrossings env ctx acc ((List.range' (acc.epochState.epoch.toNat + 1) count).map
        UInt64.ofNat)).map (fun crossing => crossing.target.toNat) =
          List.range' (acc.epochState.epoch.toNat + 1) count ∧
      ∀ crossing ∈ blockCrossings env ctx acc
        ((List.range' (acc.epochState.epoch.toNat + 1) count).map UInt64.ofNat),
        CrossedAfter env start done crossing := by
  induction count generalizing acc with
  | zero =>
      cases crossed
      exact ⟨held, rfl, rfl, by simp [blockCrossings]⟩
  | succ count ih =>
      have entered : (UInt64.ofNat (acc.epochState.epoch.toNat + 1)).toNat =
          acc.epochState.epoch.toNat + 1 := by
        rw [UInt64.toNat_ofNat', Nat.mod_eq_of_lt (by omega)]
      rw [List.range'_succ, List.map_cons] at crossed ⊢
      obtain ⟨next, first, rest⟩ := bind_ok crossed
      obtain ⟨heldNext, epoch⟩ := held.cross entered first
      have now : next.epochState.epoch.toNat = acc.epochState.epoch.toNat + 1 := by
        rw [epoch, entered]
      rw [← now] at rest
      obtain ⟨heldLast, reached, targets, others⟩ := ih heldNext (by omega) rest
      rw [now] at targets others
      simp only [blockCrossings, first, List.map_cons, List.forall_mem_cons]
      refine ⟨heldLast, by omega, ?_, ⟨held, entered, first⟩, others⟩
      rw [targets, entered]

theorem step_buffered {block : SelectedBlock} (held : Buffered env start done acc)
    (step : AccumulatorStep env acc block next) :
    Buffered env start (done ++ [block]) next ∧ next.epochState.epoch = block.ctx.blockEpoch ∧
      acc.epochState.epoch ≤ block.ctx.blockEpoch ∧
      (blockCrossings env block.ctx acc (boundaries acc.epochState.epoch block.ctx.blockEpoch)).map
        (fun crossing => crossing.target.toNat) =
          List.range' (acc.epochState.epoch.toNat + 1)
            (block.ctx.blockEpoch.toNat - acc.epochState.epoch.toNat) ∧
      ∀ crossing ∈ blockCrossings env block.ctx acc
        (boundaries acc.epochState.epoch block.ctx.blockEpoch),
        CrossedAfter env start done crossing := by
  obtain ⟨decoded, crossed, applied, facts⟩ := blockApplied_of_step step
  have reached := UInt64.le_iff_toNat_le.mp facts.epoch
  have small := block.ctx.blockEpoch.toNat_lt
  have crosses := facts.crosses
  rw [boundaries_eq facts.epoch] at crosses ⊢
  obtain ⟨heldCrossed, entered, targets, crossings⟩ :=
    crossBoundaries_buffered held (by omega) crosses
  have within_ : block.ctx.blockEpoch = crossed.epochState.epoch := by
    rw [← UInt64.toNat_inj, entered]
    omega
  have collected := applyWithinEpoch_collects facts.decodes facts.applies
  refine ⟨?_, ?_, facts.epoch, targets, crossings⟩
  · rw [facts.slotted]
    exact heldCrossed.block within_ collected
  · rw [facts.slotted, within_]
    exact collected.epoch

/-- A run after the blocks that are done. -/
structure RunsOn (env : AccumulatorEnv) (start : EpochAccumulator) (done : List SelectedBlock)
    (acc : EpochAccumulator) (blocks : List SelectedBlock) (last : EpochAccumulator) : Prop where
  advances : acc.epochState.epoch.toNat ≤ last.epochState.epoch.toNat
  ascends : ∀ block ∈ blocks, acc.epochState.epoch.toNat ≤ block.ctx.blockEpoch.toNat
  targets : (crossings env acc blocks).map (fun crossing => crossing.target.toNat) =
    List.range' (acc.epochState.epoch.toNat + 1)
      (last.epochState.epoch.toNat - acc.epochState.epoch.toNat)
  crossed : ∀ crossing ∈ crossings env acc blocks, ∃ earlier later, done ++ blocks = earlier ++ later ∧
    CrossedAfter env start earlier crossing ∧
    ∀ block ∈ later, crossing.target.toNat ≤ block.ctx.blockEpoch.toNat

theorem run_buffered {blocks : List SelectedBlock} {last : EpochAccumulator}
    (held : Buffered env start done acc) (run : Run (AccumulatorStep env) acc blocks last) :
    RunsOn env start done acc blocks last := by
  induction run generalizing done with
  | nil => exact ⟨le_rfl, by simp, by simp [crossings], by simp [crossings]⟩
  | @cons before middle last block blocks head tail ih =>
      obtain ⟨heldNext, entered, reached, targets, crossed⟩ := step_buffered held head
      have rest := ih heldNext
      have now := congrArg UInt64.toNat entered
      have advanced := rest.advances
      have ascends : ∀ other ∈ block :: blocks,
          block.ctx.blockEpoch.toNat ≤ other.ctx.blockEpoch.toNat := by
        intro other member
        rcases List.mem_cons.mp member with rfl | member
        · exact le_rfl
        · have above := rest.ascends other member
          omega
      have split : crossings env before (block :: blocks) =
          blockCrossings env block.ctx before
              (boundaries before.epochState.epoch block.ctx.blockEpoch) ++
            crossings env middle blocks := by
        rw [crossings,
          show applySelectedBlock env before block.bytes block.ctx = .ok middle from head]
      rw [UInt64.le_iff_toNat_le] at reached
      refine ⟨by omega, fun other member => reached.trans (ascends other member), ?_, ?_⟩
      · rw [now] at advanced
        have onwards : block.ctx.blockEpoch.toNat + 1 = before.epochState.epoch.toNat + 1 +
            (block.ctx.blockEpoch.toNat - before.epochState.epoch.toNat) := by omega
        rw [split, List.map_append, targets, rest.targets, now, onwards, List.range'_append_1]
        congr 1
        omega
      · intro crossing member
        rw [split] at member
        rcases List.mem_append.mp member with member | member
        · refine ⟨done, block :: blocks, rfl, crossed crossing member, fun other later => ?_⟩
          have entering : crossing.target.toNat ∈ List.range' _ _ :=
            targets ▸ List.mem_map_of_mem member
          have below := ascends other later
          rw [List.mem_range'_1] at entering
          omega
        · obtain ⟨earlier, later, whole, found⟩ := rest.crossed crossing member
          refine ⟨earlier, later, ?_, found⟩
          rw [← whole, List.append_assoc]
          rfl

/-- Along a run every epoch is entered once, and its boundary is fed the counts and the fees that the
blocks of the epoch before the last have collected, and the donations of the last. -/
theorem rewards_fed_along_run {blocks : List SelectedBlock} {last : EpochAccumulator}
    (quiet : start.pendingRewardUpdate = none) (run : Run (AccumulatorStep env) start blocks last) :
    (crossings env start blocks).map (fun crossing => crossing.target.toNat) =
        List.range' (start.epochState.epoch.toNat + 1)
          (last.epochState.epoch.toNat - start.epochState.epoch.toNat) ∧
      ∀ crossing ∈ crossings env start blocks, ∃ result, crossing.Computes env result ∧
        crossing.AddsPot env result ∧ RewardsFed env start blocks crossing.target.toNat
          (boundaryView crossing.before .ordinary).epochState := by
  have along := run_buffered (buffered_start quiet) run
  refine ⟨along.targets, fun crossing member => ?_⟩
  obtain ⟨earlier, later, whole, found, after⟩ := along.crossed crossing member
  obtain ⟨base, result, accounting, marked, computed, rotates⟩ :=
    crossEpochBoundary_ordinary found.held.quiet found.crossed
  obtain ⟨treasury, without, sum⟩ := boundary_donates computed
  refine ⟨result, ⟨⟨base, accounting, marked, computed⟩, ?_⟩,
    ⟨base, accounting, treasury, marked, without, sum⟩, ?_⟩
  · rw [rotates.rest]
  · rw [found.follows] at after ⊢
    rw [List.nil_append] at whole
    rw [whole]
    exact found.held.fed after

end

/-! ## Three boundaries before one block -/

def lateBlock : SelectedBlock := ⟨[], { sampleCtx with blockEpoch := 510, blockSlot := 400 }⟩

theorem rewards_fed_along_run_sample : ∃ last : EpochAccumulator,
    (crossings sampleEnv (sampleAccumulator none) [lateBlock]).map
        (fun crossing => crossing.target.toNat) =
      List.range' 508 (last.epochState.epoch.toNat - 507) ∧
    ∀ crossing ∈ crossings sampleEnv (sampleAccumulator none) [lateBlock], ∃ result,
      crossing.Computes sampleEnv result ∧ crossing.AddsPot sampleEnv result ∧
      RewardsFed sampleEnv (sampleAccumulator none) [lateBlock] crossing.target.toNat
        (boundaryView crossing.before .ordinary).epochState := by
  obtain ⟨last, applied⟩ := exists_of_isOk (by decide : (applySelectedBlock sampleEnv
    (sampleAccumulator none) lateBlock.bytes lateBlock.ctx).isOk = true)
  exact ⟨last, rewards_fed_along_run rfl (.cons applied (.nil last))⟩

end Ade.Proof.Ledger
