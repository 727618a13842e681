import Ade.Ledger.EpochAccumulator

/-! What a block of the selected chain does to the accumulator: the boundaries it crosses, then its
transactions. -/

namespace Ade.Ledger
open Std Library Codec

structure ProposalProcedure where
  deposit : Coin
  returnAddr : Bytes
  govAction : GovAction
deriving DecidableEq

/-- `resolver` values collateral inputs, where the UTxO is at hand. -/
structure AccumulatorEnv where
  ratifyFrozen : FrozenRatificationInput → Except GovernanceTerminal RatificationRecord
  commitments : SeedCommitments
  decodeBlockEnvelope : Bytes → Except CodecError (CardanoEra × Bytes)
  decodeConwayBlock : Bytes → Except CodecError ShelleyBlock
  certDecoders : CertDecoders
  decodeProposalProcedures : Bytes → Except CodecError (List ProposalProcedure)
  transactionId : Bytes → Hash32
  resolver : Option (TxIn → Option Coin)

/-! ## Walking containers -/

section
variable {ε σ : Type} (data : Bytes) (failure : ε)

/-- Every failure of the codec is the same one here. -/
def failing {α : Type} (read : Read α) : Cursor ε α := ExceptT.adapt (fun _ => failure) read

/-- Every element takes at least a byte, so that `left` never runs out before the data does. -/
def foldUntilBreak (element : σ → Cursor ε σ) : Nat → σ → Cursor ε σ
  | 0, _ => throw failure
  | left + 1, state => do
      if ← failing failure (isBreak data) then return state
      else foldUntilBreak element left (← element state)

def foldContainer (element : σ → Cursor ε σ) (state : σ) : ContainerEncoding → Cursor ε σ
  | .definite count _ => Cursor.iterate element count.toNat state
  | .indefinite => foldUntilBreak data failure element data.length state

/-- After an indefinite container. -/
def consumeBreak : ContainerEncoding → Cursor ε Unit
  | .definite _ _ => pure ()
  | .indefinite => modify (· + 1)

end

abbrev TransitionRead := Cursor LedgerTransitionError

def orMalformed {α : Type} (read : Read α) : TransitionRead α := failing .malformedBlock read

/-- The bodies of a block in order, with their indices; returns how many there were. -/
def forEachBody {σ : Type} (data : Bytes) (element : UInt64 → σ → TransitionRead σ) (state : σ) :
    TransitionRead (UInt64 × σ) := do
  foldContainer data .malformedBlock
    (fun counted => do return (counted.1 + 1, ← element counted.1 counted.2)) (0, state)
    (← orMalformed (readArrayHeader data))

/-- The index space that was walked must be the one that the invalid set was checked against. -/
def requireCount {σ : Type} (txCount : UInt64) (counted : UInt64 × σ) : Transition σ :=
  if counted.1 ≠ txCount then .error .malformedBlock else .ok counted.2

/-! ## The phase-2-invalid transactions -/

structure CanonicalIndices where
  prev : Option UInt64
  indices : BTreeSet UInt64

def readInvalidIndex (data : Bytes) (txCount : UInt64) (read : CanonicalIndices) :
    TransitionRead CanonicalIndices := do
  let (index, width) ← orMalformed (readUint data)
  if width ≠ canonicalWidth index then throw .malformedBlock
  if read.prev.any fun prev => index ≤ prev then throw .malformedBlock
  if txCount ≤ index then throw .malformedBlock
  return ⟨some index, read.indices.insert index⟩

def readInvalidTxIndices (data : Bytes) (txCount : UInt64) : TransitionRead (BTreeSet UInt64) := do
  match ← orMalformed (readArrayHeader data) with
  | .indefinite => throw .malformedBlock
  | .definite count width =>
      if width ≠ canonicalWidth count then throw .malformedBlock
      let read ← Cursor.iterate (readInvalidIndex data txCount) count.toNat ⟨none, ∅⟩
      if (← get) ≠ data.length then throw .malformedBlock
      return read.indices

def decodeInvalidTxIndicesCanonical (invalidTxs : Option Bytes) (txCount : UInt64) :
    Transition (BTreeSet UInt64) :=
  match invalidTxs with
  | none | some [] => .ok ∅
  | some bytes => ((readInvalidTxIndices bytes txCount).runAt 0).1

/-! ## Fees, donations and withdrawals -/

structure TxScan where
  fee : Option UInt64
  totalCollateral : Option UInt64
  hasCerts : Bool
  withdrawals : List StakeCredential
  donation : Option UInt64
  hasVotes : Bool
  hasProposals : Bool
deriving DecidableEq

def TxScan.empty : TxScan := ⟨none, none, false, [], none, false, false⟩

def readWithdrawal (data : Bytes) : TransitionRead StakeCredential := do
  let (account, _) ← orMalformed (readBytes data)
  let credential ← liftExcept (orError .malformedBlock (rewardAccountCredential account))
  let _ ← orMalformed (skip data)
  return credential

def readWithdrawals (data : Bytes) : TransitionRead (List StakeCredential) := do
  match ← orMalformed (readMapHeader data) with
  | .definite count _ => Cursor.times (readWithdrawal data) count.toNat
  | .indefinite => throw .malformedBlock

def readOneTxField (data : Bytes) (key : UInt64) (tx : TxScan) : TransitionRead TxScan := do
  if key = 2 then return { tx with fee := some (← orMalformed (readUint data)).1 }
  else if key = 4 then
    let _ ← orMalformed (skip data)
    return { tx with hasCerts := true }
  else if key = 5 then
    return { tx with withdrawals := tx.withdrawals ++ (← readWithdrawals data) }
  else if key = 17 then
    return { tx with totalCollateral := some (← orMalformed (readUint data)).1 }
  else if key = 22 then return { tx with donation := some (← orMalformed (readUint data)).1 }
  else if key = 19 then
    let _ ← orMalformed (skip data)
    return { tx with hasVotes := true }
  else if key = 20 then
    let _ ← orMalformed (skip data)
    return { tx with hasProposals := true }
  else
    let _ ← orMalformed (skip data)
    return tx

def scanTxField (data : Bytes) (tx : TxScan) : TransitionRead TxScan := do
  let (key, _) ← orMalformed (readUint data)
  readOneTxField data key tx

def scanOneTx (data : Bytes) : TransitionRead TxScan := do
  let encoding ← orMalformed (readMapHeader data)
  let tx ← foldContainer data .malformedBlock (scanTxField data) .empty encoding
  consumeBreak encoding
  return tx

def addCollateral (txIndex : UInt64) (resolver : TxIn → Option Coin) (total : UInt64) (txin : TxIn) :
    Except CollateralBalanceError UInt64 :=
  match resolver txin with
  | none => .error (.unresolvedCollateralInput txIndex txin)
  | some value =>
      match checkedAdd total value with
      | none => .error (.arithmeticOverflow txIndex)
      | some total => .ok total

/-- What the inputs resolve to, less the collateral return. -/
def collateralBalance (txIndex : UInt64) (collateralInputs : List TxIn)
    (collateralReturnCoin : Option Coin) (resolver : TxIn → Option Coin) :
    Except CollateralBalanceError Coin := do
  let total ← collateralInputs.foldlM (addCollateral txIndex resolver) 0
  match collateralReturnCoin with
  | none => return total
  | some returned =>
      match checkedSub total returned with
      | some net => return net
      | none => throw (.returnExceedsCollateral txIndex total returned)

/-- Nothing of a phase-2-invalid transaction is donated. -/
def txDonationContribution (donation : Option Coin) (phase2Valid : Bool) : Coin :=
  if phase2Valid then donation.getD 0 else 0

structure BlockTxEffects where
  fees : UInt64
  donations : UInt64
  withdrawals : List StakeCredential
deriving DecidableEq

variable (env : AccumulatorEnv)

def consumedCollateral (index : UInt64) (bodyBytes : Bytes) : Transition Coin :=
  match env.resolver with
  | none => .error (.invalidTxCollateralNeedsUtxo index)
  | some resolver => do
      let decoded ← ((decodeConwayTxBody env.decodeProposalProcedures bodyBytes).runAt 0).1.mapError
        fun _ => .malformedBlock
      let inputs := decoded.collateralInputs.elim [] fun inputs => inputs.toList
      (collateralBalance index inputs (decoded.collateralReturn.map BabbageTxOut.coin)
        resolver).mapError .collateralBalance

def applyTxScan (tx : TxScan) (index : UInt64) (invalid : BTreeSet UInt64) (bodyBytes : Bytes)
    (effects : BlockTxEffects) : Transition BlockTxEffects := do
  let donation := txDonationContribution tx.donation (!invalid.contains index)
  let donations ← orError .arithmeticOverflow (checkedAdd effects.donations donation)
  if invalid.contains index then
    let balance ← consumedCollateral env index bodyBytes
    let fees ← orError .arithmeticOverflow (checkedAdd effects.fees balance)
    return { effects with fees, donations }
  else
    let fees ← orError .arithmeticOverflow (checkedAdd effects.fees (tx.fee.getD 0))
    return ⟨fees, donations, effects.withdrawals ++ tx.withdrawals⟩

def scanTx (data : Bytes) (invalid : BTreeSet UInt64) (index : UInt64) (effects : BlockTxEffects) :
    TransitionRead BlockTxEffects := do
  let bodyStart ← get
  let tx ← scanOneTx data
  liftExcept (applyTxScan env tx index invalid (slice data (bodyStart, ← get)) effects)

def scanBlockTxEffects (txCount : UInt64) (txBodies : Bytes) (invalid : BTreeSet UInt64) :
    Transition BlockTxEffects :=
  if txCount = 0 then .ok ⟨0, 0, []⟩
  else do
    let counted ← ((forEachBody txBodies (scanTx env txBodies invalid) ⟨0, 0, []⟩).runAt 0).1
    requireCount txCount counted

/-! ## Votes -/

/-- A later vote of the same voter replaces the earlier one. -/
def upsertVote {K : Type} [DecidableEq K] (voter : K) (vote : Vote) :
    List (K × Vote) → List (K × Vote)
  | [] => [(voter, vote)]
  | entry :: votes =>
      if entry.1 = voter then (entry.1, vote) :: votes else entry :: upsertVote voter vote votes

structure Voter where
  voterType : UInt64
  hash : Hash28

def castVote (voter : Voter) (vote : Vote) (p : GovActionState) : Option GovActionState :=
  if voter.voterType = 0 then
    some { p with committeeVotes := upsertVote (.keyHash voter.hash) vote p.committeeVotes }
  else if voter.voterType = 1 then
    some { p with committeeVotes := upsertVote (.scriptHash voter.hash) vote p.committeeVotes }
  else if voter.voterType = 2 then
    some { p with drepVotes := upsertVote (.keyHash voter.hash) vote p.drepVotes }
  else if voter.voterType = 3 then
    some { p with drepVotes := upsertVote (.scriptHash voter.hash) vote p.drepVotes }
  else if voter.voterType = 4 then
    some { p with spoVotes := upsertVote voter.hash vote p.spoVotes }
  else none

/-- A vote on an untracked proposal is ignored. -/
def applyOneVote (voter : Voter) (target : GovActionId) (vote : Vote) :
    List GovActionState → Option (List GovActionState)
  | [] => some []
  | p :: proposals =>
      if p.actionId = target then do return (← castVote voter vote p) :: proposals
      else do return p :: (← applyOneVote voter target vote proposals)

/-- The readers of votes only tell that they failed. -/
abbrev VoteRead := Cursor Unit

def orFail {α : Type} (read : Read α) : VoteRead α := failing () read

/-- After the header of an array that must have two elements. -/
def requirePair : ContainerEncoding → VoteRead Unit
  | .definite count _ => if count = 2 then pure () else throw ()
  | .indefinite => throw ()

def sizedBytes (size : Nat) (bytes : Bytes) : Except Unit (Vector UInt8 size) :=
  if sized : bytes.toArray.size = size then .ok ⟨bytes.toArray, sized⟩ else .error ()

def readVoter (data : Bytes) : VoteRead Voter := do
  requirePair (← orFail (readArrayHeader data))
  let (voterType, _) ← orFail (readUint data)
  if voterType > 4 then throw ()
  let (bytes, _) ← orFail (readBytes data)
  let hash ← liftExcept (sizedBytes 28 bytes)
  return ⟨voterType, hash⟩

def readGovActionId (data : Bytes) : VoteRead GovActionId := do
  requirePair (← orFail (readArrayHeader data))
  let (bytes, _) ← orFail (readBytes data)
  let txHash ← liftExcept (sizedBytes 32 bytes)
  let (index, _) ← orFail (readUint data)
  if 2 ^ 32 ≤ index.toNat then throw ()
  return ⟨txHash, UInt32.ofNat index.toNat⟩

def voteOf (value : UInt64) : Except Unit Vote :=
  if value = 0 then .ok .no
  else if value = 1 then .ok .yes
  else if value = 2 then .ok .abstain
  else .error ()

def readVotingProcedure (data : Bytes) : VoteRead Vote := do
  match ← orFail (readArrayHeader data) with
  | .indefinite => throw ()
  | .definite count _ =>
      if count = 0 then throw ()
      let (value, _) ← orFail (readUint data)
      let vote ← liftExcept (voteOf value)
      let _ ← Cursor.times (orFail (skip data)) (count.toNat - 1)
      return vote

def readVote (data : Bytes) (voter : Voter) (proposals : List GovActionState) :
    VoteRead (List GovActionState) := do
  let target ← readGovActionId data
  let vote ← readVotingProcedure data
  match applyOneVote voter target vote proposals with
  | some proposals => return proposals
  | none => throw ()

def applyOneVoter (data : Bytes) (proposals : List GovActionState) :
    VoteRead (List GovActionState) := do
  let voter ← readVoter data
  let encoding ← orFail (readMapHeader data)
  let proposals ← foldContainer data () (readVote data voter) proposals encoding
  consumeBreak encoding
  return proposals

def readField19Votes (data : Bytes) (proposals : List GovActionState) :
    VoteRead (List GovActionState) := do
  orFail (skipOptionalTag data)
  let encoding ← orFail (readMapHeader data)
  let proposals ← foldContainer data () (applyOneVoter data) proposals encoding
  consumeBreak encoding
  if (← get) ≠ data.length then throw ()
  return proposals

def applyField19Votes (gov : ConwayGovState) (data : Bytes) : Except Unit ConwayGovState := do
  let proposals ← ((readField19Votes data gov.proposals).runAt 0).1
  return { gov with proposals }

/-! ## Proposals -/

/-- Where the values of keys 19 and 20 stand. -/
structure GovFields where
  votes : Option (Nat × Nat)
  proposals : Option (Nat × Nat)

def readOneGovField (data : Bytes) (fields : GovFields) : TransitionRead GovFields := do
  let (key, _) ← orMalformed (readUint data)
  let range ← orMalformed (skip data)
  if key = 19 then return { fields with votes := some range }
  else if key = 20 then return { fields with proposals := some range }
  else return fields

def trackProcedure (txIndex : UInt64) (txHash : Hash32) (currentEpoch : EpochNo)
    (govActionLifetime : UInt64) (entry : ProposalProcedure × Nat) : Transition GovActionState := do
  if 2 ^ 32 ≤ entry.2 then throw (.malformedGovernanceField txIndex)
  let expiresAfter ← orError .arithmeticOverflow (checkedAdd currentEpoch govActionLifetime)
  return {
    actionId := ⟨txHash, UInt32.ofNat entry.2⟩
    committeeVotes := []
    drepVotes := []
    spoVotes := []
    deposit := entry.1.deposit
    returnAddr := entry.1.returnAddr
    govAction := entry.1.govAction
    proposedIn := currentEpoch
    expiresAfter }

/-- A lifetime of zero was never imported. -/
def captureProposals (txIndex : UInt64) (txHash : Hash32) (currentEpoch : EpochNo)
    (gov : ConwayGovState) (procedures : List ProposalProcedure) : Transition ConwayGovState := do
  if gov.govActionLifetime = 0 then throw (.govActionLifetimeUnproven txIndex)
  let submitted ← procedures.zipIdx.mapM
    (trackProcedure txIndex txHash currentEpoch gov.govActionLifetime)
  return { gov with proposals := gov.proposals ++ submitted }

def submitProposals (txIndex : UInt64) (bodyBytes : Bytes) (currentEpoch : EpochNo)
    (gov : ConwayGovState) : Option Bytes → Transition ConwayGovState
  | none => .ok gov
  | some value => do
      let procedures ← (env.decodeProposalProcedures value).mapError
        fun _ => .malformedGovernanceField txIndex
      captureProposals txIndex (env.transactionId bodyBytes) currentEpoch gov procedures

def captureVotes (txIndex : UInt64) (gov : ConwayGovState) :
    Option Bytes → Transition ConwayGovState
  | none => .ok gov
  | some value =>
      (applyField19Votes gov value).mapError fun _ => .malformedGovernanceField txIndex

def readGovFields (data : Bytes) : TransitionRead GovFields := do
  let encoding ← orMalformed (readMapHeader data)
  let fields ← foldContainer data .malformedBlock (readOneGovField data) ⟨none, none⟩ encoding
  consumeBreak encoding
  return fields

def applyOneTxGovernance (data : Bytes) (invalid : BTreeSet UInt64) (currentEpoch : EpochNo)
    (txIndex : UInt64) (gov : ConwayGovState) : TransitionRead ConwayGovState := do
  let bodyStart ← get
  let fields ← readGovFields data
  let bodyBytes := slice data (bodyStart, ← get)
  if invalid.contains txIndex then return gov
  else
    let proposed ← liftExcept (submitProposals env txIndex bodyBytes currentEpoch gov
      (fields.proposals.map (slice data)))
    liftExcept (captureVotes txIndex proposed (fields.votes.map (slice data)))

def applyBlockGovernance (gov : ConwayGovState) (txBodies : Bytes) (txCount : UInt64)
    (invalid : BTreeSet UInt64) (currentEpoch : EpochNo) : Transition ConwayGovState :=
  if txCount = 0 then .ok gov
  else do
    let counted ← ((forEachBody txBodies
      (applyOneTxGovernance env txBodies invalid currentEpoch) gov).runAt 0).1
    requireCount txCount counted

/-! ## The block -/

def EpochAccumulator.govCertEnv (acc : EpochAccumulator) : Option GovCertEnv :=
  acc.conwayDepositParams.map fun params => ⟨acc.epochState.epoch, params.drepActivity⟩

def trackGovernance (block : ShelleyBlock) (invalid : BTreeSet UInt64) (currentEpoch : EpochNo) :
    Option ConwayGovState → Transition (Option ConwayGovState)
  | none => .ok none
  | some gov => do
      return some
        (← applyBlockGovernance env gov block.txBodies block.txCount invalid currentEpoch)

def countBlock (blockProduction : BTreeMap PoolId UInt64) (issuer : PoolId) :
    Transition (BTreeMap PoolId UInt64) := do
  let blocks ← orError .arithmeticOverflow (checkedAdd (amountOf blockProduction issuer) 1)
  return blockProduction.insert issuer blocks

def zeroReward (rewards : BTreeMap StakeCredential Coin) (credential : StakeCredential) :
    BTreeMap StakeCredential Coin :=
  if rewards.contains credential then rewards.insert credential 0 else rewards

def withdraw (cert : CertState) (withdrawals : List StakeCredential) : CertState :=
  { cert with delegation := { cert.delegation with
      rewards := withdrawals.foldl zeroReward cert.delegation.rewards } }

def applyWithinEpoch (acc : EpochAccumulator) (block : ShelleyBlock) (era : CardanoEra)
    (ctx : SelectedBlockCtx) : Transition EpochAccumulator := do
  let invalid ← decodeInvalidTxIndicesCanonical block.invalidTxs block.txCount
  let effects ← scanBlockTxEffects env block.txCount block.txBodies invalid
  let ledger ← (processBlockCertificates env.certDecoders block era acc.protocolParams.keyDeposit
    acc.govCertEnv ⟨acc.certState, acc.govState⟩).mapError .certApply
  let govState ← trackGovernance env block invalid ctx.blockEpoch ledger.gov
  let blockProduction ← countBlock acc.epochState.blockProduction ctx.issuerPool
  let epochFees ← orError .arithmeticOverflow (checkedAdd acc.epochState.epochFees effects.fees)
  let donationPot ← orError .arithmeticOverflow
    (checkedAdd acc.epochState.donationPot effects.donations)
  return { acc with
    certState := withdraw ledger.cert effects.withdrawals
    govState
    epochState := { acc.epochState with blockProduction, epochFees, donationPot } }

def decodeSelectedBlock (blockBytes : Bytes) : Transition (CardanoEra × ShelleyBlock) := do
  let envelope ← (env.decodeBlockEnvelope blockBytes).mapError fun _ => .malformedBlock
  if envelope.1 ≠ .conway then throw (.eraNotSupported envelope.1.asU64)
  let block ← (env.decodeConwayBlock envelope.2).mapError fun _ => .malformedBlock
  return (envelope.1, block)

/-- The epochs entered on the way, empty ones included. -/
def boundaries (priorEpoch blockEpoch : EpochNo) : List EpochNo :=
  match checkedAdd priorEpoch 1 with
  | none => []
  | some first =>
      (List.range' first.toNat (blockEpoch.toNat + 1 - first.toNat)).map UInt64.ofNat

def requireEra (ctx : SelectedBlockCtx) (era : CardanoEra) : Transition Unit :=
  if era.asU64 < CardanoEra.conway.asU64 then .error (.eraNotSupported era.asU64)
  else if era ≠ ctx.era then .error (.eraMismatch ctx.era.asU64 era.asU64)
  else .ok ()

def requireEpoch (ctx : SelectedBlockCtx) (prior : EpochNo) : Transition Unit :=
  if ctx.blockEpoch < prior then .error (.boundaryGap prior ctx.blockEpoch) else .ok ()

def crossBoundaries (acc : EpochAccumulator) (targets : List EpochNo) (ctx : SelectedBlockCtx) :
    Transition EpochAccumulator :=
  targets.foldlM (fun acc target =>
    crossEpochBoundary env.ratifyFrozen env.commitments acc target ctx) acc

/-- With a resolver this is `apply_selected_block_with_resolver`. -/
def applySelectedBlock (prior : EpochAccumulator) (blockBytes : Bytes) (ctx : SelectedBlockCtx) :
    Transition EpochAccumulator := do
  let decoded ← decodeSelectedBlock env blockBytes
  let _ ← requireEra ctx decoded.1
  let _ ← requireEpoch ctx prior.epochState.epoch
  let crossed ← crossBoundaries env prior (boundaries prior.epochState.epoch ctx.blockEpoch) ctx
  let applied ← applyWithinEpoch env crossed decoded.2 decoded.1 ctx
  return { applied with epochState := { applied.epochState with slot := ctx.blockSlot } }

/-! ## Runs -/

structure SelectedBlock where
  bytes : Bytes
  ctx : SelectedBlockCtx

/-- A rejected block takes no step. -/
def AccumulatorStep (before : EpochAccumulator) (block : SelectedBlock) (after : EpochAccumulator) :
    Prop :=
  applySelectedBlock env before block.bytes block.ctx = .ok after

/-- One boundary, as a block crosses it. -/
structure Crossing where
  target : EpochNo
  ctx : SelectedBlockCtx
  before : EpochAccumulator
  after : EpochAccumulator

def blockCrossings (ctx : SelectedBlockCtx) : EpochAccumulator → List EpochNo → List Crossing
  | _, [] => []
  | before, target :: targets =>
      match crossEpochBoundary env.ratifyFrozen env.commitments before target ctx with
      | .ok after => ⟨target, ctx, before, after⟩ :: blockCrossings ctx after targets
      | .error _ => []

/-- Every boundary that a run crosses, in order. -/
def crossings : EpochAccumulator → List SelectedBlock → List Crossing
  | _, [] => []
  | before, block :: blocks =>
      match applySelectedBlock env before block.bytes block.ctx with
      | .ok after =>
          blockCrossings env block.ctx before
              (boundaries before.epochState.epoch block.ctx.blockEpoch) ++
            crossings after blocks
      | .error _ => []

/-- The boundary computed `result` on the ordinary view, and the accumulator went on from there. -/
structure Crossing.Computes (crossing : Crossing) (result : LedgerState Unit) : Prop where
  computed : ∃ base accounting, crossing.ctx.boundaryMark = some base ∧
    applyEpochBoundaryWithRegistrations env.ratifyFrozen (boundaryView crossing.before .ordinary)
      crossing.target none (some (boundaryBase crossing.ctx base))
      crossing.ctx.activeSlotsPerEpoch = .ok (result, accounting)
  epochState : crossing.after.epochState = result.epochState

/-! ## What a boundary enacts -/

/-- The parameter change that the record frozen for the next boundary enacts there. -/
def EpochAccumulator.frozenEnactment (acc : EpochAccumulator) : Option EnactedParameterChange :=
  if acc.era = .conway then
    match acc.govState.map ConwayGovState.ratification with
    | some (.recorded record) => match record.outcome with
        | .decided decision => decision.enacted
        | .unenactable _ => none
    | _ => none
  else none

/-- Nothing is enacted, or only what is in force already. -/
def EpochAccumulator.EnactsNothingNew (acc : EpochAccumulator) : Prop :=
  ∀ change ∈ acc.frozenEnactment, change.pparams = acc.protocolParams

/-- The whole result of the boundary function is in the accumulator, and the buffers are rotated. -/
structure Crossing.KeepsResult (crossing : Crossing) (result : LedgerState Unit) : Prop where
  certState : result.certState = .authoritative crossing.after.certState
  govState : result.govState = .authoritative crossing.after.govState
  epochState : result.epochState = crossing.after.epochState
  protocolParams : result.protocolParams = crossing.after.protocolParams
  prevBlockProduction :
    crossing.after.prevBlockProduction = crossing.before.epochState.blockProduction
  prevEpochFees : crossing.after.prevEpochFees = crossing.before.epochState.epochFees

/-- The previous action advances to the change that the boundary enacts. -/
structure Crossing.Advances (crossing : Crossing) (change : EnactedParameterChange) : Prop where
  enacted : crossing.before.frozenEnactment = some change
  advanced : ∃ gov, crossing.after.govState = some gov ∧
    gov.prevPparamAction = .enacted change.actionId

/-- The parameters after some boundaries, each of which may enact new ones. -/
def inForce (params : ProtocolParameters) (crossed : List Crossing) : ProtocolParameters :=
  crossed.foldl (fun params crossing =>
    (crossing.before.frozenEnactment).elim params EnactedParameterChange.pparams) params

/-- From the boundary that enacts a change on, the accumulator carries it. -/
structure CarriesEnactments (start : EpochAccumulator) (crossed : List Crossing)
    (last : EpochAccumulator) : Prop where
  crossing : ∀ earlier crossing later, crossed = earlier ++ crossing :: later →
    crossing.after.protocolParams = inForce start.protocolParams (earlier ++ [crossing])
  last : last.protocolParams = inForce start.protocolParams crossed

/-! ## What the rewards are fed -/

structure ScannedTx where
  index : UInt64
  tx : TxScan
  bodyBytes : Bytes

def collectTx (data : Bytes) (index : UInt64) (txs : List ScannedTx) :
    TransitionRead (List ScannedTx) := do
  let bodyStart ← get
  let tx ← scanOneTx data
  return txs ++ [⟨index, tx, slice data (bodyStart, ← get)⟩]

/-- The transactions of a block, as the scan sees them. -/
def scannedTxs (block : ShelleyBlock) : List ScannedTx :=
  if block.txCount = 0 then []
  else match ((forEachBody block.txBodies (collectTx block.txBodies) []).runAt 0).1 with
    | .ok counted => counted.2
    | .error _ => []

def invalidIndicesOf (block : ShelleyBlock) : BTreeSet UInt64 :=
  (decodeInvalidTxIndicesCanonical block.invalidTxs block.txCount).toOption.getD ∅

/-- The fee of a valid transaction, the collateral that an invalid one consumed. -/
def txFee (invalid : BTreeSet UInt64) (scanned : ScannedTx) : Nat :=
  if invalid.contains scanned.index then
    ((consumedCollateral env scanned.index scanned.bodyBytes).toOption.getD 0).toNat
  else (scanned.tx.fee.getD 0).toNat

/-- What a valid transaction donates. -/
def txDonation (invalid : BTreeSet UInt64) (scanned : ScannedTx) : Nat :=
  if invalid.contains scanned.index then 0 else (scanned.tx.donation.getD 0).toNat

namespace SelectedBlock

variable (block : SelectedBlock)

/-- The sum of an amount over the transactions of a block. -/
def overTxs (amount : BTreeSet UInt64 → ScannedTx → Nat) : Nat :=
  match decodeSelectedBlock env block.bytes with
  | .ok decoded => ((scannedTxs decoded.2).map (amount (invalidIndicesOf decoded.2))).sum
  | .error _ => 0

def fees : Nat := block.overTxs env (txFee env)

def donations : Nat := block.overTxs env txDonation

def madeBy (pool : PoolId) : Nat := if block.ctx.issuerPool = pool then 1 else 0

end SelectedBlock

/-- The sum of an amount over the blocks of an epoch. -/
def inEpoch (blocks : List SelectedBlock) (epoch : Nat) (amount : SelectedBlock → Nat) : Nat :=
  ((blocks.filter fun block => block.ctx.blockEpoch.toNat = epoch).map amount).sum

/-- With an empty donation pot the boundary computes the same, but for a treasury that is smaller by
the pot. -/
def Crossing.AddsPot (crossing : Crossing) (result : LedgerState Unit) : Prop :=
  ∃ base accounting treasury, crossing.ctx.boundaryMark = some base ∧
    applyEpochBoundaryWithRegistrations env.ratifyFrozen
      { boundaryView crossing.before .ordinary with
        epochState := { (boundaryView crossing.before .ordinary).epochState with donationPot := 0 } }
      crossing.target none (some (boundaryBase crossing.ctx base)) crossing.ctx.activeSlotsPerEpoch =
        .ok ({ result with epochState := { result.epochState with treasury } }, accounting) ∧
    result.epochState.treasury.toNat =
      treasury.toNat + crossing.before.epochState.donationPot.toNat

/-- The counts and fees that the boundary into `target` rewards, and the donations that it adds to the
treasury. The run starts in `start`. -/
structure RewardsFed (start : EpochAccumulator) (blocks : List SelectedBlock) (target : Nat)
    (view : EpochState) : Prop where
  first : target = start.epochState.epoch.toNat + 1 →
    view.blockProduction = start.prevBlockProduction ∧ view.epochFees = start.prevEpochFees ∧
    view.donationPot.toNat = start.epochState.donationPot.toNat +
      inEpoch blocks start.epochState.epoch.toNat (SelectedBlock.donations env)
  second : target = start.epochState.epoch.toNat + 2 →
    (∀ pool, (amountOf view.blockProduction pool).toNat =
      (amountOf start.epochState.blockProduction pool).toNat +
        inEpoch blocks start.epochState.epoch.toNat (SelectedBlock.madeBy · pool)) ∧
    view.epochFees.toNat = start.epochState.epochFees.toNat +
      inEpoch blocks start.epochState.epoch.toNat (SelectedBlock.fees env)
  later : start.epochState.epoch.toNat + 3 ≤ target →
    (∀ pool, (amountOf view.blockProduction pool).toNat =
      inEpoch blocks (target - 2) (SelectedBlock.madeBy · pool)) ∧
    view.epochFees.toNat = inEpoch blocks (target - 2) (SelectedBlock.fees env)
  donated : start.epochState.epoch.toNat + 2 ≤ target →
    view.donationPot.toNat = inEpoch blocks (target - 1) (SelectedBlock.donations env)

end Ade.Ledger
