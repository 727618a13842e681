import Ade.Network.ServedChain

/-! The block-fetch state machine and the server that answers range requests over it. -/

namespace Ade.Network
open Library Codec ChainDb

inductive BlockFetchState where
  | idle | busy | streaming | done
deriving DecidableEq, Repr

inductive BlockFetchAgency where
  | client | server | neither
deriving DecidableEq, Repr

inductive BatchDeliveryEvent where
  | batchStarted
  | blockDelivered (blockBytes : Bytes)
  | noBlocks
  | batchCompleted
deriving DecidableEq, Repr

inductive BlockFetchOutput where
  | reply (msg : BlockFetchMessage)
  | event (event : BatchDeliveryEvent)
  | done
deriving DecidableEq, Repr

inductive BlockFetchError where
  | illegalTransition (state : BlockFetchState) (messageTag : String) (agency : BlockFetchAgency)
  | invalidForVersion (version : UInt16) (messageTag : String)
  | malformedMessage (reason : String)
deriving DecidableEq, Repr

def BlockFetchMessage.messageTag : BlockFetchMessage → String
  | .requestRange _ => "RequestRange"
  | .clientDone => "ClientDone"
  | .startBatch => "StartBatch"
  | .noBlocks => "NoBlocks"
  | .block _ => "Block"
  | .batchDone => "BatchDone"

def maxBlockFetchVersion : UInt16 := 100

/-- Only the slots of the endpoints are compared. -/
def Range.Inverted : Range → Prop
  | ⟨.block slot _, .block slot' _⟩ => slot > slot'
  | _ => False

instance : DecidablePred Range.Inverted
  | ⟨.block slot _, .block slot' _⟩ => inferInstanceAs (Decidable (slot > slot'))
  | ⟨.origin, _⟩ => .isFalse id
  | ⟨.block _ _, .origin⟩ => .isFalse id

/-- `agency` is the one that the sender of the message held. -/
def blockFetchTransition (state : BlockFetchState) (agency : BlockFetchAgency) (version : UInt16)
    (msg : BlockFetchMessage) : Except BlockFetchError (BlockFetchState × BlockFetchOutput) :=
  if maxBlockFetchVersion < version then .error (.invalidForVersion version msg.messageTag)
  else
    match state, agency, msg with
    | .idle, .client, .requestRange range =>
        if range.Inverted then .error (.malformedMessage "BlockFetch range is inverted (from > to)")
        else .ok (.busy, .reply (.requestRange range))
    | .idle, .client, .clientDone => .ok (.done, .done)
    | .busy, .server, .startBatch => .ok (.streaming, .event .batchStarted)
    | .busy, .server, .noBlocks => .ok (.idle, .event .noBlocks)
    | .streaming, .server, .block bytes => .ok (.streaming, .event (.blockDelivered bytes))
    | .streaming, .server, .batchDone => .ok (.idle, .event .batchCompleted)
    | state, agency, msg => .error (.illegalTransition state msg.messageTag agency)

/-! ## The server -/

inductive BlockFetchServerReply where
  | startBatch
  | noBlocks
  | block (bytes : Bytes)
  | batchDone
deriving DecidableEq, Repr

def BlockFetchServerReply.intoMessage : BlockFetchServerReply → BlockFetchMessage
  | .startBatch => .startBatch
  | .noBlocks => .noBlocks
  | .block bytes => .block bytes
  | .batchDone => .batchDone

structure ServedBlock where
  key : Ade.Point
  bytes : Bytes
deriving DecidableEq, Repr

/-- `none` stands for a panic. -/
structure ServedRangeLookup where
  rangeBytes : (from_ to_ : Ade.Point) → Option (List ServedBlock)

structure ProducerBlockFetchServerState where
  state : BlockFetchState
deriving DecidableEq, Repr

def ProducerBlockFetchServerState.new : ProducerBlockFetchServerState := ⟨.idle⟩

inductive ProducerBlockFetchServerError where
  | grammar (failure : BlockFetchError)
deriving DecidableEq, Repr

inductive BlockFetchServerStep where
  | done
  | replies (replies : List BlockFetchServerReply)
deriving DecidableEq, Repr

def composeBlockfetchBlock (storageBlock : Bytes) : Bytes := wrapTag24 storageBlock

/-- Both endpoints must be served. -/
def answerRange (served : ServedRangeLookup) (from_ to_ : Ade.Point) :
    Option (List BlockFetchServerReply) := do
  let entries ← served.rangeBytes from_ to_
  if entries = [] then return [.noBlocks]
  let first ← entries.head?
  let last ← entries.getLast?
  if first.key ≠ from_ ∨ last.key ≠ to_ then return [.noBlocks]
  return .startBatch ::
    (entries.map (fun entry => .block (composeBlockfetchBlock entry.bytes)) ++ [.batchDone])

/-- `none` stands for a panic. What follows Origin is not served. -/
def producerBlockFetchServe (state : ProducerBlockFetchServerState) (inMsg : BlockFetchMessage)
    (served : ServedRangeLookup) (version : UInt16) :
    Option (Except ProducerBlockFetchServerError
      (ProducerBlockFetchServerState × BlockFetchServerStep)) :=
  match blockFetchTransition state.state .client version inMsg with
  | .error failure => some (.error (.grammar failure))
  | .ok (newState, _) =>
      match inMsg with
      | .requestRange ⟨.block slot hash, .block slot' hash'⟩ =>
          (answerRange served ⟨slot, hash⟩ ⟨slot', hash'⟩).map fun replies =>
            .ok (⟨.idle⟩, .replies replies)
      | .requestRange _ => some (.ok (⟨.idle⟩, .replies [.noBlocks]))
      | .clientDone => some (.ok (⟨newState⟩, .done))
      | _ =>
          some (.error (.grammar (.illegalTransition newState
            "server-originated message arrived as Client" .client)))

/-! ## What is served -/

def InRange (from_ to_ key : Ade.Point) : Prop := compare key from_ ≠ .lt ∧ compare key to_ ≠ .gt

instance (from_ to_ : Ade.Point) : DecidablePred (InRange from_ to_) := fun _ => inferInstanceAs (Decidable (_ ∧ _))

/-- The range of a `BTreeMap` panics where it starts behind its end. -/
def snapshotRangeBytes (blocks : BTreeMap Ade.Point Bytes) (from_ to_ : Ade.Point) :
    Option (List ServedBlock) :=
  if compare from_ to_ = .gt then none
  else some ((blocks.toList.map fun entry => ⟨entry.1, entry.2⟩).filter fun block =>
    InRange from_ to_ block.key)

inductive ServeRangeOutcome where
  | served (blocks : List ServedBlock)
  | empty
  | capExceeded
  | readError
deriving DecidableEq, Repr

def maxServeRangeBlocks : Nat := 256

section
variable {Failure : Type} (decodeBlock : Bytes → Except Failure DecodedBlock)

/-- The hash is the one that the bytes have. -/
def authenticate (entry : SlotNo × Bytes) : Except Failure ServedBlock := do
  let decoded ← decodeBlock entry.2
  return ⟨⟨entry.1, decoded.blockHash⟩, entry.2⟩

def serveRange (chaindb : ChainDbReads) (from_ to_ : Ade.Point) : ServeRangeOutcome :=
  match chaindb.rangeBytesCapped from_.slot to_.slot maxServeRangeBlocks with
  | .error _ => .readError
  | .ok capped =>
      if capped.truncated then .capExceeded
      else
        match capped.blocks.mapM (authenticate decodeBlock) with
        | .error _ => .readError
        | .ok blocks =>
            match blocks.filter fun block => InRange from_ to_ block.key with
            | [] => .empty
            | kept => .served kept

def chainDbRangeBytes (chaindb : ChainDbReads) (from_ to_ : Ade.Point) : List ServedBlock :=
  match serveRange decodeBlock chaindb from_ to_ with
  | .served blocks => blocks
  | .empty | .capExceeded | .readError => []

inductive ServedSource where
  | snapshot (blocks : BTreeMap Ade.Point Bytes)
  | inMemory (chaindb : InMemoryChainDb)
  | persistent (chaindb : PersistentChainDb)

def ServedSource.lookup : ServedSource → ServedRangeLookup
  | .snapshot blocks => ⟨snapshotRangeBytes blocks⟩
  | .inMemory chaindb => ⟨fun from_ to_ => some (chainDbRangeBytes decodeBlock chaindb.reads from_ to_)⟩
  | .persistent chaindb => ⟨fun from_ to_ => some (chainDbRangeBytes decodeBlock chaindb.reads from_ to_)⟩

end

end Ade.Network
