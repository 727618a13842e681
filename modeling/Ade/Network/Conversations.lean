import Ade.Network.MiniProtocols

/-! Each mini-protocol as a conversation of a client and a server. -/

namespace Ade.Network
open Library Codec

/-- What a transition function says of the next state. -/
def spoken {State Output Failure Message : Type}
    (transition : State → Role → Message → Except Failure (State × Output))
    (state : State) (role : Role) (message : Message) : Option State :=
  (transition state role message).toOption.map Prod.fst

theorem spoken_eq_some {State Output Failure Message : Type}
    {transition : State → Role → Message → Except Failure (State × Output)}
    {state next : State} {role : Role} {message : Message} :
    spoken transition state role message = some next ↔
      ∃ output, transition state role message = .ok (next, output) := by
  unfold spoken
  cases transition state role message with
  | error failure => simp [Except.toOption]
  | ok outcome => simp [Except.toOption, Prod.ext_iff]

/-! ## Who may send -/

def roleAgency : Role → Agency
  | .client => .client
  | .server => .server

def roleChainSyncAgency : Role → ChainSyncAgency
  | .client => .client
  | .server => .server

def roleBlockFetchAgency : Role → BlockFetchAgency
  | .client => .client
  | .server => .server

def chainSyncHolder : ChainSyncState → Option Role
  | .idle => some .client
  | .canAwait | .mustReply | .intersect => some .server
  | .done => none

def blockFetchHolder : BlockFetchState → Option Role
  | .idle => some .client
  | .busy | .streaming => some .server
  | .done => none

/-- In tx-submission it is the server that asks. -/
def txSubmission2Holder : TxSubmission2State → Option Role
  | .init | .txIdsBlocking _ | .txIdsNonBlocking _ | .txsRequested _ => some .client
  | .idle => some .server
  | .done => none

def keepAliveHolder : KeepAliveState → Option Role
  | .clientIdle => some .client
  | .serverHasAgency _ => some .server
  | .done => none

def peerSharingHolder : PeerSharingState → Option Role
  | .idle => some .client
  | .busy _ => some .server
  | .done => none

def localChainSyncHolder : LocalChainSyncState → Option Role
  | .idle => some .client
  | .canAwait | .mustReply | .intersect => some .server
  | .done => none

def localStateQueryHolder : LocalStateQueryState → Option Role
  | .idle | .acquired => some .client
  | .acquiring | .querying => some .server
  | .done => none

def localTxSubmissionHolder : LocalTxSubmissionState → Option Role
  | .idle => some .client
  | .busy => some .server
  | .done => none

def localTxMonitorHolder : LocalTxMonitorState → Option Role
  | .idle | .acquired => some .client
  | .acquiring | .busy _ => some .server
  | .done => none

/-! ## The conversations -/

def chainSync (version : UInt16) : Conversation ChainSyncState ChainSyncMessage where
  start := .idle
  step := spoken fun state role msg => chainSyncTransition state (roleChainSyncAgency role) version msg
  holder := chainSyncHolder
  sends := by
    intro state role message next said
    obtain ⟨output, stepped⟩ := spoken_eq_some.mp said
    unfold chainSyncTransition at stepped
    split_ifs at stepped
    cases state <;> cases role <;> cases message <;> first | rfl | cases stepped

def blockFetch (version : UInt16) : Conversation BlockFetchState BlockFetchMessage where
  start := .idle
  step := spoken fun state role msg => blockFetchTransition state (roleBlockFetchAgency role) version msg
  holder := blockFetchHolder
  sends := by
    intro state role message next said
    obtain ⟨output, stepped⟩ := spoken_eq_some.mp said
    unfold blockFetchTransition at stepped
    split_ifs at stepped
    cases state <;> cases role <;> cases message <;> first | rfl | cases stepped

def txSubmission2 (version : UInt16) : Conversation TxSubmission2State TxSubmission2Message where
  start := .init
  step := spoken fun state role msg => txSubmission2Transition state (roleAgency role) version msg
  holder := txSubmission2Holder
  sends := by
    intro state role message next said
    obtain ⟨output, stepped⟩ := spoken_eq_some.mp said
    unfold txSubmission2Transition at stepped
    split_ifs at stepped
    cases state <;> cases role <;> cases message <;> first | rfl | cases stepped

def keepAlive (version : UInt16) : Conversation KeepAliveState KeepAliveMessage where
  start := .clientIdle
  step := spoken fun state role msg => keepAliveTransition state (roleAgency role) version msg
  holder := keepAliveHolder
  sends := by
    intro state role message next said
    obtain ⟨output, stepped⟩ := spoken_eq_some.mp said
    unfold keepAliveTransition at stepped
    split_ifs at stepped
    cases state <;> cases role <;> cases message <;> first | rfl | cases stepped

def peerSharing (version : UInt16) : Conversation PeerSharingState PeerSharingMessage where
  start := .idle
  step := spoken fun state role msg => peerSharingTransition state (roleAgency role) version msg
  holder := peerSharingHolder
  sends := by
    intro state role message next said
    obtain ⟨output, stepped⟩ := spoken_eq_some.mp said
    unfold peerSharingTransition at stepped
    split_ifs at stepped
    cases state <;> cases role <;> cases message <;> first | rfl | cases stepped

def localChainSync (version : UInt16) : Conversation LocalChainSyncState LocalChainSyncMessage where
  start := .idle
  step := spoken fun state role msg => localChainSyncTransition state (roleAgency role) version msg
  holder := localChainSyncHolder
  sends := by
    intro state role message next said
    obtain ⟨output, stepped⟩ := spoken_eq_some.mp said
    unfold localChainSyncTransition at stepped
    split_ifs at stepped
    cases state <;> cases role <;> cases message <;> first | rfl | cases stepped

def localStateQuery (version : UInt16) : Conversation LocalStateQueryState LocalStateQueryMessage where
  start := .idle
  step := spoken fun state role msg => localStateQueryTransition state (roleAgency role) version msg
  holder := localStateQueryHolder
  sends := by
    intro state role message next said
    obtain ⟨output, stepped⟩ := spoken_eq_some.mp said
    unfold localStateQueryTransition at stepped
    split_ifs at stepped
    cases state <;> cases role <;> cases message <;> first | rfl | cases stepped

def localTxSubmission (version : UInt16) :
    Conversation LocalTxSubmissionState LocalTxSubmissionMessage where
  start := .idle
  step := spoken fun state role msg => localTxSubmissionTransition state (roleAgency role) version msg
  holder := localTxSubmissionHolder
  sends := by
    intro state role message next said
    obtain ⟨output, stepped⟩ := spoken_eq_some.mp said
    unfold localTxSubmissionTransition at stepped
    split_ifs at stepped
    cases state <;> cases role <;> cases message <;> first | rfl | cases stepped

def localTxMonitor (version : UInt16) : Conversation LocalTxMonitorState LocalTxMonitorMessage where
  start := .idle
  step := spoken fun state role msg => localTxMonitorTransition state (roleAgency role) version msg
  holder := localTxMonitorHolder
  sends := by
    intro state role message next said
    obtain ⟨output, stepped⟩ := spoken_eq_some.mp said
    unfold localTxMonitorTransition at stepped
    split_ifs at stepped
    all_goals
      rcases state with _ | _ | _ | kind | _ <;> cases role <;> cases message <;>
        first | rfl | cases stepped | (cases kind <;> cases stepped)

/-! ## All of them -/

inductive MiniProtocol where
  | chainSync | blockFetch | txSubmission2 | keepAlive | peerSharing
  | localChainSync | localStateQuery | localTxSubmission | localTxMonitor
deriving DecidableEq, Repr

namespace MiniProtocol

def State : MiniProtocol → Type
  | .chainSync => ChainSyncState
  | .blockFetch => BlockFetchState
  | .txSubmission2 => TxSubmission2State
  | .keepAlive => KeepAliveState
  | .peerSharing => PeerSharingState
  | .localChainSync => LocalChainSyncState
  | .localStateQuery => LocalStateQueryState
  | .localTxSubmission => LocalTxSubmissionState
  | .localTxMonitor => LocalTxMonitorState

def Message : MiniProtocol → Type
  | .chainSync => ChainSyncMessage
  | .blockFetch => BlockFetchMessage
  | .txSubmission2 => TxSubmission2Message
  | .keepAlive => KeepAliveMessage
  | .peerSharing => PeerSharingMessage
  | .localChainSync => LocalChainSyncMessage
  | .localStateQuery => LocalStateQueryMessage
  | .localTxSubmission => LocalTxSubmissionMessage
  | .localTxMonitor => LocalTxMonitorMessage

def conversation (version : UInt16) :
    (protocol : MiniProtocol) → Conversation protocol.State protocol.Message
  | .chainSync => Network.chainSync version
  | .blockFetch => Network.blockFetch version
  | .txSubmission2 => Network.txSubmission2 version
  | .keepAlive => Network.keepAlive version
  | .peerSharing => Network.peerSharing version
  | .localChainSync => Network.localChainSync version
  | .localStateQuery => Network.localStateQuery version
  | .localTxSubmission => Network.localTxSubmission version
  | .localTxMonitor => Network.localTxMonitor version

def Done : (protocol : MiniProtocol) → protocol.State → Prop
  | .chainSync, state => state = ChainSyncState.done
  | .blockFetch, state => state = BlockFetchState.done
  | .txSubmission2, state => state = TxSubmission2State.done
  | .keepAlive, state => state = KeepAliveState.done
  | .peerSharing, state => state = PeerSharingState.done
  | .localChainSync, state => state = LocalChainSyncState.done
  | .localStateQuery, state => state = LocalStateQueryState.done
  | .localTxSubmission, state => state = LocalTxSubmissionState.done
  | .localTxMonitor, state => state = LocalTxMonitorState.done

/-- The server of tx-submission has asked for no transactions and waits for at least one. -/
def AsksForNothing : (protocol : MiniProtocol) → protocol.State → Prop
  | .txSubmission2, state => state = TxSubmission2State.txIdsBlocking 0
  | _, _ => False

end MiniProtocol

end Ade.Network
