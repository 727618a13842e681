import Ade.Network.Conversations

/-! What holds in every conversation of a client and a server, and where one gets stuck. -/

namespace Ade.Proof.Network
open Library Library.Conversation Ade.Codec Ade.Network

/-! ## Every interleaving -/

/-- In every run of every protocol, nothing that arrives is refused, one party at most may send, and
the logs of the two differ by the messages on their way alone. -/
theorem conversations_agree (protocol : MiniProtocol) (version : UInt16)
    {parties : Parties protocol.State protocol.Message} {deeds : List (Deed protocol.Message)}
    (run : Run (Acts (protocol.conversation version)) (Parties.start (protocol.conversation version))
      deeds parties) : Agrees (protocol.conversation version) parties :=
  run_agrees run

/-- A ping is on its way. -/
theorem conversations_agree_of_ping : ∃ parties : Parties KeepAliveState KeepAliveMessage,
    parties.inbox .server = [.keepAlive 7] ∧ Agrees (Network.keepAlive 14) parties := by
  have run : Run (Acts (Network.keepAlive 14)) (Parties.start (Network.keepAlive 14))
      [.send .client (.keepAlive 7)] _ := .cons (.send rfl) (.nil _)
  exact ⟨_, rfl, conversations_agree .keepAlive 14 run⟩

/-! ## Where a conversation is stuck -/

section
variable {State Output Failure Message : Type}
  {transition : State → Role → Message → Except Failure (State × Output)}
  {conversation : Conversation State Message} (same : conversation.step = spoken transition)
include same

theorem stepped_of {state next : State} {role : Role} {message : Message}
    (said : conversation.step state role message = some next) :
    ∃ output, transition state role message = .ok (next, output) := by
  rw [same] at said
  exact spoken_eq_some.mp said

theorem speaks_of {state : State} (role : Role) (message : Message) {outcome : State × Output}
    (stepped : transition state role message = .ok outcome) : Speaks conversation state := by
  refine ⟨role, message, outcome.1, ?_⟩
  rw [same]
  exact spoken_eq_some.mpr ⟨outcome.2, stepped⟩

end

section
variable {version : UInt16} (known : version ≤ maxProtocolVersion)
include known

theorem version_known : ¬ maxProtocolVersion < version := UInt16.not_lt.mpr known

theorem chainSync_speaks {state : ChainSyncState} (unfinished : state ≠ .done) :
    Speaks (Network.chainSync version) state := by
  have accepted : ¬ maxChainSyncVersion < version := version_known known
  cases state with
  | idle => exact speaks_of rfl .client .requestNext (if_neg accepted)
  | canAwait => exact speaks_of rfl .server .awaitReply (if_neg accepted)
  | mustReply => exact speaks_of rfl .server (.rollBackward .origin ⟨.origin, 0⟩) (if_neg accepted)
  | intersect => exact speaks_of rfl .server (.intersectNotFound ⟨.origin, 0⟩) (if_neg accepted)
  | done => exact absurd rfl unfinished

theorem blockFetch_speaks {state : BlockFetchState} (unfinished : state ≠ .done) :
    Speaks (Network.blockFetch version) state := by
  have accepted : ¬ maxBlockFetchVersion < version := version_known known
  cases state with
  | idle => exact speaks_of rfl .client .clientDone (if_neg accepted)
  | busy => exact speaks_of rfl .server .noBlocks (if_neg accepted)
  | streaming => exact speaks_of rfl .server .batchDone (if_neg accepted)
  | done => exact absurd rfl unfinished

/-- One transaction is never more than a request for at least one. -/
theorem txSubmission2_speaks {state : TxSubmission2State} (unfinished : state ≠ .done)
    (asks : state ≠ .txIdsBlocking 0) : Speaks (Network.txSubmission2 version) state := by
  have accepted := version_known known
  cases state with
  | init => exact speaks_of rfl .client .init (if_neg accepted)
  | idle => exact speaks_of rfl .server .done (if_neg accepted)
  | txIdsBlocking req =>
      have positive : ¬ 1 > req.toNat := by
        intro none
        apply asks
        rw [UInt16.toNat_inj.mp (show req.toNat = (0 : UInt16).toNat from Nat.lt_one_iff.mp none)]
      exact speaks_of rfl .client (.replyTxIds [⟨⟨0, Vector.replicate 32 0⟩, 0⟩])
        ((if_neg accepted).trans ((if_neg (List.cons_ne_nil _ _)).trans (if_neg positive)))
  | txIdsNonBlocking req =>
      exact speaks_of rfl .client (.replyTxIds [])
        ((if_neg accepted).trans (if_neg (Nat.not_lt_zero _)))
  | txsRequested reqCount =>
      exact speaks_of rfl .client (.replyTxs [])
        ((if_neg accepted).trans (if_neg (Nat.not_lt_zero _)))
  | done => exact absurd rfl unfinished

theorem keepAlive_speaks {state : KeepAliveState} (unfinished : state ≠ .done) :
    Speaks (Network.keepAlive version) state := by
  have accepted := version_known known
  cases state with
  | clientIdle => exact speaks_of rfl .client .done (if_neg accepted)
  | serverHasAgency cookie =>
      exact speaks_of rfl .server (.responseKeepAlive cookie)
        ((if_neg accepted).trans (if_neg (not_not_intro rfl)))
  | done => exact absurd rfl unfinished

theorem peerSharing_speaks {state : PeerSharingState} (unfinished : state ≠ .done) :
    Speaks (Network.peerSharing version) state := by
  have accepted := version_known known
  cases state with
  | idle => exact speaks_of rfl .client .done (if_neg accepted)
  | busy amount =>
      exact speaks_of rfl .server (.sharePeers [])
        ((if_neg accepted).trans (if_neg (Nat.not_lt_zero _)))
  | done => exact absurd rfl unfinished

theorem localChainSync_speaks {state : LocalChainSyncState} (unfinished : state ≠ .done) :
    Speaks (Network.localChainSync version) state := by
  have accepted := version_known known
  cases state with
  | idle => exact speaks_of rfl .client .requestNext (if_neg accepted)
  | canAwait => exact speaks_of rfl .server .awaitReply (if_neg accepted)
  | mustReply => exact speaks_of rfl .server (.rollBackward .origin ⟨.origin, 0⟩) (if_neg accepted)
  | intersect => exact speaks_of rfl .server (.intersectNotFound ⟨.origin, 0⟩) (if_neg accepted)
  | done => exact absurd rfl unfinished

theorem localStateQuery_speaks {state : LocalStateQueryState} (unfinished : state ≠ .done) :
    Speaks (Network.localStateQuery version) state := by
  have accepted := version_known known
  cases state with
  | idle => exact speaks_of rfl .client .done (if_neg accepted)
  | acquiring => exact speaks_of rfl .server .acquired (if_neg accepted)
  | acquired => exact speaks_of rfl .client .release (if_neg accepted)
  | querying => exact speaks_of rfl .server (.result []) (if_neg accepted)
  | done => exact absurd rfl unfinished

theorem localTxSubmission_speaks {state : LocalTxSubmissionState} (unfinished : state ≠ .done) :
    Speaks (Network.localTxSubmission version) state := by
  have accepted := version_known known
  cases state with
  | idle => exact speaks_of rfl .client .done (if_neg accepted)
  | busy => exact speaks_of rfl .server .acceptTx (if_neg accepted)
  | done => exact absurd rfl unfinished

end

/-- The measures are only asked for where they can be answered. -/
theorem measures_asked {state : LocalTxMonitorState} {agency : Agency} {version : UInt16}
    {message : LocalTxMonitorMessage} {output : LocalTxMonitorOutput}
    (stepped : localTxMonitorTransition state agency version message =
      .ok (.busy .getMeasures, output)) : ¬ version < minMeasuresVersion := by
  unfold localTxMonitorTransition at stepped
  split_ifs at stepped with late early
  · rcases state with _ | _ | _ | kind | _ <;> cases agency <;> cases message <;>
      first | cases stepped | (cases kind <;> cases stepped)
  · exact early

theorem localTxMonitor_measures {version : UInt16}
    {parties : Parties LocalTxMonitorState LocalTxMonitorMessage}
    {deeds : List (Deed LocalTxMonitorMessage)}
    (run : Run (Acts (Network.localTxMonitor version)) (Parties.start (Network.localTxMonitor version))
      deeds parties) (role : Role) (busy : parties.state role = .busy .getMeasures) :
    ¬ version < minMeasuresVersion := by
  refine @run_invariant _ _ _ (fun state => state = .busy .getMeasures → ¬ version < minMeasuresVersion)
    ?_ ?_ _ _ run role busy
  · intro absent
    cases absent
  · intro state speaker message next said _ asked
    subst asked
    obtain ⟨output, stepped⟩ := stepped_of rfl said
    exact measures_asked stepped

theorem localTxMonitor_speaks {version : UInt16} (known : version ≤ maxProtocolVersion)
    {state : LocalTxMonitorState} (measures : state = .busy .getMeasures → ¬ version < minMeasuresVersion)
    (unfinished : state ≠ .done) : Speaks (Network.localTxMonitor version) state := by
  have accepted := version_known known
  cases state with
  | idle => exact speaks_of rfl .client .done (if_neg accepted)
  | acquiring => exact speaks_of rfl .server (.acquired 0) (if_neg accepted)
  | acquired => exact speaks_of rfl .client .release (if_neg accepted)
  | busy kind =>
      cases kind with
      | nextTx => exact speaks_of rfl .server (.replyNextTx none) (if_neg accepted)
      | hasTx => exact speaks_of rfl .server (.replyHasTx false) (if_neg accepted)
      | getSizes => exact speaks_of rfl .server (.replyGetSizes ⟨0, 0, 0⟩) (if_neg accepted)
      | getMeasures =>
          exact speaks_of rfl .server (.replyGetMeasures ⟨0, ∅⟩)
            ((if_neg accepted).trans (if_neg (measures rfl)))
  | done => exact absurd rfl unfinished

/-! ## All of them -/

/-- A finished conversation is silent, and so is one that waits for some of no transactions. -/
theorem not_speaks_ended {version : UInt16} {protocol : MiniProtocol} {state : protocol.State}
    (ended : protocol.Done state ∨ protocol.AsksForNothing state) :
    ¬ Speaks (protocol.conversation version) state := by
  cases protocol with
  | txSubmission2 =>
      rcases ended with rfl | rfl
      · exact not_speaks rfl
      · rintro ⟨role, message, next, said⟩
        obtain ⟨output, stepped⟩ := stepped_of rfl said
        unfold txSubmission2Transition at stepped
        split_ifs at stepped
        cases role <;> cases message <;> try cases stepped
        rename_i entries
        cases entries <;> cases stepped
  | _ =>
      rcases ended with rfl | never
      · exact not_speaks rfl
      · exact absurd never id

theorem run_speaks (protocol : MiniProtocol) {version : UInt16} (known : version ≤ maxProtocolVersion)
    {parties : Parties protocol.State protocol.Message} {deeds : List (Deed protocol.Message)}
    (run : Run (Acts (protocol.conversation version)) (Parties.start (protocol.conversation version))
      deeds parties) (role : Role) : Speaks (protocol.conversation version) (parties.state role) ↔
        ¬ (protocol.Done (parties.state role) ∨ protocol.AsksForNothing (parties.state role)) := by
  constructor
  · intro speaks ended
    exact not_speaks_ended ended speaks
  · intro going
    obtain ⟨unfinished, asks⟩ := not_or.mp going
    cases protocol with
    | chainSync => exact chainSync_speaks known unfinished
    | blockFetch => exact blockFetch_speaks known unfinished
    | txSubmission2 => exact txSubmission2_speaks known unfinished asks
    | keepAlive => exact keepAlive_speaks known unfinished
    | peerSharing => exact peerSharing_speaks known unfinished
    | localChainSync => exact localChainSync_speaks known unfinished
    | localStateQuery => exact localStateQuery_speaks known unfinished
    | localTxSubmission => exact localTxSubmission_speaks known unfinished
    | localTxMonitor =>
        exact localTxMonitor_speaks known (localTxMonitor_measures run role) unfinished

/-- Both parties can do nothing more exactly when all messages have arrived and the conversation is
over, or the server of tx-submission waits for some of no transactions. -/
theorem conversations_stuck (protocol : MiniProtocol) (version : UInt16)
    (known : version ≤ maxProtocolVersion) {parties : Parties protocol.State protocol.Message}
    {deeds : List (Deed protocol.Message)} (run : Run (Acts (protocol.conversation version))
      (Parties.start (protocol.conversation version)) deeds parties) :
    (∀ deed after, ¬ Acts (protocol.conversation version) parties deed after) ↔
      (∀ role, parties.inbox role = []) ∧ ∀ role,
        protocol.Done (parties.state role) ∨ protocol.AsksForNothing (parties.state role) := by
  rw [(run_agrees run).stuck_iff]
  simp only [run_speaks protocol known run, not_not]

/-- The server has asked for no transaction ids, and waits for the first of them. -/
theorem conversations_stuck_of_request :
    ∃ parties : Parties TxSubmission2State TxSubmission2Message,
      (∃ deeds, Run (Acts (Network.txSubmission2 14)) (Parties.start (Network.txSubmission2 14))
        deeds parties) ∧ ∀ deed after, ¬ Acts (Network.txSubmission2 14) parties deed after := by
  have run : Run (Acts (Network.txSubmission2 14)) (Parties.start (Network.txSubmission2 14))
      [.send .client .init, .receive .server, .send .server (.requestTxIds true 0 0),
        .receive .client] _ :=
    .cons (.send rfl) (.cons (.receive rfl rfl) (.cons (.send rfl) (.cons (.receive rfl rfl) (.nil _))))
  refine ⟨_, ⟨_, run⟩, (conversations_stuck .txSubmission2 14 (by decide) run).mpr ⟨?_, ?_⟩⟩
  · intro role
    cases role <;> rfl
  · intro role
    right
    cases role <;> rfl

end Ade.Proof.Network
