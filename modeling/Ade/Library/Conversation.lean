import Ade.Library.Run

/-! # Conversations of two parties over a queue each

Both parties follow one state machine, on what they send and on what they receive. -/

namespace Ade.Library

inductive Role where
  | client
  | server
deriving DecidableEq, Repr

namespace Role

def other : Role → Role
  | .client => .server
  | .server => .client

@[simp] theorem other_other (role : Role) : role.other.other = role := by cases role <;> rfl

@[simp] theorem other_ne (role : Role) : role.other ≠ role := by cases role <;> decide

@[simp] theorem ne_other (role : Role) : role ≠ role.other := by cases role <;> decide

theorem eq_or_other (role leader : Role) : role = leader ∨ role = leader.other := by
  cases role <;> cases leader <;> simp [other]

end Role

/-- A state machine of two roles. In every state, one of them at most may send. -/
structure Conversation (σ μ : Type) where
  start : σ
  step : σ → Role → μ → Option σ
  holder : σ → Option Role
  sends : ∀ {state : σ} {role : Role} {message : μ} {next : σ},
    step state role message = some next → holder state = some role

namespace Conversation

variable {σ μ : Type} (conversation : Conversation σ μ)

/-- What has been said, in order, from a state on. -/
def replay (state : σ) (said : List (Role × μ)) : Option σ :=
  said.foldlM (fun state entry => conversation.step state entry.1 entry.2) state

/-- Each party has a state, the messages on their way to it, and a log of what it has sent and taken. -/
structure Parties (σ μ : Type) where
  state : Role → σ
  inbox : Role → List μ
  log : Role → List (Role × μ)

def Parties.start (conversation : Conversation σ μ) : Parties σ μ where
  state _ := conversation.start
  inbox _ := []
  log _ := []

/-- The parties once one of them has processed a message of a sender. -/
def Parties.advanced (parties : Parties σ μ) (role : Role) (next : σ) (sender : Role) (message : μ)
    (inbox : Role → List μ) : Parties σ μ where
  state := Function.update parties.state role next
  inbox := inbox
  log := Function.update parties.log role (parties.log role ++ [(sender, message)])

inductive Deed (μ : Type) where
  | send (role : Role) (message : μ)
  | receive (role : Role)

/-- A party sends what its machine allows, and takes the oldest message on its way if its machine
allows that. -/
inductive Acts : Parties σ μ → Deed μ → Parties σ μ → Prop
  | send {parties : Parties σ μ} {role : Role} {message : μ} {next : σ}
      (allowed : conversation.step (parties.state role) role message = some next) :
      Acts parties (.send role message) (parties.advanced role next role message
        (Function.update parties.inbox role.other (parties.inbox role.other ++ [message])))
  | receive {parties : Parties σ μ} {role : Role} {message : μ} {rest : List μ} {next : σ}
      (arrived : parties.inbox role = message :: rest)
      (allowed : conversation.step (parties.state role) role.other message = some next) :
      Acts parties (.receive role) (parties.advanced role next role.other message
        (Function.update parties.inbox role rest))

variable {conversation}

/-! ## One party is ahead -/

/-- What the leader has said is what the other has heard and what is on its way to it. -/
structure Ahead (conversation : Conversation σ μ) (parties : Parties σ μ) (leader : Role) : Prop where
  silent : parties.inbox leader = []
  logs : parties.log leader =
    parties.log leader.other ++ (parties.inbox leader.other).map fun message => (leader, message)
  state : ∀ role, conversation.replay conversation.start (parties.log role) = some (parties.state role)

theorem replay_append (state : σ) (earlier later : List (Role × μ)) :
    conversation.replay state (earlier ++ later) =
      (conversation.replay state earlier).bind fun middle => conversation.replay middle later :=
  List.foldlM_append ..

theorem replay_said {state next : σ} {said : List (Role × μ)} {sender : Role} {message : μ}
    (reached : conversation.replay conversation.start said = some state)
    (allowed : conversation.step state sender message = some next) :
    conversation.replay conversation.start (said ++ [(sender, message)]) = some next := by
  rw [replay_append, reached]
  simp [replay, allowed]

/-- The states follow the logs, whoever acts. -/
theorem states_advanced {parties : Parties σ μ} {role sender : Role} {message : μ} {next : σ}
    {inbox : Role → List μ} (states : ∀ role,
      conversation.replay conversation.start (parties.log role) = some (parties.state role))
    (allowed : conversation.step (parties.state role) sender message = some next) (party : Role) :
    conversation.replay conversation.start
        ((parties.advanced role next sender message inbox).log party) =
      some ((parties.advanced role next sender message inbox).state party) := by
  unfold Parties.advanced
  by_cases same : party = role
  · subst same
    simpa using replay_said (states party) allowed
  · simpa [same] using states party

/-- The oldest message on its way to the other party is one that its machine allows. -/
theorem Ahead.allowed {parties : Parties σ μ} {leader : Role} (ahead : Ahead conversation parties leader)
    {message : μ} {rest : List μ} (arrived : parties.inbox leader.other = message :: rest) :
    ∃ next, conversation.step (parties.state leader.other) leader message = some next := by
  have reached := ahead.state leader
  rw [ahead.logs, replay_append, ahead.state leader.other, arrived] at reached
  simp only [replay, List.map_cons, List.foldlM_cons, Option.bind_some] at reached
  obtain ⟨next, allowed, -⟩ := Option.bind_eq_some_iff.mp reached
  exact ⟨next, allowed⟩

/-- While messages are on their way to it, a party may not send. -/
theorem Ahead.waits {parties : Parties σ μ} {leader : Role} (ahead : Ahead conversation parties leader)
    (waiting : parties.inbox leader.other ≠ []) :
    conversation.holder (parties.state leader.other) = some leader := by
  obtain ⟨message, rest, arrived⟩ := List.exists_cons_of_ne_nil waiting
  obtain ⟨next, allowed⟩ := ahead.allowed arrived
  exact conversation.sends allowed

/-- With nothing on its way, either party is ahead. -/
theorem Ahead.settled {parties : Parties σ μ} {leader : Role} (ahead : Ahead conversation parties leader)
    (nothing : parties.inbox leader.other = []) :
    parties.log leader = parties.log leader.other ∧
      parties.state leader = parties.state leader.other := by
  have same := ahead.logs
  rw [nothing, List.map_nil, List.append_nil] at same
  have reached := ahead.state leader
  rw [same, ahead.state leader.other] at reached
  exact ⟨same, (Option.some.inj reached).symm⟩

theorem Ahead.swap {parties : Parties σ μ} {leader : Role} (ahead : Ahead conversation parties leader)
    (nothing : parties.inbox leader.other = []) : Ahead conversation parties leader.other where
  silent := nothing
  logs := by
    rw [Role.other_other, ahead.silent, List.map_nil, List.append_nil]
    exact (ahead.settled nothing).1.symm
  state := ahead.state

/-! ## Acting -/

theorem Ahead.send {parties : Parties σ μ} {leader : Role} (ahead : Ahead conversation parties leader)
    {message : μ} {next : σ}
    (allowed : conversation.step (parties.state leader) leader message = some next) :
    Ahead conversation (parties.advanced leader next leader message (Function.update parties.inbox
      leader.other (parties.inbox leader.other ++ [message]))) leader where
  silent := by simp [Parties.advanced, ahead.silent]
  logs := by simp [Parties.advanced, ahead.logs]
  state := states_advanced ahead.state allowed

theorem Ahead.receive {parties : Parties σ μ} {leader : Role} (ahead : Ahead conversation parties leader)
    {message : μ} {rest : List μ} {next : σ} (arrived : parties.inbox leader.other = message :: rest)
    (allowed : conversation.step (parties.state leader.other) leader message = some next) :
    Ahead conversation (parties.advanced leader.other next leader message
      (Function.update parties.inbox leader.other rest)) leader where
  silent := by simp [Parties.advanced, ahead.silent]
  logs := by simp [Parties.advanced, ahead.logs, arrived]
  state := states_advanced ahead.state allowed

theorem acts_ahead {before after : Parties σ μ} {deed : Deed μ} (acts : Acts conversation before deed after)
    {leader : Role} (ahead : Ahead conversation before leader) :
    ∃ leader, Ahead conversation after leader := by
  cases acts with
  | @send role message next allowed =>
      rcases Role.eq_or_other role leader with rfl | rfl
      · exact ⟨role, ahead.send allowed⟩
      · -- The other party holds its state, so it has heard everything.
        by_cases waiting : before.inbox leader.other = []
        · have swapped := (ahead.swap waiting).send allowed
          exact ⟨leader.other, swapped⟩
        · have held := conversation.sends allowed
          rw [ahead.waits waiting] at held
          exact absurd (Option.some.inj held) (Role.ne_other leader)
  | @receive role message rest next arrived allowed =>
      rcases Role.eq_or_other role leader with rfl | rfl
      · rw [ahead.silent] at arrived
        cases arrived
      · rw [Role.other_other] at allowed ⊢
        exact ⟨leader, ahead.receive arrived allowed⟩

theorem ahead_start (leader : Role) : Ahead conversation (Parties.start conversation) leader where
  silent := rfl
  logs := rfl
  state _ := rfl

/-- In every run, one of the two parties is ahead of the other. -/
theorem run_ahead {parties : Parties σ μ} {deeds : List (Deed μ)}
    (run : Run (Acts conversation) (Parties.start conversation) deeds parties) :
    ∃ leader, Ahead conversation parties leader :=
  @Run.invariant _ _ _ _ _ _ (fun parties => ∃ leader, Ahead conversation parties leader)
    (fun _ _ _ acts ⟨_, ahead⟩ => acts_ahead acts ahead) run ⟨.client, ahead_start .client⟩

/-! ## What holds in every run -/

/-- Nothing that arrives is refused, one party at most may send, and the log of one party is that of
the other with the messages on their way. -/
structure Agrees (conversation : Conversation σ μ) (parties : Parties σ μ) : Prop where
  accepted : ∀ role message rest, parties.inbox role = message :: rest →
    ∃ next, conversation.step (parties.state role) role.other message = some next
  oneHolder : ¬ (conversation.holder (parties.state .client) = some .client ∧
    conversation.holder (parties.state .server) = some .server)
  oneWay : parties.inbox .client = [] ∨ parties.inbox .server = []
  logs : ∃ leader : Role, parties.log leader =
    parties.log leader.other ++ (parties.inbox leader.other).map fun message => (leader, message)
  settled : (∀ role, parties.inbox role = []) → parties.state .client = parties.state .server

theorem Ahead.agrees {parties : Parties σ μ} {leader : Role} (ahead : Ahead conversation parties leader) :
    Agrees conversation parties where
  accepted := by
    intro role message rest arrived
    rcases Role.eq_or_other role leader with rfl | rfl
    · rw [ahead.silent] at arrived
      cases arrived
    · rw [Role.other_other]
      exact ahead.allowed arrived
  oneHolder := by
    have both : ¬ (conversation.holder (parties.state leader) = some leader ∧
        conversation.holder (parties.state leader.other) = some leader.other) := by
      rintro ⟨here, there⟩
      by_cases waiting : parties.inbox leader.other = []
      · rw [(ahead.settled waiting).2, there] at here
        exact Role.other_ne leader (Option.some.inj here)
      · rw [ahead.waits waiting] at there
        exact Role.ne_other leader (Option.some.inj there)
    cases leader with
    | client => exact both
    | server => exact fun ⟨client, server⟩ => both ⟨server, client⟩
  oneWay := by
    cases leader with
    | client => exact .inl ahead.silent
    | server => exact .inr ahead.silent
  logs := ⟨leader, ahead.logs⟩
  settled := by
    intro nothing
    have same := (ahead.settled (nothing leader.other)).2
    cases leader with
    | client => exact same
    | server => exact same.symm

theorem run_agrees {parties : Parties σ μ} {deeds : List (Deed μ)}
    (run : Run (Acts conversation) (Parties.start conversation) deeds parties) :
    Agrees conversation parties := by
  obtain ⟨leader, ahead⟩ := run_ahead run
  exact ahead.agrees

/-- What the machine keeps from its start on holds of both parties. -/
theorem run_invariant {holds : σ → Prop} (initially : holds conversation.start)
    (preserved : ∀ state role message next, conversation.step state role message = some next →
      holds state → holds next) {parties : Parties σ μ} {deeds : List (Deed μ)}
    (run : Run (Acts conversation) (Parties.start conversation) deeds parties) (role : Role) :
    holds (parties.state role) := by
  refine @Run.invariant _ _ _ _ _ _ (fun parties => ∀ role, holds (parties.state role)) ?_ run
    (fun _ => initially) role
  intro before deed after acts kept party
  cases acts with
  | @send role message next allowed =>
      by_cases same : party = role
      · subst same
        simpa [Parties.advanced] using preserved _ _ _ _ allowed (kept party)
      · simpa [Parties.advanced, same] using kept party
  | @receive role message rest next arrived allowed =>
      by_cases same : party = role
      · subst same
        simpa [Parties.advanced] using preserved _ _ _ _ allowed (kept party)
      · simpa [Parties.advanced, same] using kept party

/-! ## Where a conversation is stuck -/

/-- Some role can send some message in the state. -/
def Speaks (conversation : Conversation σ μ) (state : σ) : Prop :=
  ∃ role message next, conversation.step state role message = some next

theorem not_speaks {state : σ} (free : conversation.holder state = none) :
    ¬ Speaks conversation state := by
  rintro ⟨role, message, next, said⟩
  have held := conversation.sends said
  rw [free] at held
  cases held

theorem Agrees.same_state {parties : Parties σ μ} (agrees : Agrees conversation parties)
    (empty : ∀ role, parties.inbox role = []) (role party : Role) :
    parties.state role = parties.state party := by
  have same := agrees.settled empty
  cases role <;> cases party <;> simp [same]

/-- Nothing can happen any more once everything sent has arrived and the state lets nobody speak. -/
theorem Agrees.stuck_iff {parties : Parties σ μ} (agrees : Agrees conversation parties) :
    (∀ deed after, ¬ Acts conversation parties deed after) ↔
      (∀ role, parties.inbox role = []) ∧ ∀ role, ¬ Speaks conversation (parties.state role) := by
  constructor
  · intro stuck
    have empty : ∀ role, parties.inbox role = [] := by
      intro role
      by_contra waiting
      obtain ⟨message, rest, arrived⟩ := List.exists_cons_of_ne_nil waiting
      obtain ⟨next, allowed⟩ := agrees.accepted role message rest arrived
      exact stuck _ _ (.receive arrived allowed)
    refine ⟨empty, ?_⟩
    rintro role ⟨speaker, message, next, said⟩
    rw [agrees.same_state empty role speaker] at said
    exact stuck _ _ (.send said)
  · rintro ⟨empty, silent⟩ deed after acts
    cases acts with
    | @send role message next allowed => exact silent role ⟨role, message, next, allowed⟩
    | @receive role message rest next arrived allowed =>
        rw [empty role] at arrived
        cases arrived

end Conversation

end Ade.Library
