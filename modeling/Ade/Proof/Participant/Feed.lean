import Ade.Participant.Feed

/-! The feed loses nothing, keeps the order of each peer, and lets no peer wait for long. -/

namespace Ade.Proof.Participant
open Library Ade.Participant

/-! ## The lanes -/

section
variable {lanes middle next : Lanes}

theorem laneAt_lt {lane : Nat} {channel : Channel AdmissionPeerEvent}
    (found : laneAt lanes lane = some channel) : lane < lanes.length := by
  by_contra beyond
  unfold laneAt at found
  rw [List.getElem?_eq_none (Nat.le_of_not_lt beyond)] at found
  cases found

theorem laneAt_set {lane : Nat} {channel : Channel AdmissionPeerEvent}
    (found : laneAt lanes lane = some channel) (after : Option (Channel AdmissionPeerEvent))
    (other : Nat) :
    laneAt (lanes.set lane after) other = if lane = other then after else laneAt lanes other := by
  unfold laneAt
  rw [List.getElem?_set]
  by_cases same : lane = other
  · subst same
    simp [laneAt_lt found]
  · simp [same]

theorem queueAt_some {lane : Nat} {channel : Channel AdmissionPeerEvent}
    (found : laneAt lanes lane = some channel) : queueAt lanes lane = channel.queue := by
  unfold queueAt
  rw [found]

theorem openAt_some {lane : Nat} {channel : Channel AdmissionPeerEvent}
    (found : laneAt lanes lane = some channel) : openAt lanes lane = channel.isOpen := by
  unfold openAt
  rw [found]

theorem queueAt_none {lane : Nat} (gone : laneAt lanes lane = none) : queueAt lanes lane = [] := by
  unfold queueAt
  rw [gone]

theorem openAt_none {lane : Nat} (gone : laneAt lanes lane = none) : openAt lanes lane = false := by
  unfold openAt
  rw [gone]

theorem queueAt_set {lane : Nat} {channel after : Channel AdmissionPeerEvent}
    (found : laneAt lanes lane = some channel) (other : Nat) :
    queueAt (lanes.set lane (some after)) other =
      if lane = other then after.queue else queueAt lanes other := by
  unfold queueAt
  rw [laneAt_set found]
  split_ifs <;> rfl

theorem openAt_set {lane : Nat} {channel after : Channel AdmissionPeerEvent}
    (found : laneAt lanes lane = some channel) (other : Nat) :
    openAt (lanes.set lane (some after)) other =
      if lane = other then after.isOpen else openAt lanes other := by
  unfold openAt
  rw [laneAt_set found]
  split_ifs <;> rfl

theorem all_gone : lanes.all Option.isNone = true ↔ ∀ lane, laneAt lanes lane = none := by
  rw [List.all_eq_true]
  constructor
  · intro gone lane
    unfold laneAt
    cases found : lanes[lane]? with
    | none => rfl
    | some channel =>
        have none_ := gone channel (List.mem_of_getElem? found)
        rw [Option.isNone_iff_eq_none.mp none_]
        rfl
  · intro gone channel member
    obtain ⟨lane, found⟩ := List.mem_iff_getElem?.mp member
    have none_ := gone lane
    unfold laneAt at none_
    rw [found] at none_
    exact Option.isNone_iff_eq_none.mpr none_

/-- Lanes that have ended may be retired, and nothing else changes. -/
structure Retires (lanes next : Lanes) : Prop where
  length : next.length = lanes.length
  queues : ∀ lane, queueAt next lane = queueAt lanes lane
  opens : ∀ lane, openAt next lane = openAt lanes lane
  gone : ∀ lane, laneAt lanes lane = none → laneAt next lane = none

theorem Retires.refl (lanes : Lanes) : Retires lanes lanes :=
  ⟨rfl, fun _ => rfl, fun _ => rfl, fun _ gone => gone⟩

theorem Retires.trans (first : Retires lanes middle) (second : Retires middle next) :
    Retires lanes next where
  length := second.length.trans first.length
  queues lane := (second.queues lane).trans (first.queues lane)
  opens lane := (second.opens lane).trans (first.opens lane)
  gone lane gone := second.gone lane (first.gone lane gone)

theorem retires_set {lane : Nat} {channel : Channel AdmissionPeerEvent}
    (found : laneAt lanes lane = some channel) (empty : channel.queue = [])
    (closed : channel.isOpen = false) : Retires lanes (lanes.set lane none) where
  length := List.length_set
  queues other := by
    unfold queueAt
    rw [laneAt_set found]
    split_ifs with same
    · rw [← same, found]
      exact empty.symm
    · rfl
  opens other := by
    unfold openAt
    rw [laneAt_set found]
    split_ifs with same
    · rw [← same, found]
      exact closed.symm
    · rfl
  gone other gone := by
    rw [laneAt_set found]
    split_ifs
    · rfl
    · exact gone

/-- The oldest event of a lane is taken, and ended lanes may be retired. -/
structure Takes (lanes : Lanes) (lane : Nat) (event : AdmissionPeerEvent) (next : Lanes) : Prop where
  length : next.length = lanes.length
  queue : queueAt lanes lane = event :: queueAt next lane
  others : ∀ other, other ≠ lane → queueAt next other = queueAt lanes other
  opens : ∀ other, openAt next other = openAt lanes other

theorem Retires.takes {lane : Nat} {event : AdmissionPeerEvent} (retires : Retires lanes middle)
    (takes : Takes middle lane event next) : Takes lanes lane event next where
  length := takes.length.trans retires.length
  queue := (retires.queues lane).symm.trans takes.queue
  others other differs := (takes.others other differs).trans (retires.queues other)
  opens other := (takes.opens other).trans (retires.opens other)

theorem takes_set {lane : Nat} {channel after : Channel AdmissionPeerEvent} {event : AdmissionPeerEvent}
    (found : laneAt lanes lane = some channel) (queue : channel.queue = event :: after.queue)
    (same : after.isOpen = channel.isOpen) : Takes lanes lane event (lanes.set lane (some after)) where
  length := List.length_set
  queue := by
    rw [queueAt_set found, if_pos rfl, queueAt_some found, queue]
  others other differs := by
    rw [queueAt_set found, if_neg differs.symm]
  opens other := by
    rw [openAt_set found]
    split_ifs with here
    · rw [← here, openAt_some found, same]
    · rfl

/-- A pass takes from the first lane in its order that has something queued. -/
theorem fairPass_took {order : List Nat} {answers lane : Nat} {event : AdmissionPeerEvent}
    (ran : fairPass order answers lanes = (some (lane, event), next)) :
    (∃ before after, order = before ++ lane :: after ∧ ∀ skipped ∈ before, queueAt lanes skipped = []) ∧
      Takes lanes lane event next := by
  induction order generalizing answers lanes with
  | nil => cases ran
  | cons first order ih =>
      cases answers with
      | zero => cases ran
      | succ answers =>
          unfold fairPass at ran
          cases found : laneAt lanes first with
          | none =>
              rw [found] at ran
              obtain ⟨⟨before, after, rfl, empty⟩, takes⟩ := ih ran
              refine ⟨⟨first :: before, after, rfl, ?_⟩, takes⟩
              simpa [queueAt_none found] using empty
          | some channel =>
              rw [found] at ran
              dsimp only at ran
              rcases channel.receive_cases with ⟨value, rest, received, queue, same⟩ |
                ⟨received, queue, isOpen⟩ | ⟨received, queue, closed⟩
              · rw [received] at ran
                cases ran
                exact ⟨⟨[], order, rfl, by simp⟩, takes_set found queue same⟩
              · rw [received] at ran
                obtain ⟨⟨before, after, rfl, empty⟩, takes⟩ := ih ran
                refine ⟨⟨first :: before, after, rfl, ?_⟩, takes⟩
                simpa [queueAt_some found, queue] using empty
              · rw [received] at ran
                have retires := retires_set found queue closed
                obtain ⟨⟨before, after, rfl, empty⟩, takes⟩ := ih ran
                refine ⟨⟨first :: before, after, rfl, ?_⟩, retires.takes takes⟩
                simpa [queueAt_some found, queue, retires.queues] using empty

/-- A pass that takes nothing only retires, and if every lane answers it retires all that have ended. -/
theorem fairPass_idle {order : List Nat} {answers : Nat}
    (ran : fairPass order answers lanes = (none, next)) :
    Retires lanes next ∧ (order.length ≤ answers → ∀ lane ∈ order, openAt lanes lane = false →
      laneAt next lane = none) := by
  induction order generalizing answers lanes with
  | nil =>
      cases ran
      exact ⟨.refl _, by simp⟩
  | cons first order ih =>
      cases answers with
      | zero =>
          cases ran
          exact ⟨.refl _, by simp⟩
      | succ answers =>
          unfold fairPass at ran
          cases found : laneAt lanes first with
          | none =>
              rw [found] at ran
              obtain ⟨retires, all⟩ := ih ran
              refine ⟨retires, ?_⟩
              intro enough lane member closed
              rcases List.mem_cons.mp member with rfl | later
              · exact retires.gone lane found
              · exact all (Nat.le_of_succ_le_succ enough) lane later closed
          | some channel =>
              rw [found] at ran
              dsimp only at ran
              rcases channel.receive_cases with ⟨value, rest, received, queue, same⟩ |
                ⟨received, queue, isOpen⟩ | ⟨received, queue, ended⟩
              · rw [received] at ran
                cases ran
              · rw [received] at ran
                obtain ⟨retires, all⟩ := ih ran
                refine ⟨retires, ?_⟩
                intro enough lane member closed
                rcases List.mem_cons.mp member with rfl | later
                · rw [openAt_some found, isOpen] at closed
                  cases closed
                · exact all (Nat.le_of_succ_le_succ enough) lane later closed
              · rw [received] at ran
                have first_ := retires_set found queue ended
                obtain ⟨retires, all⟩ := ih ran
                refine ⟨first_.trans retires, ?_⟩
                intro enough lane member closed
                rcases List.mem_cons.mp member with rfl | later
                · apply retires.gone
                  rw [laneAt_set found, if_pos rfl]
                · apply all (Nat.le_of_succ_le_succ enough) lane later
                  rw [first_.opens, closed]

end

/-! ## The round -/

theorem roundRobin_at {start count k : Nat} (within : k < count) :
    (roundRobin start count)[k]? = some ((start + k) % count) := by
  unfold roundRobin
  simp [within]

theorem exists_distance {start count lane : Nat} (started : start < count) (within : lane < count) :
    ∃ distance < count, (start + distance) % count = lane := by
  by_cases ahead : start ≤ lane
  · exact ⟨lane - start, by omega, by rw [Nat.add_sub_cancel' ahead, Nat.mod_eq_of_lt within]⟩
  · refine ⟨lane + count - start, by omega, ?_⟩
    rw [Nat.add_sub_cancel' (by omega), Nat.add_mod_right, Nat.mod_eq_of_lt within]

theorem roundRobin_mem {start count lane : Nat} (within : lane < count) :
    lane ∈ roundRobin start count := by
  obtain ⟨distance, near, here⟩ :=
    exists_distance (Nat.mod_lt start (Nat.zero_lt_of_lt within)) within
  rw [Nat.mod_add_mod] at here
  rw [← here]
  exact List.mem_of_getElem? (roundRobin_at near)

/-- A lane that a pass has not come to is so much closer to the start of the next one. -/
theorem roundRobin_closer {start count distance served lane : Nat} {before after : List Nat}
    (order : roundRobin start count = before ++ served :: after) (within : distance < count)
    (here : (start + distance) % count = lane) (missed : lane ∉ before) (differs : lane ≠ served) :
    ∃ closer < distance, ((served + 1) % count + closer) % count = lane := by
  have length : before.length < count := by
    have total := congrArg List.length order
    simp [roundRobin] at total
    omega
  have served_ : served = (start + before.length) % count := by
    have found := @roundRobin_at start count _ length
    rw [order] at found
    simpa using found
  have far : before.length < distance := by
    by_contra near
    have found := @roundRobin_at start count _ within
    rw [order, here] at found
    rcases Nat.lt_or_eq_of_le (Nat.le_of_not_lt near) with less | rfl
    · rw [List.getElem?_append_left less] at found
      exact missed (List.mem_of_getElem? found)
    · simp at found
      exact differs found.symm
  refine ⟨distance - (before.length + 1), by omega, ?_⟩
  rw [served_, Nat.mod_add_mod, Nat.add_assoc, Nat.mod_add_mod, ← here]
  congr 1
  omega

/-! ## The source -/

@[simp] theorem itemsOf_append (first second : List AdmissionPeerEvent) :
    itemsOf (first ++ second) = itemsOf first ++ itemsOf second := List.filterMap_append ..

theorem drainInto_items (cap : Nat) (isOpen : Bool) (queue : List AdmissionPeerEvent)
    (lookahead : List FeedItem) :
    (drainInto cap isOpen queue lookahead).2.1 ++ itemsOf (drainInto cap isOpen queue lookahead).1 =
      lookahead ++ itemsOf queue := by
  induction queue generalizing lookahead with
  | nil => rfl
  | cons event queue ih =>
      unfold drainInto
      split_ifs
      · cases event with
        | block peer blockBytes => exact (ih _).trans (List.append_assoc ..)
        | tipUpdate peer tip => exact ih lookahead
        | rollBackward peer point tip => exact (ih _).trans (List.append_assoc ..)
        | disconnected peer => rfl
      · rfl

theorem drainInto_within (cap : Nat) (isOpen : Bool) (queue : List AdmissionPeerEvent)
    (lookahead : List FeedItem) : (drainInto cap isOpen queue lookahead).1 <:+ queue := by
  induction queue generalizing lookahead with
  | nil => exact List.suffix_refl _
  | cons event queue ih =>
      unfold drainInto
      split_ifs
      · cases event with
        | block peer blockBytes => exact (ih _).trans (List.suffix_cons ..)
        | tipUpdate peer tip => exact (ih _).trans (List.suffix_cons ..)
        | rollBackward peer point tip => exact (ih _).trans (List.suffix_cons ..)
        | disconnected peer => exact List.suffix_cons ..
      · exact List.suffix_refl _

/-- The source only ends once the channel is closed and empty, if no session's end comes through. -/
theorem drainInto_ends {cap : Nat} {isOpen : Bool} {queue : List AdmissionPeerEvent}
    {lookahead : List FeedItem} (quiet : ∀ event ∈ queue, event.endsSession = false)
    (ends : (drainInto cap isOpen queue lookahead).2.2 = true) :
    (drainInto cap isOpen queue lookahead).1 = [] ∧ isOpen = false := by
  induction queue generalizing lookahead with
  | nil =>
      unfold drainInto at ends
      simp at ends
      exact ⟨rfl, ends.2⟩
  | cons event queue ih =>
      have later : ∀ event ∈ queue, event.endsSession = false :=
        fun event member => quiet event (List.mem_cons_of_mem _ member)
      unfold drainInto at ends ⊢
      split_ifs at ends ⊢ with room
      · cases event with
        | block peer blockBytes => exact ih later ends
        | tipUpdate peer tip => exact ih later ends
        | rollBackward peer point tip => exact ih later ends
        | disconnected peer => cases quiet _ (List.mem_cons_self ..)

/-- Events cost two and items one, so that draining is progress. -/
theorem drainInto_less (cap : Nat) (isOpen : Bool) (queue : List AdmissionPeerEvent)
    (lookahead : List FeedItem) :
    2 * (drainInto cap isOpen queue lookahead).1.length +
        (drainInto cap isOpen queue lookahead).2.1.length ≤ 2 * queue.length + lookahead.length ∧
      (lookahead.length < cap → queue ≠ [] →
        2 * (drainInto cap isOpen queue lookahead).1.length +
          (drainInto cap isOpen queue lookahead).2.1.length < 2 * queue.length + lookahead.length) := by
  induction queue generalizing lookahead with
  | nil => exact ⟨Nat.le_refl _, fun _ some_ => absurd rfl some_⟩
  | cons event queue ih =>
      unfold drainInto
      split_ifs with room
      · cases event with
        | block peer blockBytes =>
            have less := (ih (lookahead ++ [.block peer blockBytes])).1
            simp only [List.length_append, List.length_cons, List.length_nil] at less ⊢
            omega
        | tipUpdate peer tip =>
            have less := (ih lookahead).1
            simp only [List.length_cons]
            omega
        | rollBackward peer point tip =>
            have less := (ih (lookahead ++ [.rollBack peer point])).1
            simp only [List.length_append, List.length_cons, List.length_nil] at less ⊢
            omega
        | disconnected peer =>
            simp only [List.length_cons]
            omega
      · exact ⟨Nat.le_refl _, fun roomy => absurd roomy room⟩

section
variable {feed : Feed}

@[simp] theorem drain_lanes (cap : Nat) : (feed.drain cap).lanes = feed.lanes := by
  unfold Feed.drain
  split_ifs <;> rfl

@[simp] theorem drain_start (cap : Nat) : (feed.drain cap).start = feed.start := by
  unfold Feed.drain
  split_ifs <;> rfl

@[simp] theorem drain_task (cap : Nat) : (feed.drain cap).task = feed.task := by
  unfold Feed.drain
  split_ifs <;> rfl

@[simp] theorem drain_isOpen (cap : Nat) : (feed.drain cap).merged.isOpen = feed.merged.isOpen := by
  unfold Feed.drain
  split_ifs <;> rfl

theorem drain_within (cap : Nat) : (feed.drain cap).merged.queue <:+ feed.merged.queue := by
  unfold Feed.drain
  split_ifs
  · exact drainInto_within ..
  · exact List.suffix_refl _

@[simp] theorem pumpLookahead_lanes : feed.pumpLookahead.lanes = feed.lanes := drain_lanes _

@[simp] theorem pumpLookahead_start : feed.pumpLookahead.start = feed.start := drain_start _

@[simp] theorem drain_waiting (cap : Nat) : (feed.drain cap).waiting = feed.waiting := by
  unfold Feed.waiting
  rw [drain_task, itemsOf_append, itemsOf_append, ← List.append_assoc, ← List.append_assoc]
  congr 1
  unfold Feed.drain
  split_ifs
  · exact drainInto_items ..
  · rfl

end

/-! ## A step -/

/-- What a step can do. -/
inductive Stepped (feed : Feed) : FeedAction → Option FeedEffect → Feed → Prop
  | kept (lane : Nat) (event : AdmissionPeerEvent) (ends : event.endsSession = true) :
      Stepped feed (.deliver lane event) none feed
  | delivered (lane : Nat) (event : AdmissionPeerEvent) (other : event.endsSession = false)
      (channel after : Channel AdmissionPeerEvent) (found : laneAt feed.lanes lane = some channel)
      (sent : channel.send perPeerLaneCap event = some after) :
      Stepped feed (.deliver lane event) none { feed with lanes := feed.lanes.set lane (some after) }
  | closed (lane : Nat) (channel : Channel AdmissionPeerEvent)
      (found : laneAt feed.lanes lane = some channel) :
      Stepped feed (.close lane) none
        { feed with lanes := feed.lanes.set lane (some channel.close) }
  | took (answers lane : Nat) (event : AdmissionPeerEvent) (lanes : Lanes)
      (idle : feed.task = .receiving) (before after : List Nat)
      (order : roundRobin feed.start feed.lanes.length = before ++ lane :: after)
      (skipped : ∀ other ∈ before, queueAt feed.lanes other = [])
      (takes : Takes feed.lanes lane event lanes) :
      Stepped feed (.poll answers) (some (.took lane event)) { feed with
        lanes := lanes
        start := (lane + 1) % feed.lanes.length
        task := .sending event }
  | ended (answers : Nat) (lanes : Lanes) (idle : feed.task = .receiving)
      (retires : Retires feed.lanes lanes) (gone : ∀ lane, laneAt lanes lane = none) :
      Stepped feed (.poll answers) none { feed with
        lanes := lanes
        task := .ended
        merged := feed.merged.close }
  | pending (answers : Nat) (lanes : Lanes) (idle : feed.task = .receiving)
      (retires : Retires feed.lanes lanes) : Stepped feed (.poll answers) none { feed with lanes := lanes }
  | forwarded (event : AdmissionPeerEvent) (merged : Channel AdmissionPeerEvent)
      (busy : feed.task = .sending event)
      (sent : feed.merged.send liveWirePumpChannelCap event = some merged) :
      Stepped feed .forward none { feed with
        task := .receiving
        merged := merged }
  | handed (item : FeedItem) (rest : List FeedItem)
      (ahead : feed.pumpLookahead.lookahead = item :: rest) :
      Stepped feed .nextItem (some (.handed item)) { feed.pumpLookahead with lookahead := rest }
  | nothing (empty : feed.pumpLookahead.lookahead = []) :
      Stepped feed .nextItem none feed.pumpLookahead
  | looked : Stepped feed .hasWorkReady none feed.pumpLookahead
  | waited : Stepped feed .waitReady none feed.waitReady

section
variable {feed next last : Feed} {effect : Option FeedEffect}

theorem stepped_of_deliver {lane : Nat} {event : AdmissionPeerEvent}
    (delivered : feed.deliver lane event = some next) :
    Stepped feed (.deliver lane event) none next := by
  by_cases ends : event.endsSession = true
  · cases event with
    | disconnected peer =>
        cases delivered
        exact .kept lane _ ends
    | block peer blockBytes => cases ends
    | tipUpdate peer tip => cases ends
    | rollBackward peer point tip => cases ends
  · have other := Bool.eq_false_iff.mpr ends
    have sends : (do
        let channel ← laneAt feed.lanes lane
        let next ← channel.send perPeerLaneCap event
        return { feed with lanes := feed.lanes.set lane (some next) }) = some next := by
      cases event with
      | disconnected peer => cases other
      | block peer blockBytes => exact delivered
      | tipUpdate peer tip => exact delivered
      | rollBackward peer point tip => exact delivered
    obtain ⟨channel, found, sends⟩ := Option.bind_eq_some_iff.mp sends
    obtain ⟨after, sent, done⟩ := Option.bind_eq_some_iff.mp sends
    cases done
    exact .delivered lane event other channel after found sent

theorem stepped_of_poll {answers : Nat} (polled : feed.poll answers = some (next, effect)) :
    Stepped feed (.poll answers) effect next := by
  unfold Feed.poll at polled
  cases idle : feed.task with
  | sending event =>
      rw [idle] at polled
      cases polled
  | ended =>
      rw [idle] at polled
      cases polled
  | receiving =>
      rw [idle] at polled
      dsimp only at polled
      unfold fairRecv at polled
      by_cases none_ : feed.lanes.length = 0
      · rw [if_pos none_] at polled
        cases polled
        refine .ended answers feed.lanes idle (.refl _) ?_
        intro lane
        rw [List.length_eq_zero_iff.mp none_]
        rfl
      · rw [if_neg none_] at polled
        rcases pass : fairPass (roundRobin feed.start feed.lanes.length) answers feed.lanes with
          ⟨_ | ⟨lane, event⟩, lanes⟩
        · rw [pass] at polled
          have retires := (fairPass_idle pass).1
          dsimp only at polled
          by_cases gone : lanes.all Option.isNone = true
          · rw [if_pos gone] at polled
            cases polled
            exact .ended answers lanes idle retires (all_gone.mp gone)
          · rw [if_neg gone] at polled
            cases polled
            rw [← idle]
            exact .pending answers lanes idle retires
        · rw [pass] at polled
          cases polled
          obtain ⟨⟨before, after, order, skipped⟩, takes⟩ := fairPass_took pass
          exact .took answers lane event lanes idle before after order skipped takes

theorem stepped_of_step {action : FeedAction} (stepped : feed.step action = some (next, effect)) :
    Stepped feed action effect next := by
  cases action with
  | deliver lane event =>
      obtain ⟨after, delivered, done⟩ := Option.map_eq_some_iff.mp stepped
      cases done
      exact stepped_of_deliver delivered
  | close lane =>
      obtain ⟨after, closed, done⟩ := Option.map_eq_some_iff.mp stepped
      cases done
      obtain ⟨channel, found, done⟩ := Option.bind_eq_some_iff.mp closed
      cases done
      exact .closed lane channel found
  | poll answers => exact stepped_of_poll stepped
  | forward =>
      obtain ⟨after, forwarded, done⟩ := Option.map_eq_some_iff.mp stepped
      cases done
      unfold Feed.forward at forwarded
      cases busy : feed.task with
      | receiving =>
          rw [busy] at forwarded
          cases forwarded
      | ended =>
          rw [busy] at forwarded
          cases forwarded
      | sending event =>
          rw [busy] at forwarded
          obtain ⟨merged, sent, done⟩ := Option.map_eq_some_iff.mp forwarded
          cases done
          exact .forwarded event merged busy sent
  | nextItem =>
      cases stepped
      unfold Feed.nextItem
      dsimp only
      cases ahead : feed.pumpLookahead.lookahead with
      | nil => exact .nothing ahead
      | cons item rest => exact .handed item rest ahead
  | hasWorkReady =>
      cases stepped
      exact .looked
  | waitReady =>
      cases stepped
      exact .waited

/-- A run is a step and a run. -/
theorem run_cons {action : FeedAction} {actions : List FeedAction} {effects : List FeedEffect}
    (ran : feed.run (action :: actions) = some (last, effects)) :
    ∃ next effect rest, Stepped feed action effect next ∧ next.run actions = some (last, rest) ∧
      effects = effect.toList ++ rest := by
  obtain ⟨⟨next, effect⟩, stepped, ran⟩ := Option.bind_eq_some_iff.mp ran
  obtain ⟨⟨after, rest⟩, onwards, done⟩ := Option.bind_eq_some_iff.mp ran
  cases done
  exact ⟨next, effect, rest, stepped_of_step stepped, onwards, rfl⟩

/-! ## Nothing is lost -/

theorem stepped_lane {action : FeedAction} (stepped : Stepped feed action effect next) (lane : Nat) :
    takenFrom lane effect.toList ++ queueAt next.lanes lane =
      queueAt feed.lanes lane ++ sentTo lane [action] := by
  cases stepped with
  | kept other event ends => simp [takenFrom, sentTo, FeedAction.sentTo, ends]
  | delivered other event quiet channel after found sent =>
      rw [queueAt_set found]
      split_ifs with here
      · rw [(Channel.send_queue sent).1, ← here, queueAt_some found]
        simp [takenFrom, sentTo, FeedAction.sentTo, quiet]
      · simp [takenFrom, sentTo, FeedAction.sentTo, here]
  | closed other channel found =>
      rw [queueAt_set found]
      split_ifs with here
      · rw [← here, queueAt_some found]
        simp [takenFrom, sentTo, FeedAction.sentTo, Channel.close]
      · simp [takenFrom, sentTo, FeedAction.sentTo]
  | took answers other event lanes idle before after order skipped takes =>
      by_cases here : other = lane
      · subst here
        rw [takes.queue]
        simp [takenFrom, sentTo, FeedAction.sentTo, FeedEffect.takenFrom, FeedEffect.taken]
      · dsimp only
        rw [takes.others lane (Ne.symm here)]
        simp [takenFrom, sentTo, FeedAction.sentTo, FeedEffect.takenFrom, FeedEffect.taken, here]
  | ended answers lanes idle retires gone =>
      dsimp only
      rw [retires.queues]
      simp [takenFrom, sentTo, FeedAction.sentTo]
  | pending answers lanes idle retires =>
      dsimp only
      rw [retires.queues]
      simp [takenFrom, sentTo, FeedAction.sentTo]
  | forwarded event merged busy sent => simp [takenFrom, sentTo, FeedAction.sentTo]
  | handed item rest ahead =>
      dsimp only
      rw [pumpLookahead_lanes]
      exact (List.append_nil _).symm
  | nothing empty => simp [takenFrom, sentTo, FeedAction.sentTo]
  | looked => simp [takenFrom, sentTo, FeedAction.sentTo]
  | waited => simp [takenFrom, sentTo, FeedAction.sentTo, Feed.waitReady]

theorem stepped_items {action : FeedAction} (stepped : Stepped feed action effect next) :
    handed effect.toList ++ next.waiting =
      feed.waiting ++ itemsOf ((taken effect.toList).map Prod.snd) := by
  have quiet : feed.waiting ++ itemsOf ((taken []).map Prod.snd) = feed.waiting := List.append_nil _
  cases stepped with
  | kept lane event ends => exact quiet.symm
  | delivered lane event other channel after found sent => exact quiet.symm
  | closed lane channel found => exact quiet.symm
  | took answers lane event lanes idle before after order skipped takes =>
      unfold Feed.waiting
      rw [idle]
      simp [handed, taken, FeedEffect.item, FeedEffect.taken, MergeTask.held]
  | ended answers lanes idle retires gone =>
      unfold Feed.waiting
      rw [idle]
      simp [handed, taken, MergeTask.held, Channel.close, itemsOf]
  | pending answers lanes idle retires => exact quiet.symm
  | forwarded event merged busy sent =>
      unfold Feed.waiting
      rw [busy, (Channel.send_queue sent).1]
      simp [handed, taken, MergeTask.held, itemsOf]
  | handed item rest ahead =>
      have whole : feed.pumpLookahead.waiting = feed.waiting := drain_waiting _
      rw [← whole]
      unfold Feed.waiting
      rw [ahead]
      simp [handed, taken, FeedEffect.item, FeedEffect.taken, itemsOf]
  | nothing empty => exact (drain_waiting _).trans quiet.symm
  | looked => exact (drain_waiting _).trans quiet.symm
  | waited => exact (drain_waiting _).trans quiet.symm

theorem run_lane {actions : List FeedAction} {effects : List FeedEffect}
    (ran : feed.run actions = some (last, effects)) (lane : Nat) :
    takenFrom lane effects ++ queueAt last.lanes lane =
      queueAt feed.lanes lane ++ sentTo lane actions := by
  induction actions generalizing feed effects with
  | nil =>
      cases ran
      simp [takenFrom, sentTo]
  | cons action actions ih =>
      obtain ⟨next, effect, rest, stepped, onwards, rfl⟩ := run_cons ran
      have first := stepped_lane stepped lane
      have later := ih onwards
      calc takenFrom lane (effect.toList ++ rest) ++ queueAt last.lanes lane
          = takenFrom lane effect.toList ++ (takenFrom lane rest ++ queueAt last.lanes lane) := by
            simp [takenFrom]
        _ = takenFrom lane effect.toList ++ queueAt next.lanes lane ++ sentTo lane actions := by
            rw [later, List.append_assoc]
        _ = queueAt feed.lanes lane ++ sentTo lane (action :: actions) := by
            rw [first, List.append_assoc]
            unfold sentTo
            rw [← List.filterMap_append, List.singleton_append]

theorem run_items {actions : List FeedAction} {effects : List FeedEffect}
    (ran : feed.run actions = some (last, effects)) :
    handed effects ++ last.waiting = feed.waiting ++ itemsOf ((taken effects).map Prod.snd) := by
  induction actions generalizing feed effects with
  | nil =>
      cases ran
      exact (List.append_nil _).symm
  | cons action actions ih =>
      obtain ⟨next, effect, rest, stepped, onwards, rfl⟩ := run_cons ran
      have first := stepped_items stepped
      have later := ih onwards
      calc handed (effect.toList ++ rest) ++ last.waiting
          = handed effect.toList ++ (handed rest ++ last.waiting) := by simp [handed]
        _ = handed effect.toList ++ next.waiting ++ itemsOf ((taken rest).map Prod.snd) := by
            rw [later, List.append_assoc]
        _ = feed.waiting ++ itemsOf ((taken (effect.toList ++ rest)).map Prod.snd) := by
            rw [first, List.append_assoc]
            simp [taken]

/-! ## The end of the feed -/

/-- What every reachable feed keeps. -/
structure Sound (feed : Feed) : Prop where
  merged : feed.merged.isOpen = false ↔ feed.task = .ended
  retired : feed.task = .ended → ∀ lane, laneAt feed.lanes lane = none
  drained : feed.disconnected = true → feed.merged.isOpen = false ∧ feed.merged.queue = []
  lanes : ∀ lane, ∀ event ∈ queueAt feed.lanes lane, event.endsSession = false
  passed : ∀ event ∈ feed.merged.queue ++ feed.task.held, event.endsSession = false
  start : feed.lanes.length ≠ 0 → feed.start < feed.lanes.length

theorem begin_sound (peers : Nat) : Sound (Feed.begin peers) where
  merged := by simp [Feed.begin, Channel.empty]
  retired ended := by cases ended
  drained ended := by cases ended
  lanes lane event member := by
    unfold queueAt laneAt Feed.begin at member
    cases found : (List.replicate peers (some (Channel.empty : Channel AdmissionPeerEvent)))[lane]? with
    | none =>
        rw [found] at member
        cases member
    | some channel =>
        have same := List.eq_of_mem_replicate (List.mem_of_getElem? found)
        rw [found, same] at member
        cases member
  passed := by simp [Feed.begin, Channel.empty, MergeTask.held]
  start := by simp [Feed.begin, Nat.pos_iff_ne_zero]

theorem drain_sound (sound : Sound feed) (cap : Nat) : Sound (feed.drain cap) where
  merged := by
    rw [drain_isOpen, drain_task]
    exact sound.merged
  retired := by
    rw [drain_task, drain_lanes]
    exact sound.retired
  drained ended := by
    rw [drain_isOpen]
    unfold Feed.drain at ended ⊢
    split_ifs at ended ⊢
    · exact (drainInto_ends (fun event member => sound.passed event (List.mem_append_left _ member))
        ended).symm
    · exact sound.drained ended
  lanes := by
    rw [drain_lanes]
    exact sound.lanes
  passed event member := by
    rw [drain_task] at member
    rcases List.mem_append.mp member with queued | held
    · exact sound.passed event (List.mem_append_left _ ((drain_within cap).subset queued))
    · exact sound.passed event (List.mem_append_right _ held)
  start := by
    rw [drain_lanes, drain_start]
    exact sound.start

theorem stepped_sound {action : FeedAction} (sound : Sound feed)
    (stepped : Stepped feed action effect next) : Sound next := by
  cases stepped with
  | kept lane event ends => exact sound
  | delivered lane event other channel after found sent =>
      refine { sound with retired := ?_, lanes := ?_, start := ?_ }
      · intro ended
        have gone := sound.retired ended lane
        rw [found] at gone
        cases gone
      · intro asked queued member
        rw [queueAt_set found] at member
        split_ifs at member with here
        · rw [(Channel.send_queue sent).1] at member
          rcases List.mem_append.mp member with old | new
          · rw [← queueAt_some found] at old
            exact sound.lanes lane queued old
          · rw [List.mem_singleton.mp new]
            exact other
        · exact sound.lanes asked queued member
      · rw [List.length_set]
        exact sound.start
  | closed lane channel found =>
      refine { sound with retired := ?_, lanes := ?_, start := ?_ }
      · intro ended
        have gone := sound.retired ended lane
        rw [found] at gone
        cases gone
      · intro asked queued member
        rw [queueAt_set found] at member
        split_ifs at member with here
        · have old : queued ∈ queueAt feed.lanes lane := by
            rw [queueAt_some found]
            exact member
          exact sound.lanes lane queued old
        · exact sound.lanes asked queued member
      · rw [List.length_set]
        exact sound.start
  | took answers lane event lanes idle before after order skipped takes =>
      refine ⟨?_, ?_, sound.drained, ?_, ?_, ?_⟩
      · rw [sound.merged, idle]
        simp
      · intro ended
        cases ended
      · intro asked queued member
        by_cases here : asked = lane
        · subst here
          apply sound.lanes asked
          rw [takes.queue]
          exact List.mem_cons_of_mem _ member
        · rw [takes.others asked here] at member
          exact sound.lanes asked queued member
      · intro queued member
        rcases List.mem_append.mp member with old | new
        · exact sound.passed queued (List.mem_append_left _ old)
        · rw [List.mem_singleton.mp new]
          apply sound.lanes lane
          rw [takes.queue]
          exact List.mem_cons_self ..
      · intro some_
        rw [takes.length] at some_ ⊢
        exact Nat.mod_lt _ (Nat.pos_of_ne_zero some_)
  | ended answers lanes idle retires gone =>
      refine ⟨?_, fun _ => gone, ?_, ?_, ?_, ?_⟩
      · simp [Channel.close]
      · intro ended
        exact ⟨rfl, (sound.drained ended).2⟩
      · intro asked queued member
        rw [retires.queues] at member
        exact sound.lanes asked queued member
      · intro queued member
        apply sound.passed queued
        rw [idle]
        exact member
      · rw [retires.length]
        exact sound.start
  | pending answers lanes idle retires =>
      refine { sound with retired := ?_, lanes := ?_, start := ?_ }
      · intro ended
        rw [idle] at ended
        cases ended
      · intro asked queued member
        rw [retires.queues] at member
        exact sound.lanes asked queued member
      · rw [retires.length]
        exact sound.start
  | forwarded event merged busy sent =>
      obtain ⟨queue, isOpen, wasOpen, -⟩ := Channel.send_queue sent
      refine ⟨?_, ?_, ?_, sound.lanes, ?_, sound.start⟩
      · simp [isOpen]
      · intro ended
        cases ended
      · intro ended
        rw [(sound.drained ended).1] at wasOpen
        cases wasOpen
      · intro queued member
        apply sound.passed queued
        rw [busy]
        rw [queue] at member
        simpa [MergeTask.held] using member
  | handed item rest ahead =>
      have pumped : Sound feed.pumpLookahead := drain_sound sound _
      exact { pumped with }
  | nothing empty => exact drain_sound sound _
  | looked => exact drain_sound sound _
  | waited => exact drain_sound sound _

theorem run_sound {actions : List FeedAction} {effects : List FeedEffect} (sound : Sound feed)
    (ran : feed.run actions = some (last, effects)) : Sound last := by
  induction actions generalizing feed effects with
  | nil =>
      cases ran
      exact sound
  | cons action actions ih =>
      obtain ⟨next, effect, rest, stepped, onwards, rfl⟩ := run_cons ran
      exact ih (stepped_sound sound stepped) onwards

/-- A lane stays open until it is closed. -/
theorem stepped_open {action : FeedAction} (stepped : Stepped feed action effect next) {lane : Nat}
    (isOpen : openAt feed.lanes lane = true) : openAt next.lanes lane = true ∨ action = .close lane := by
  cases stepped with
  | kept other event ends => exact .inl isOpen
  | delivered other event quiet channel after found sent =>
      left
      rw [openAt_set found]
      split_ifs
      · exact (Channel.send_queue sent).2.1
      · exact isOpen
  | closed other channel found =>
      rw [openAt_set found]
      split_ifs with here
      · exact .inr (by rw [here])
      · exact .inl isOpen
  | took answers other event lanes idle before after order skipped takes =>
      left
      rw [takes.opens]
      exact isOpen
  | ended answers lanes idle retires gone =>
      left
      rw [retires.opens]
      exact isOpen
  | pending answers lanes idle retires =>
      left
      rw [retires.opens]
      exact isOpen
  | forwarded event merged busy sent => exact .inl isOpen
  | handed item rest ahead =>
      left
      dsimp only
      rw [pumpLookahead_lanes]
      exact isOpen
  | nothing empty => exact .inl (by simpa using isOpen)
  | looked => exact .inl (by simpa using isOpen)
  | waited => exact .inl (by simpa [Feed.waitReady] using isOpen)

theorem run_open {actions : List FeedAction} {effects : List FeedEffect}
    (ran : feed.run actions = some (last, effects)) {lane : Nat}
    (isOpen : openAt feed.lanes lane = true) :
    openAt last.lanes lane = true ∨ .close lane ∈ actions := by
  induction actions generalizing feed effects with
  | nil =>
      cases ran
      exact .inl isOpen
  | cons action actions ih =>
      obtain ⟨next, effect, rest, stepped, onwards, rfl⟩ := run_cons ran
      rcases stepped_open stepped isOpen with still | rfl
      · exact (ih onwards still).imp_right (List.mem_cons_of_mem _)
      · exact .inr (List.mem_cons_self ..)

theorem begin_lane {peers lane : Nat} (within : lane < peers) :
    laneAt (Feed.begin peers).lanes lane = some .empty := by
  unfold laneAt Feed.begin
  simp [within]

theorem begin_queue (peers lane : Nat) : queueAt (Feed.begin peers).lanes lane = [] := by
  by_cases within : lane < peers
  · exact queueAt_some (begin_lane within)
  · apply queueAt_none
    unfold laneAt Feed.begin
    simp [within]

/-- What has ended holds nothing back. -/
theorem ended_empty (sound : Sound feed) (ends : feed.isEnded = true) :
    feed.waiting = [] ∧ ∀ lane, laneAt feed.lanes lane = none := by
  unfold Feed.isEnded at ends
  obtain ⟨disconnected, empty⟩ := Bool.and_eq_true_iff.mp ends
  obtain ⟨closed, drained⟩ := sound.drained disconnected
  have finished := sound.merged.mp closed
  refine ⟨?_, sound.retired finished⟩
  unfold Feed.waiting
  rw [List.isEmpty_iff.mp empty, drained, finished]
  rfl

theorem run_lossless {peers : Nat} {actions : List FeedAction} {effects : List FeedEffect}
    (ran : (Feed.begin peers).run actions = some (feed, effects)) :
    (∀ lane, takenFrom lane effects ++ queueAt feed.lanes lane = sentTo lane actions) ∧
      handed effects ++ feed.waiting = itemsOf ((taken effects).map Prod.snd) := by
  constructor
  · intro lane
    rw [run_lane ran lane, begin_queue]
    rfl
  · exact run_items ran

theorem run_ended {peers : Nat} {actions : List FeedAction} {effects : List FeedEffect}
    (ran : (Feed.begin peers).run actions = some (feed, effects)) (ends : feed.isEnded = true) :
    handed effects = itemsOf ((taken effects).map Prod.snd) ∧
      ∀ lane, takenFrom lane effects = sentTo lane actions := by
  obtain ⟨lanes, items⟩ := run_lossless ran
  obtain ⟨empty, gone⟩ := ended_empty (run_sound (begin_sound peers) ran) ends
  constructor
  · rw [empty, List.append_nil] at items
    exact items
  · intro lane
    have whole := lanes lane
    rw [queueAt_none (gone lane), List.append_nil] at whole
    exact whole

/-- In every run, what the merge took of a lane and what is still queued there are what its peer
sent, and what the loop was handed and what is on its way to it are the items of what was taken. The
feed only ends once every peer has, and then all of it has been handed over. -/
theorem feed_lossless {peers : Nat} {actions : List FeedAction} {feed : Feed}
    {effects : List FeedEffect} (ran : (Feed.begin peers).run actions = some (feed, effects)) :
    (∀ lane, takenFrom lane effects ++ queueAt feed.lanes lane = sentTo lane actions) ∧
      handed effects ++ feed.waiting = itemsOf ((taken effects).map Prod.snd) ∧
      (feed.isEnded = true → handed effects = itemsOf ((taken effects).map Prod.snd) ∧
        (∀ lane, takenFrom lane effects = sentTo lane actions) ∧
        ∀ lane < peers, .close lane ∈ actions) := by
  obtain ⟨lanes, items⟩ := run_lossless ran
  refine ⟨lanes, items, ?_⟩
  intro ends
  obtain ⟨all, each⟩ := run_ended ran ends
  refine ⟨all, each, ?_⟩
  intro lane within
  rcases run_open ran (openAt_some (begin_lane within)) with still | closed
  · rw [openAt_none ((ended_empty (run_sound (begin_sound peers) ran) ends).2 lane)] at still
    cases still
  · exact closed

/-- One peer sends a block and ends. -/
def sampleActions : List FeedAction :=
  [.deliver 0 (.block "peer" [7]), .poll 1, .forward, .close 0, .poll 1, .nextItem, .waitReady]

def sampleEffects : List FeedEffect := [.took 0 (.block "peer" [7]), .handed (.block "peer" [7])]

def sampleEnd : Feed where
  lanes := [none]
  start := 0
  task := .ended
  merged := ⟨[], false⟩
  lookahead := []
  disconnected := true

theorem feed_lossless_of_one :
    (Feed.begin 1).run sampleActions = some (sampleEnd, sampleEffects) ∧
      handed sampleEffects = itemsOf ((taken sampleEffects).map Prod.snd) ∧
      takenFrom 0 sampleEffects = sentTo 0 sampleActions := by
  have ran : (Feed.begin 1).run sampleActions = some (sampleEnd, sampleEffects) := rfl
  obtain ⟨all, each, -⟩ := (feed_lossless ran).2.2 rfl
  exact ⟨ran, all, each 0⟩

/-! ## Back-pressure -/

/-- No queue of the feed outgrows its bound. -/
structure Bounded (feed : Feed) : Prop where
  lanes : ∀ lane, (queueAt feed.lanes lane).length ≤ perPeerLaneCap
  merged : feed.merged.queue.length ≤ liveWirePumpChannelCap
  lookahead : feed.lookahead.length ≤ maxWirePumpLookahead

theorem drainInto_bounded {cap : Nat} {isOpen : Bool} {queue : List AdmissionPeerEvent}
    {lookahead : List FeedItem} (bounded : lookahead.length ≤ cap) :
    (drainInto cap isOpen queue lookahead).2.1.length ≤ cap := by
  induction queue generalizing lookahead with
  | nil => exact bounded
  | cons event queue ih =>
      unfold drainInto
      split_ifs with room
      · cases event with
        | block peer blockBytes =>
            apply ih
            simpa using room
        | tipUpdate peer tip => exact ih bounded
        | rollBackward peer point tip =>
            apply ih
            simpa using room
        | disconnected peer => exact bounded
      · exact bounded

theorem drain_bounded (bounded : Bounded feed) {cap : Nat} (small : cap ≤ maxWirePumpLookahead) :
    Bounded (feed.drain cap) where
  lanes := by
    rw [drain_lanes]
    exact bounded.lanes
  merged := (drain_within cap).length_le.trans bounded.merged
  lookahead := by
    unfold Feed.drain
    split_ifs with idle
    · apply (drainInto_bounded ?_).trans small
      rw [List.isEmpty_iff.mp (Bool.and_eq_true_iff.mp idle).1]
      exact Nat.zero_le _
    · exact bounded.lookahead

theorem stepped_bounded {action : FeedAction} (bounded : Bounded feed)
    (stepped : Stepped feed action effect next) : Bounded next := by
  have waits : 1 ≤ maxWirePumpLookahead := by decide
  cases stepped with
  | kept lane event ends => exact bounded
  | delivered lane event other channel after found sent =>
      refine { bounded with lanes := ?_ }
      intro asked
      rw [queueAt_set found]
      split_ifs
      · exact (Channel.send_queue sent).2.2.2
      · exact bounded.lanes asked
  | closed lane channel found =>
      refine { bounded with lanes := ?_ }
      intro asked
      rw [queueAt_set found]
      split_ifs
      · have old := bounded.lanes lane
        rw [queueAt_some found] at old
        exact old
      · exact bounded.lanes asked
  | took answers lane event lanes idle before after order skipped takes =>
      refine { bounded with lanes := ?_ }
      intro asked
      by_cases here : asked = lane
      · have old := bounded.lanes lane
        rw [takes.queue] at old
        rw [here]
        exact (Nat.le_succ _).trans old
      · rw [takes.others asked here]
        exact bounded.lanes asked
  | ended answers lanes idle retires gone =>
      refine { bounded with lanes := ?_ }
      intro asked
      rw [retires.queues]
      exact bounded.lanes asked
  | pending answers lanes idle retires =>
      refine { bounded with lanes := ?_ }
      intro asked
      rw [retires.queues]
      exact bounded.lanes asked
  | forwarded event merged busy sent =>
      exact { bounded with merged := (Channel.send_queue sent).2.2.2 }
  | handed item rest ahead =>
      have pumped : Bounded feed.pumpLookahead := drain_bounded bounded (Nat.le_refl _)
      refine { pumped with lookahead := ?_ }
      have whole := pumped.lookahead
      rw [ahead] at whole
      exact (Nat.le_succ _).trans whole
  | nothing empty => exact drain_bounded bounded (Nat.le_refl _)
  | looked => exact drain_bounded bounded (Nat.le_refl _)
  | waited => exact drain_bounded bounded waits

theorem run_bounded {actions : List FeedAction} {effects : List FeedEffect} (bounded : Bounded feed)
    (ran : feed.run actions = some (last, effects)) : Bounded last := by
  induction actions generalizing feed effects with
  | nil =>
      cases ran
      exact bounded
  | cons action actions ih =>
      obtain ⟨next, effect, rest, stepped, onwards, rfl⟩ := run_cons ran
      exact ih (stepped_bounded bounded stepped) onwards

theorem begin_bounded (peers : Nat) : Bounded (Feed.begin peers) where
  lanes lane := by
    rw [begin_queue]
    exact Nat.zero_le _
  merged := Nat.zero_le _
  lookahead := Nat.zero_le _

theorem held_length (task : MergeTask) : task.held.length ≤ 1 := by
  cases task with
  | receiving => exact Nat.zero_le _
  | sending event => exact Nat.le_refl _
  | ended => exact Nat.zero_le _

theorem stepped_length {action : FeedAction} (stepped : Stepped feed action effect next) :
    next.lanes.length = feed.lanes.length := by
  cases stepped with
  | kept lane event ends => rfl
  | delivered lane event other channel after found sent => exact List.length_set
  | closed lane channel found => exact List.length_set
  | took answers lane event lanes idle before after order skipped takes => exact takes.length
  | ended answers lanes idle retires gone => exact retires.length
  | pending answers lanes idle retires => exact retires.length
  | forwarded event merged busy sent => rfl
  | handed item rest ahead => exact congrArg List.length (drain_lanes _)
  | nothing empty => exact congrArg List.length (drain_lanes _)
  | looked => exact congrArg List.length (drain_lanes _)
  | waited => exact congrArg List.length (drain_lanes _)

theorem run_length {actions : List FeedAction} {effects : List FeedEffect}
    (ran : feed.run actions = some (last, effects)) : last.lanes.length = feed.lanes.length := by
  induction actions generalizing feed effects with
  | nil =>
      cases ran
      rfl
  | cons action actions ih =>
      obtain ⟨next, effect, rest, stepped, onwards, rfl⟩ := run_cons ran
      exact (ih onwards).trans (stepped_length stepped)

/-- Every event that is taken from another lane brings a waiting lane closer to its turn. -/
theorem stepped_closer {action : FeedAction} (stepped : Stepped feed action effect next) {lane : Nat}
    (waits : queueAt feed.lanes lane ≠ []) (passed : takenFrom lane effect.toList = [])
    {distance : Nat} (within : distance < feed.lanes.length)
    (here : (feed.start + distance) % feed.lanes.length = lane) :
    ∃ closer, closer + (taken effect.toList).length ≤ distance ∧
      (next.start + closer) % feed.lanes.length = lane := by
  cases stepped with
  | kept other event ends => exact ⟨distance, Nat.le_refl _, here⟩
  | delivered other event quiet channel after found sent => exact ⟨distance, Nat.le_refl _, here⟩
  | closed other channel found => exact ⟨distance, Nat.le_refl _, here⟩
  | took answers served event lanes idle before after order skipped takes =>
      have differs : lane ≠ served := by
        rintro rfl
        simp [takenFrom, FeedEffect.takenFrom, FeedEffect.taken] at passed
      have missed : lane ∉ before := fun member => waits (skipped lane member)
      obtain ⟨closer, less, now⟩ := roundRobin_closer order within here missed differs
      exact ⟨closer, less, now⟩
  | ended answers lanes idle retires gone => exact ⟨distance, Nat.le_refl _, here⟩
  | pending answers lanes idle retires => exact ⟨distance, Nat.le_refl _, here⟩
  | forwarded event merged busy sent => exact ⟨distance, Nat.le_refl _, here⟩
  | handed item rest ahead =>
      exact ⟨distance, Nat.le_refl _, by simpa using here⟩
  | nothing empty =>
      exact ⟨distance, Nat.le_refl _, by simpa using here⟩
  | looked =>
      exact ⟨distance, Nat.le_refl _, by simpa using here⟩
  | waited =>
      have same : feed.waitReady.start = feed.start := drain_start _
      exact ⟨distance, Nat.le_refl _, by rw [same, here]⟩

theorem run_closer {actions : List FeedAction} {effects : List FeedEffect}
    (ran : feed.run actions = some (last, effects)) {lane : Nat}
    (waits : queueAt feed.lanes lane ≠ []) (passed : takenFrom lane effects = [])
    {distance : Nat} (within : distance < feed.lanes.length)
    (here : (feed.start + distance) % feed.lanes.length = lane) :
    (taken effects).length ≤ distance := by
  induction actions generalizing feed effects distance with
  | nil =>
      cases ran
      exact Nat.zero_le _
  | cons action actions ih =>
      obtain ⟨next, effect, rest, stepped, onwards, rfl⟩ := run_cons ran
      have both : takenFrom lane effect.toList ++ takenFrom lane rest = [] := by
        unfold takenFrom at passed ⊢
        rw [← List.filterMap_append]
        exact passed
      obtain ⟨first, later⟩ := List.append_eq_nil_iff.mp both
      obtain ⟨closer, bound, now⟩ := stepped_closer stepped waits first within here
      have still : queueAt next.lanes lane ≠ [] := by
        have moved := stepped_lane stepped lane
        rw [first, List.nil_append] at moved
        rw [moved]
        exact fun none_ => waits (List.append_eq_nil_iff.mp none_).1
      rw [← stepped_length stepped] at now
      have rest_ := ih onwards still later (by rw [stepped_length stepped]; omega) now
      unfold taken at rest_ bound ⊢
      rw [List.filterMap_append, List.length_append]
      omega

/-- Once a peer has something queued, fewer events than there are peers are taken before one of its
own, whatever the others send meanwhile. -/
theorem feed_fair {peers : Nat} {earlier actions : List FeedAction} {feed last : Feed}
    {before effects : List FeedEffect} (reached : (Feed.begin peers).run earlier = some (feed, before))
    (ran : feed.run actions = some (last, effects)) {lane : Nat}
    (waits : queueAt feed.lanes lane ≠ []) (passed : takenFrom lane effects = []) :
    (taken effects).length < peers := by
  have count : feed.lanes.length = peers := by
    rw [run_length reached]
    exact List.length_replicate
  obtain ⟨channel, found⟩ : ∃ channel, laneAt feed.lanes lane = some channel := by
    cases found : laneAt feed.lanes lane with
    | none => exact absurd (queueAt_none found) waits
    | some channel => exact ⟨channel, rfl⟩
  have known := laneAt_lt found
  have started := (run_sound (begin_sound peers) reached).start (Nat.ne_of_gt (Nat.zero_lt_of_lt known))
  obtain ⟨distance, within, here⟩ := exists_distance started known
  have bound := run_closer ran waits passed within here
  omega

/-- Two peers with a block each. -/
def sampleWaiting : Feed where
  lanes := [some ⟨[.block "first" [7]], true⟩, some ⟨[.block "second" [8]], true⟩]
  start := 0
  task := .receiving
  merged := .empty
  lookahead := []
  disconnected := false

/-- The block of the first peer is taken. -/
def sampleServed : Feed where
  lanes := [some .empty, some ⟨[.block "second" [8]], true⟩]
  start := 1
  task := .sending (.block "first" [7])
  merged := .empty
  lookahead := []
  disconnected := false

theorem feed_fair_of_two : (taken [.took 0 (.block "first" [7])]).length < 2 := by
  have reached : (Feed.begin 2).run [.deliver 0 (.block "first" [7]),
      .deliver 1 (.block "second" [8])] = some (sampleWaiting, []) := rfl
  have ran : sampleWaiting.run [.poll 2] = some (sampleServed, [.took 0 (.block "first" [7])]) := rfl
  have waits : queueAt sampleWaiting.lanes 1 ≠ [] := List.cons_ne_nil _ _
  exact feed_fair reached ran waits rfl

/-! ## The feed runs dry -/

/-- How much is queued in the lanes. -/
def queued (lanes : Lanes) : Nat := ∑ lane ∈ Finset.range lanes.length, (queueAt lanes lane).length

theorem retires_queued {lanes after : Lanes} (retires : Retires lanes after) :
    queued after = queued lanes := by
  unfold queued
  rw [retires.length]
  exact Finset.sum_congr rfl fun lane _ => by rw [retires.queues]

theorem takes_queued {lanes after : Lanes} {lane : Nat} {event : AdmissionPeerEvent}
    (takes : Takes lanes lane event after) : queued after < queued lanes := by
  unfold queued
  rw [takes.length]
  have known : lane < lanes.length := by
    cases found : laneAt lanes lane with
    | none =>
        have empty := takes.queue
        rw [queueAt_none found] at empty
        cases empty
    | some channel => exact laneAt_lt found
  apply Finset.sum_lt_sum
  · intro other _
    by_cases here : other = lane
    · rw [here, takes.queue]
      exact Nat.le_succ _
    · rw [takes.others other here]
  · exact ⟨lane, Finset.mem_range.mpr known, by rw [takes.queue]; exact Nat.lt_succ_self _⟩

/-- What is still to be done, with every event weighed by the steps it has ahead. -/
def load (feed : Feed) : Nat :=
  4 * queued feed.lanes + 3 * feed.task.held.length + 2 * feed.merged.queue.length +
    feed.lookahead.length + (match feed.task with
      | .ended => 0
      | .receiving => 1
      | .sending _ => 1) + (if feed.disconnected then 0 else 1)

/-- With every lane closed, a merge that is polled once more takes an event or ends. -/
theorem poll_closed (idle : feed.task = .receiving) (closed : ∀ lane, openAt feed.lanes lane = false) :
    ∃ lanes, (∃ lane event start, feed.poll feed.lanes.length = some ({ feed with
        lanes := lanes
        start := start
        task := .sending event }, some (.took lane event)) ∧ Takes feed.lanes lane event lanes) ∨
      (feed.poll feed.lanes.length = some ({ feed with
        lanes := lanes
        task := .ended
        merged := feed.merged.close }, none) ∧ Retires feed.lanes lanes) := by
  unfold Feed.poll
  rw [idle]
  dsimp only
  unfold fairRecv
  by_cases none_ : feed.lanes.length = 0
  · rw [if_pos none_]
    exact ⟨feed.lanes, .inr ⟨rfl, .refl _⟩⟩
  · rw [if_neg none_]
    rcases pass : fairPass (roundRobin feed.start feed.lanes.length) feed.lanes.length feed.lanes with
      ⟨_ | ⟨lane, event⟩, lanes⟩
    · obtain ⟨retires, all⟩ := fairPass_idle pass
      have enough : (roundRobin feed.start feed.lanes.length).length ≤ feed.lanes.length := by
        simp [roundRobin]
      have gone : lanes.all Option.isNone = true := by
        apply all_gone.mpr
        intro lane
        cases found : laneAt feed.lanes lane with
        | none => exact retires.gone lane found
        | some channel => exact all enough lane (roundRobin_mem (laneAt_lt found)) (closed lane)
      dsimp only
      rw [if_pos gone]
      exact ⟨lanes, .inr ⟨rfl, retires⟩⟩
    · exact ⟨lanes, .inl ⟨lane, event, _, rfl, (fairPass_took pass).2⟩⟩

theorem drain_ahead {item : FeedItem} {rest : List FeedItem} (ahead : feed.lookahead = item :: rest)
    (cap : Nat) : feed.drain cap = feed := by
  unfold Feed.drain
  rw [ahead]
  rfl

/-- With every lane closed and something left, the merge or the loop can do a step that brings the end
closer. -/
theorem exists_step (sound : Sound feed) (closed : ∀ lane, openAt feed.lanes lane = false)
    (unfinished : feed.isEnded = false) : ∃ action next effect,
      feed.step action = some (next, effect) ∧ load next < load feed ∧
      (∀ lane, openAt next.lanes lane = false) ∧ ∀ lane, sentTo lane [action] = [] := by
  cases ahead : feed.lookahead with
  | cons item rest =>
      have pumped : feed.pumpLookahead = feed := drain_ahead ahead _
      refine ⟨.nextItem, { feed with lookahead := rest }, some (.handed item), ?_, ?_, closed,
        fun _ => rfl⟩
      · unfold Feed.step Feed.nextItem
        rw [pumped]
        dsimp only
        rw [ahead]
        rfl
      · unfold load
        rw [ahead]
        simp
  | nil =>
      have joined : feed.disconnected = false := by
        unfold Feed.isEnded at unfinished
        rw [ahead] at unfinished
        simpa using unfinished
      have drains : feed.waitReady = { feed with
          merged := { feed.merged with
            queue := (drainInto 1 feed.merged.isOpen feed.merged.queue []).1 }
          lookahead := (drainInto 1 feed.merged.isOpen feed.merged.queue []).2.1
          disconnected := (drainInto 1 feed.merged.isOpen feed.merged.queue []).2.2 } := by
        unfold Feed.waitReady Feed.drain
        rw [ahead, joined]
        rfl
      have closed_ : ∀ lane, openAt feed.waitReady.lanes lane = false := by
        unfold Feed.waitReady
        rw [drain_lanes]
        exact closed
      cases queue : feed.merged.queue with
      | cons event events =>
          refine ⟨.waitReady, feed.waitReady, none, rfl, ?_, closed_, fun _ => rfl⟩
          have less := (drainInto_less 1 feed.merged.isOpen feed.merged.queue []).2 Nat.one_pos
            (by simp [queue])
          rw [drains]
          unfold load
          rw [ahead, joined]
          simp only [List.length_nil, Bool.false_eq_true, if_false] at less ⊢
          split_ifs <;> omega
      | nil =>
          cases task : feed.task with
          | ended =>
              have shut := sound.merged.mpr task
              refine ⟨.waitReady, feed.waitReady, none, rfl, ?_, closed_, fun _ => rfl⟩
              rw [drains, queue, shut]
              unfold load
              rw [ahead, joined, queue]
              simp [drainInto]
          | sending event =>
              have isOpen : feed.merged.isOpen = true := by
                cases still : feed.merged.isOpen with
                | true => rfl
                | false =>
                    rw [sound.merged.mp still] at task
                    cases task
              have room : feed.merged.queue.length < liveWirePumpChannelCap := by
                rw [queue]
                decide
              have sent := Channel.send_of_room isOpen room event
              refine ⟨.forward, { feed with
                task := .receiving
                merged := { feed.merged with queue := feed.merged.queue ++ [event] } }, none, ?_, ?_,
                closed, fun _ => rfl⟩
              · unfold Feed.step Feed.forward
                rw [task]
                dsimp only
                rw [sent]
                rfl
              · unfold load
                rw [task]
                simp only [MergeTask.held, List.length_append, List.length_cons, List.length_nil]
                omega
          | receiving =>
              obtain ⟨lanes, ⟨lane, event, start, polled, takes⟩ | ⟨polled, retires⟩⟩ :=
                poll_closed task closed
              · refine ⟨.poll feed.lanes.length, _, _, polled, ?_, ?_, fun _ => rfl⟩
                · have less := takes_queued takes
                  unfold load
                  rw [task]
                  simp only [MergeTask.held, List.length_cons, List.length_nil]
                  omega
                · intro other
                  rw [takes.opens, closed]
              · refine ⟨.poll feed.lanes.length, _, _, polled, ?_, ?_, fun _ => rfl⟩
                · unfold load
                  rw [task, retires_queued retires]
                  simp [MergeTask.held, Channel.close]
                · intro other
                  rw [retires.opens, closed]

theorem run_append {actions more : List FeedAction} {effects further : List FeedEffect} {middle : Feed}
    (ran : feed.run actions = some (middle, effects)) (onwards : middle.run more = some (last, further)) :
    feed.run (actions ++ more) = some (last, effects ++ further) := by
  induction actions generalizing feed effects with
  | nil =>
      cases ran
      exact onwards
  | cons action actions ih =>
      obtain ⟨⟨next, effect⟩, stepped, ran⟩ := Option.bind_eq_some_iff.mp ran
      obtain ⟨⟨after, rest⟩, reached, done⟩ := Option.bind_eq_some_iff.mp ran
      cases done
      refine Option.bind_eq_some_iff.mpr ⟨(next, effect), stepped, ?_⟩
      refine Option.bind_eq_some_iff.mpr ⟨(last, rest ++ further), ih reached, ?_⟩
      simp

/-- Once every lane is closed, steps of the merge and of the loop lead to the end. -/
theorem run_dry (bound : Nat) (sound : Sound feed) (closed : ∀ lane, openAt feed.lanes lane = false)
    (within : load feed ≤ bound) : ∃ more last further, feed.run more = some (last, further) ∧
      last.isEnded = true ∧ ∀ lane, sentTo lane more = [] := by
  induction bound generalizing feed with
  | zero =>
      cases finished : feed.isEnded with
      | true => exact ⟨[], feed, [], rfl, finished, fun _ => rfl⟩
      | false =>
          obtain ⟨action, next, effect, -, less, -⟩ := exists_step sound closed finished
          omega
  | succ bound ih =>
      cases finished : feed.isEnded with
      | true => exact ⟨[], feed, [], rfl, finished, fun _ => rfl⟩
      | false =>
          obtain ⟨action, next, effect, stepped, less, still, silent⟩ := exists_step sound closed finished
          obtain ⟨more, last, further, ran, ends, none_⟩ :=
            ih (stepped_sound sound (stepped_of_step stepped)) still (by omega)
          refine ⟨action :: more, last, effect.toList ++ further, ?_, ends, ?_⟩
          · refine Option.bind_eq_some_iff.mpr ⟨(next, effect), stepped, ?_⟩
            exact Option.bind_eq_some_iff.mpr ⟨(last, further), ran, rfl⟩
          · intro lane
            have both : sentTo lane (action :: more) = sentTo lane [action] ++ sentTo lane more := by
              unfold sentTo
              rw [← List.filterMap_append, List.singleton_append]
            rw [both, silent lane, none_ lane]
            rfl

/-- From every state of a feed whose lanes are all closed, the merge and the loop can go on to the
end, and then everything that was ever sent has been taken in its order and handed over. -/
theorem feed_drains {peers : Nat} {actions : List FeedAction} {feed : Feed}
    {effects : List FeedEffect} (ran : (Feed.begin peers).run actions = some (feed, effects))
    (closed : ∀ lane, openAt feed.lanes lane = false) :
    ∃ more last further, feed.run more = some (last, further) ∧ last.isEnded = true ∧
      (∀ lane, takenFrom lane (effects ++ further) = sentTo lane actions) ∧
      handed (effects ++ further) = itemsOf ((taken (effects ++ further)).map Prod.snd) := by
  obtain ⟨more, last, further, onwards, ends, silent⟩ :=
    run_dry (load feed) (run_sound (begin_sound peers) ran) closed (Nat.le_refl _)
  obtain ⟨all, each⟩ := run_ended (run_append ran onwards) ends
  refine ⟨more, last, further, onwards, ends, ?_, all⟩
  intro lane
  have none_ := silent lane
  rw [each lane]
  unfold sentTo at none_ ⊢
  rw [List.filterMap_append, none_, List.append_nil]

/-- A peer has ended with a block still queued. -/
def sampleLeft : Feed where
  lanes := [some ⟨[.block "peer" [7]], false⟩]
  start := 0
  task := .receiving
  merged := .empty
  lookahead := []
  disconnected := false

theorem feed_drains_of_one : ∃ more last further,
    sampleLeft.run more = some (last, further) ∧ last.isEnded = true ∧
      takenFrom 0 further = [.block "peer" [7]] := by
  have ran : (Feed.begin 1).run [.deliver 0 (.block "peer" [7]), .close 0] =
      some (sampleLeft, []) := rfl
  have closed : ∀ lane, openAt sampleLeft.lanes lane = false := by
    intro lane
    cases lane <;> rfl
  obtain ⟨more, last, further, onwards, ends, each, -⟩ := feed_drains ran closed
  exact ⟨more, last, further, onwards, ends, each 0⟩

end

end Ade.Proof.Participant
