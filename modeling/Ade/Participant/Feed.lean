import Ade.Library.Channel
import Ade.Network.Messages

/-! The feed of a participant: a lane for each peer, their fair merge, and the source of items. -/

namespace Ade.Participant
open Library

inductive AdmissionPeerEvent where
  | block (peer : String) (blockBytes : Bytes)
  | tipUpdate (peer : String) (tip : Network.Tip)
  | rollBackward (peer : String) (point : Network.Point) (tip : Network.Tip)
  | disconnected (peer : String)

/-- An item as the source hands it out, before the accumulator answers to it. -/
inductive FeedItem where
  | block (peer : String) (blockBytes : Bytes)
  | rollBack (peer : String) (point : Network.Point)

def perPeerLaneCap : Nat := 64

def liveWirePumpChannelCap : Nat := 64

def maxWirePumpLookahead : Nat := 256

/-! ## The merge -/

/-- A lane that has ended is retired in its place. -/
abbrev Lanes := List (Option (Channel AdmissionPeerEvent))

def laneAt (lanes : Lanes) (lane : Nat) : Option (Channel AdmissionPeerEvent) := lanes[lane]?.join

/-- A pass over the lanes in the given order. The runtime may let every lane pend from some round on. -/
def fairPass : (order : List Nat) → (answers : Nat) → Lanes →
    Option (Nat × AdmissionPeerEvent) × Lanes
  | [], _, lanes => (none, lanes)
  | _ :: _, 0, lanes => (none, lanes)
  | lane :: order, answers + 1, lanes =>
      match laneAt lanes lane with
      | none => fairPass order answers lanes
      | some channel =>
          match channel.receive with
          | (.value event, rest) => (some (lane, event), lanes.set lane (some rest))
          | (.closed, _) => fairPass order answers (lanes.set lane none)
          | (.empty, _) => fairPass order answers lanes

def roundRobin (start count : Nat) : List Nat :=
  (List.range count).map fun k => (start + k) % count

inductive FairPoll where
  | event (lane : Nat) (event : AdmissionPeerEvent)
  | ended
  | pending

/-- The next pass favours the lane after the one that was served. -/
def fairRecv (lanes : Lanes) (start answers : Nat) : FairPoll × Lanes × Nat :=
  if lanes.length = 0 then (.ended, lanes, start)
  else
    match fairPass (roundRobin start lanes.length) answers lanes with
    | (some (lane, event), next) => (.event lane event, next, (lane + 1) % lanes.length)
    | (none, next) =>
        if next.all Option.isNone then (.ended, next, start) else (.pending, next, start)

/-- Where the task of the merge is. -/
inductive MergeTask where
  | receiving
  | sending (event : AdmissionPeerEvent)
  | ended

/-! ## The source -/

structure Feed where
  lanes : Lanes
  start : Nat
  task : MergeTask
  merged : Channel AdmissionPeerEvent
  lookahead : List FeedItem
  disconnected : Bool

/-- What the merged channel holds, up to so many items of lookahead. -/
def drainInto (cap : Nat) (isOpen : Bool) : (queue : List AdmissionPeerEvent) →
    (lookahead : List FeedItem) → List AdmissionPeerEvent × List FeedItem × Bool
  | [], lookahead => ([], lookahead, decide (lookahead.length < cap) && !isOpen)
  | event :: queue, lookahead =>
      if lookahead.length < cap then
        match event with
        | .block peer blockBytes => drainInto cap isOpen queue (lookahead ++ [.block peer blockBytes])
        | .tipUpdate _ _ => drainInto cap isOpen queue lookahead
        | .rollBackward peer point _ => drainInto cap isOpen queue (lookahead ++ [.rollBack peer point])
        | .disconnected _ => (queue, lookahead, true)
      else (event :: queue, lookahead, false)

/-- Nothing is drained before the lookahead is used up. -/
def Feed.drain (feed : Feed) (cap : Nat) : Feed :=
  if feed.lookahead.isEmpty && !feed.disconnected then
    let drained := drainInto cap feed.merged.isOpen feed.merged.queue feed.lookahead
    { feed with
      merged := { feed.merged with queue := drained.1 }
      lookahead := drained.2.1
      disconnected := drained.2.2 }
  else feed

def Feed.pumpLookahead (feed : Feed) : Feed := feed.drain maxWirePumpLookahead

/-- Waiting ends with the first item. -/
def Feed.waitReady (feed : Feed) : Feed := feed.drain 1

def Feed.nextItem (feed : Feed) : Option FeedItem × Feed :=
  let pumped := feed.pumpLookahead
  match pumped.lookahead with
  | [] => (none, pumped)
  | item :: rest => (some item, { pumped with lookahead := rest })

def Feed.hasWorkReady (feed : Feed) : Bool × Feed :=
  let pumped := feed.pumpLookahead
  (!pumped.lookahead.isEmpty, pumped)

def Feed.isEnded (feed : Feed) : Bool := feed.disconnected && feed.lookahead.isEmpty

/-! ## Runs of a feed -/

/-- A lane for each peer, and nothing sent yet. -/
def Feed.begin (peers : Nat) : Feed where
  lanes := List.replicate peers (some .empty)
  start := 0
  task := .receiving
  merged := .empty
  lookahead := []
  disconnected := false

inductive FeedAction where
  | deliver (lane : Nat) (event : AdmissionPeerEvent)
  | close (lane : Nat)
  | poll (answers : Nat)
  | forward
  | nextItem
  | hasWorkReady
  | waitReady

inductive FeedEffect where
  | took (lane : Nat) (event : AdmissionPeerEvent)
  | handed (item : FeedItem)

/-- The supervisor of a lane keeps the end of a session to itself, as it dials again. -/
def Feed.deliver (feed : Feed) (lane : Nat) : AdmissionPeerEvent → Option Feed
  | .disconnected _ => some feed
  | event => do
      let channel ← laneAt feed.lanes lane
      let next ← channel.send perPeerLaneCap event
      return { feed with lanes := feed.lanes.set lane (some next) }

def Feed.close (feed : Feed) (lane : Nat) : Option Feed := do
  let channel ← laneAt feed.lanes lane
  return { feed with lanes := feed.lanes.set lane (some channel.close) }

/-- The merged channel ends with the merge. -/
def Feed.poll (feed : Feed) (answers : Nat) : Option (Feed × Option FeedEffect) :=
  match feed.task with
  | .receiving =>
      match fairRecv feed.lanes feed.start answers with
      | (.event lane event, lanes, start) =>
          some ({ feed with lanes := lanes, start := start, task := .sending event },
            some (.took lane event))
      | (.ended, lanes, start) =>
          some ({ feed with
            lanes := lanes
            start := start
            task := .ended
            merged := feed.merged.close }, none)
      | (.pending, lanes, start) => some ({ feed with lanes := lanes, start := start }, none)
  | .sending _ => none
  | .ended => none

def Feed.forward (feed : Feed) : Option Feed :=
  match feed.task with
  | .sending event =>
      (feed.merged.send liveWirePumpChannelCap event).map fun merged =>
        { feed with task := .receiving, merged := merged }
  | .receiving => none
  | .ended => none

def Feed.step (feed : Feed) : FeedAction → Option (Feed × Option FeedEffect)
  | .deliver lane event => (feed.deliver lane event).map fun next => (next, none)
  | .close lane => (feed.close lane).map fun next => (next, none)
  | .poll answers => feed.poll answers
  | .forward => feed.forward.map fun next => (next, none)
  | .nextItem => some (feed.nextItem.2, feed.nextItem.1.map .handed)
  | .hasWorkReady => some (feed.hasWorkReady.2, none)
  | .waitReady => some (feed.waitReady, none)

/-- Any interleaving of the peers, the merge and the loop. -/
def Feed.run (feed : Feed) : List FeedAction → Option (Feed × List FeedEffect)
  | [] => some (feed, [])
  | action :: actions => do
      let (next, effect) ← feed.step action
      let (last, effects) ← next.run actions
      return (last, effect.toList ++ effects)

/-! ## What a run does -/

/-- The item that an event brings to the loop. -/
def AdmissionPeerEvent.item : AdmissionPeerEvent → Option FeedItem
  | .block peer blockBytes => some (.block peer blockBytes)
  | .tipUpdate _ _ => none
  | .rollBackward peer point _ => some (.rollBack peer point)
  | .disconnected _ => none

def AdmissionPeerEvent.endsSession : AdmissionPeerEvent → Bool
  | .disconnected _ => true
  | .block _ _ => false
  | .tipUpdate _ _ => false
  | .rollBackward _ _ _ => false

def FeedAction.sentTo (lane : Nat) : FeedAction → Option AdmissionPeerEvent
  | .deliver other event => if other = lane ∧ event.endsSession = false then some event else none
  | _ => none

def FeedEffect.taken : FeedEffect → Option (Nat × AdmissionPeerEvent)
  | .took lane event => some (lane, event)
  | .handed _ => none

def FeedEffect.takenFrom (lane : Nat) (effect : FeedEffect) : Option AdmissionPeerEvent :=
  effect.taken.bind fun entry => if entry.1 = lane then some entry.2 else none

def FeedEffect.item : FeedEffect → Option FeedItem
  | .took _ _ => none
  | .handed item => some item

/-- What a peer sent, in order. -/
def sentTo (lane : Nat) (actions : List FeedAction) : List AdmissionPeerEvent :=
  actions.filterMap (FeedAction.sentTo lane)

/-- What the merge took, in order. -/
def taken (effects : List FeedEffect) : List (Nat × AdmissionPeerEvent) :=
  effects.filterMap FeedEffect.taken

def takenFrom (lane : Nat) (effects : List FeedEffect) : List AdmissionPeerEvent :=
  effects.filterMap (FeedEffect.takenFrom lane)

/-- What the loop was handed, in order. -/
def handed (effects : List FeedEffect) : List FeedItem := effects.filterMap FeedEffect.item

def itemsOf (events : List AdmissionPeerEvent) : List FeedItem :=
  events.filterMap AdmissionPeerEvent.item

def queueAt (lanes : Lanes) (lane : Nat) : List AdmissionPeerEvent :=
  match laneAt lanes lane with
  | none => []
  | some channel => channel.queue

def openAt (lanes : Lanes) (lane : Nat) : Bool :=
  match laneAt lanes lane with
  | none => false
  | some channel => channel.isOpen

def MergeTask.held : MergeTask → List AdmissionPeerEvent
  | .receiving => []
  | .sending event => [event]
  | .ended => []

/-- The items between the merge and the loop. -/
def Feed.waiting (feed : Feed) : List FeedItem :=
  feed.lookahead ++ itemsOf (feed.merged.queue ++ feed.task.held)

end Ade.Participant
