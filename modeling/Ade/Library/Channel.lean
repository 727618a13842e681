import Mathlib

/-! # Bounded channels with one receiver -/

namespace Ade.Library

/-- What is queued, and whether a sender is left. -/
structure Channel (α : Type) where
  queue : List α
  isOpen : Bool

inductive Received (α : Type) where
  | value (value : α)
  | empty
  | closed

namespace Channel

variable {α : Type}

def empty : Channel α := ⟨[], true⟩

/-- A sender waits for room. -/
def send (cap : Nat) (channel : Channel α) (value : α) : Option (Channel α) :=
  if channel.isOpen ∧ channel.queue.length < cap then
    some { channel with queue := channel.queue ++ [value] }
  else none

def close (channel : Channel α) : Channel α := { channel with isOpen := false }

/-- A closed channel is received from until it is empty. -/
def receive : Channel α → Received α × Channel α
  | ⟨value :: rest, isOpen⟩ => (.value value, ⟨rest, isOpen⟩)
  | ⟨[], true⟩ => (.empty, ⟨[], true⟩)
  | ⟨[], false⟩ => (.closed, ⟨[], false⟩)

theorem send_queue {cap : Nat} {channel next : Channel α} {value : α}
    (sent : channel.send cap value = some next) :
    next.queue = channel.queue ++ [value] ∧ next.isOpen = true ∧ channel.isOpen = true ∧
      next.queue.length ≤ cap := by
  unfold send at sent
  split_ifs at sent with room
  cases sent
  simpa [room.1] using room.2

theorem send_of_room {cap : Nat} {channel : Channel α} (isOpen : channel.isOpen = true)
    (room : channel.queue.length < cap) (value : α) :
    channel.send cap value = some { channel with queue := channel.queue ++ [value] } :=
  if_pos ⟨isOpen, room⟩

theorem receive_cases (channel : Channel α) :
    (∃ value next, channel.receive = (.value value, next) ∧ channel.queue = value :: next.queue ∧
      next.isOpen = channel.isOpen) ∨
    (channel.receive = (.empty, channel) ∧ channel.queue = [] ∧ channel.isOpen = true) ∨
    (channel.receive = (.closed, channel) ∧ channel.queue = [] ∧ channel.isOpen = false) := by
  rcases channel with ⟨_ | ⟨value, rest⟩, _ | _⟩
  · exact .inr (.inr ⟨rfl, rfl, rfl⟩)
  · exact .inr (.inl ⟨rfl, rfl, rfl⟩)
  · exact .inl ⟨value, ⟨rest, false⟩, rfl, rfl, rfl⟩
  · exact .inl ⟨value, ⟨rest, true⟩, rfl, rfl, rfl⟩

end Channel

end Ade.Library
