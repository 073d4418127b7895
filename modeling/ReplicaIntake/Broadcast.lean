import ReplicaIntake.KeyMap

/-!
# Broadcast channels

A channel keeps the latest messages for receivers that read at their own pace. Its capacity is a
power of two. A receiver sees what is sent after it subscribed; one that falls behind by more than
the capacity is told how many messages it has lost, and continues with the oldest that is kept.

Receivers are named, and each is a position in the sequence of all messages sent so far.
-/

namespace ReplicaIntake

/-- A channel for messages of type `α`. -/
structure Broadcast (α : Type) where
  /-- How many messages are kept. -/
  capacity : Nat
  /-- How many messages have been sent in all. -/
  sent : Nat := 0
  /-- The messages that are kept, oldest first. -/
  kept : List α := []
  /-- How many messages had been sent before the next one of each receiver. -/
  receivers : KeyMap Nat := .empty
  /-- How many handles for sending are left. -/
  senders : Nat := 1

namespace Broadcast

variable {α : Type}

/-- The largest capacity that may be asked for. The room for more messages would take 2^63 bytes. -/
def maxCapacity : Nat := Nat.pow 2 56

/-- The least power of two from `p` on that is at least `n`, when `fuel` doublings suffice. -/
def powerFrom (n : Nat) : (fuel : Nat) → (p : Nat) → Nat
  | 0, p => p
  | fuel + 1, p => if n ≤ p then p else powerFrom n fuel (2 * p)

/-- A channel with room for at least `capacity` messages. There is none for no message at all. -/
def new? (capacity : Nat) : Option (Broadcast α) :=
  if capacity = 0 ∨ maxCapacity < capacity then none
  else some { capacity := powerFrom capacity 63 1 }

/-- Adds a receiver for what is sent from now on. -/
def subscribe (b : Broadcast α) (name : String) : Broadcast α :=
  { b with receivers := b.receivers.insert name b.sent }

/-- Takes a receiver away. -/
def unsubscribe (b : Broadcast α) (name : String) : Broadcast α :=
  { b with receivers := b.receivers.erase name }

/-- One more handle for sending. -/
def share (b : Broadcast α) : Broadcast α := { b with senders := b.senders + 1 }

/-- One handle for sending less. -/
def release (b : Broadcast α) : Broadcast α := { b with senders := b.senders - 1 }

/-- Sends a message, if anyone receives. -/
def send? (b : Broadcast α) (a : α) : Option (Broadcast α) :=
  if b.receivers.isEmpty then none
  else
    let kept := b.kept ++ [a]
    some { b with sent := b.sent + 1, kept := kept.drop (kept.length - b.capacity) }

/-- What a receiver gets. -/
inductive Receipt (α : Type) where
  /-- The next message. -/
  | message (a : α)
  /-- Nothing yet. -/
  | empty
  /-- Nothing any more. -/
  | closed
  /-- So many messages were lost. -/
  | lagged (n : Nat)

/-- The next receipt of a receiver, with the channel after it. -/
def receive (b : Broadcast α) (name : String) : Receipt α × Broadcast α :=
  match b.receivers.find? name with
  | none => (.closed, b)
  | some position =>
    let move (next : Nat) : Broadcast α := { b with receivers := b.receivers.insert name next }
    let oldest := b.sent - b.kept.length
    if position < oldest then (.lagged (oldest - position), move oldest)
    else
      match b.kept[position - oldest]? with
      | some a => (.message a, move (position + 1))
      | none => (if b.senders = 0 then .closed else .empty, b)

end Broadcast

end ReplicaIntake
