import ReplicaIntake.Record
import ReplicaIntake.Counter

/-!
# Resolution policies

When an incoming write and the stored one are concurrent, a *resolver* may decide the matter before
it becomes a conflict. It sees both sides and keeps some payload, removes the item, declines, or
fails. A chain asks its resolvers in order and takes the first decision.

A decision should descend from both writes, so that other nodes accept it without a conflict of
their own. `Metadata.descendFromBoth` sees to that: the loser's identity becomes the newest entry of
the lineage, so no later bounding drops it first.
-/

namespace ReplicaIntake

/-- The winner's metadata, with a lineage that also covers the loser. -/
def Metadata.descendFromBoth (winner loser : Metadata) : Metadata :=
  let lineage := Lineage.union winner.lineage loser.lineage
  { winner with
    lineage := match loser.identity with
      | some id => lineage.withNewest [id]
      | none => lineage
    conflict := false
    conflictSide := false }

/-- The decision of a resolver. -/
inductive Resolution (α : Type) where
  /-- The payload replaces what is stored. -/
  | keep (metadata : Metadata) (payload : α)
  /-- The item is removed, which leaves a tombstone. -/
  | remove (metadata : Metadata)
  deriving DecidableEq

/-- Decides between an incoming write, whose payload is missing when it is a deletion, and the
stored record; `none` declines. -/
abbrev Resolver (α : Type) :=
  (key : String) → (incoming : Metadata) → (payload : Option α) → (existing : Record α) →
    Except String (Option (Resolution α))

/-- Runs when a decision replaces data: gets the key, the payload that is kept and the metadata of
the incoming write, and may refuse. -/
abbrev Trigger (α ω : Type) := String → α → Metadata → ω → Except String Unit × ω

namespace Resolver

variable {α : Type}

/-- Declines always. -/
def decline : Resolver α := fun _ _ _ _ => .ok none

/-- Fails always. -/
def fail (reason : String) : Resolver α := fun _ _ _ _ => .error reason

/-- Decides always alike. -/
def fixed (resolution : Resolution α) : Resolver α := fun _ _ _ _ => .ok (some resolution)

/-- Asks the resolvers in order and takes the first decision. -/
def chain : List (Resolver α) → Resolver α
  | [], _, _, _, _ => .ok none
  | resolver :: rest, key, incoming, payload, existing =>
    match resolver key incoming payload existing with
    | .ok none => chain rest key incoming payload existing
    | decision => decision

/-- The incoming write wins. -/
def preferRemote : Resolver α := fun _ incoming payload existing =>
  let metadata := incoming.descendFromBoth existing.metadata
  match payload with
  | some a => .ok (some (.keep metadata a))
  | none => .ok (some (.remove metadata))

/-- The stored record wins. There is no decision against a conflict marker. -/
def preferLocal : Resolver α := fun _ incoming _ existing =>
  let metadata := existing.metadata.descendFromBoth incoming
  match existing.content with
  | .data a => .ok (some (.keep metadata a))
  | .tombstone => .ok (some (.remove metadata))
  | .marker _ => .ok none

/-- The time of a write: an integer of the application's field `field`. -/
def timestamp? (field : String) (m : Metadata) : Option Int :=
  (m.extra.find? field).bind Decimal.signed?

/-- The write with the larger time wins. There is no decision without both times, nor when they
are equal. -/
def preferNewest (field : String) : Resolver α := fun key incoming payload existing =>
  match timestamp? field incoming, timestamp? field existing.metadata with
  | some remote, some stored =>
    if stored < remote then preferRemote key incoming payload existing
    else if remote < stored then preferLocal key incoming payload existing
    else .ok none
  | _, _ => .ok none

/-- Two counters are merged. There is no decision about deletions and markers. -/
def mergeCounters : Resolver Counter := fun _ incoming payload existing =>
  match payload, existing.data? with
  | some remote, some stored =>
    .ok (some (.keep (incoming.descendFromBoth existing.metadata) (stored.merge remote)))
  | _, _ => .ok none

end Resolver

end ReplicaIntake
