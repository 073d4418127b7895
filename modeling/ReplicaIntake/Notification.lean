import ReplicaIntake.Record

/-!
# Conflict notifications

A conflict that has arisen or grown is announced to observers. A *sink* is an observer together
with what it does to the world `ω` outside the store; it may refuse a notification or crash on it,
and neither keeps the others from theirs (`Notifier.raise`).
-/

namespace ReplicaIntake

/-- The replicated operation that led to a conflict. -/
inductive Operation where
  | put
  | delete
  deriving DecidableEq

namespace Operation

/-- The name of an operation. -/
def name : Operation → String
  | .put => "put"
  | .delete => "delete"

/-- The operation of a name. -/
def ofName? : String → Option Operation
  | "put" => some .put
  | "delete" => some .delete
  | _ => none

end Operation

/-- The announcement of a conflict that has arisen or grown. -/
structure Notification where
  /-- The primary key, which now holds the marker. -/
  id : String
  etag : Etag
  /-- The shadow keys of all sides. -/
  conflicts : List String
  itemKind : ItemKind
  /-- The operation that led to the conflict. -/
  operation : Operation
  deriving DecidableEq

/-- What became of a notification at one sink. -/
inductive Delivery where
  /-- The sink took it. -/
  | accepted
  /-- The sink reported a failure. -/
  | refused (reason : String)
  /-- The sink broke down. -/
  | crashed
  deriving DecidableEq

/-- An observer of conflicts: what it does with a notification, and to the world. -/
abbrev Sink (ω : Type) := Notification → ω → Delivery × ω

/-- The registered observers, in the order of their registration. -/
structure Notifier (ω : Type) where
  sinks : List (Sink ω) := []

namespace Notifier

variable {ω : Type}

/-- Registers a sink for everything raised from now on. -/
def register (n : Notifier ω) (sink : Sink ω) : Notifier ω := ⟨n.sinks ++ [sink]⟩

/-- Number of registered sinks. -/
def count (n : Notifier ω) : Nat := n.sinks.length

/-- Hands a notification to each sink in turn. -/
def offer (note : Notification) : List (Sink ω) → ω → Nat × ω
  | [], w => (0, w)
  | sink :: rest, w =>
    match sink note w with
    | (.accepted, w) => let (n, w) := offer note rest w; (n + 1, w)
    | (_, w) => offer note rest w

/-- Hands a notification to every sink and counts those that accepted it. -/
def raise (n : Notifier ω) (note : Notification) (w : ω) : Nat × ω := offer note n.sinks w

/-- A notifier in words. -/
def describe (n : Notifier ω) : String :=
  "Notifier \x7b sinks: " ++ Decimal.ofNat n.count ++ " \x7d"

end Notifier

end ReplicaIntake
