/-!
# Write identities and lineages

Every replicated write is named by the node it originated on and a version counted by that node.
A *lineage* lists the identities of the writes that a write was made on top of, oldest first. It is
a sliding window: when it grows past its bound, the oldest entries go.

Main definitions:

- `WriteId`: a node and one of its versions;
- `Lineage.bound`, `Lineage.append`: the window, and one more entry in it;
- `Lineage.covers`: whether a write, or a later one of its node, is listed;
- `Lineage.union`, `Lineage.merge`: two lineages folded into one without repetitions, what only
  the older one knows coming first.
-/

namespace ReplicaIntake

/-! ## §1 Identities -/

/-- The identity of a write: the node it originated on, and that node's count of it. -/
structure WriteId where
  /-- The node the write originated on. -/
  source : String
  /-- The node's own version number of the write. -/
  version : UInt64
  deriving DecidableEq

namespace WriteId

/-- An identity as text: node, colon, version. -/
def text (id : WriteId) : String := id.source ++ ":" ++ toString id.version.toNat

/-- Identities in order: by node, then by version. -/
def precedes (a b : WriteId) : Bool :=
  a.source < b.source || (a.source == b.source && a.version ≤ b.version)

end WriteId

/-! ## §2 Lineages -/

/-- The identities of the writes a write was made on top of, oldest first. -/
abbrev Lineage := List WriteId

/-- How many entries a lineage keeps unless configured otherwise. -/
def defaultMaxHistory : Nat := 50

namespace Lineage

/-- The newest `max` entries. -/
def bound (l : Lineage) (max : Nat) : Lineage := l.drop (l.length - max)

/-- The lineage with `id` as its newest entry, bounded to `max` entries. -/
def append (l : Lineage) (id : WriteId) (max : Nat) : Lineage := Lineage.bound (l ++ [id]) max

/-- Whether the lineage lists `id` or a later version of the same node. Versions of one node
ascend, so a listed later version means that the earlier write has been seen. -/
def covers (l : Lineage) (id : WriteId) : Bool :=
  l.any fun e => e.source == id.source && id.version ≤ e.version

/-- The entries without repetitions, each where it occurs first. -/
def distinct : Lineage → Lineage
  | [] => []
  | e :: rest => e :: (distinct rest).filter (· ≠ e)

/-- All entries of both lineages, each once: those only `older` knows, then those of `newer`. -/
def union (newer older : Lineage) : Lineage :=
  distinct (older.filter (· ∉ newer)) ++ distinct newer

/-- The union of the newest `max` entries of `newer` with `older`, bounded to `max` entries, so
that what only `older` knows is dropped first. -/
def merge (newer older : Lineage) (max : Nat) : Lineage :=
  Lineage.bound (Lineage.union (Lineage.bound newer max) older) max

/-- The lineage with `ids` as its newest entries and nowhere else. -/
def withNewest (l : Lineage) (ids : List WriteId) : Lineage := l.filter (· ∉ ids) ++ ids

end Lineage

end ReplicaIntake
