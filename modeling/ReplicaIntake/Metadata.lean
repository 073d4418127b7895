import ReplicaIntake.KeyMap
import ReplicaIntake.Lineage

/-!
# Metadata of a replicated item

The protocol reads and writes a handful of fields; the application's own fields travel in `extra`
and are never interpreted. A write has an *identity* when both its node and its version are
recorded.
-/

namespace ReplicaIntake

/-- What is recorded about an item besides its payload. -/
structure Metadata where
  /-- The item is deleted. -/
  deleted : Bool := false
  /-- The node that produced exactly this version. -/
  source : Option String := none
  /-- The version, as counted by `source`. -/
  version : Option UInt64 := none
  /-- The lineage before this write. -/
  lineage : Lineage := []
  /-- The item is a conflict marker or one side of a conflict. -/
  conflict : Bool := false
  /-- The item is one side of a conflict, stored under a shadow key. -/
  conflictSide : Bool := false
  /-- The lineage was merged from those of two deletions. -/
  mergedLineage : Bool := false
  /-- The collection the item belongs to. -/
  collection : Option String := none
  /-- Fields of the application, carried as they are. -/
  extra : KeyMap String := .empty
  deriving DecidableEq

namespace Metadata

/-- The metadata of a write with the given identity and an empty lineage. -/
def ofId (source : String) (version : UInt64) : Metadata :=
  { source := some source, version := some version }

/-- The identity of the write, when node and version are both recorded. -/
def identity (m : Metadata) : Option WriteId :=
  match m.source, m.version with
  | some source, some version => some ⟨source, version⟩
  | _, _ => none

/-- Whether both writes have an identity and it is the same. -/
def sameIdentity (a b : Metadata) : Bool :=
  match a.identity, b.identity with
  | some x, some y => x == y
  | _, _ => false

/-- The metadata with its lineage bounded to `max` entries. -/
def bounded (m : Metadata) (max : Nat) : Metadata := { m with lineage := m.lineage.bound max }

/-- The metadata as one side of a conflict carries it. -/
def asConflictSide (m : Metadata) : Metadata := { m with conflict := true, conflictSide := true }

/-- The metadata of the marker that replaces an item when a conflict arises. A marker has no
identity and no lineage of its own: those are in the sides. -/
def conflictMarker (existing : Metadata) : Metadata :=
  { conflict := true, collection := existing.collection, extra := existing.extra }

/-- The metadata as a resolution stores it: no conflict flags, a bounded lineage. -/
def settled (m : Metadata) (max : Nat) : Metadata :=
  { m with conflict := false, conflictSide := false, lineage := m.lineage.bound max }

/-- The metadata of a write made on this node on top of `previous`. The identity of `previous`
becomes the newest entry of the lineage, and its collection is kept. -/
def stamp (previous : Option Metadata) (localId : String) (version : UInt64) (max : Nat) :
    Metadata :=
  match previous with
  | none => ofId localId version
  | some p =>
    { ofId localId version with
      lineage := match p.identity with
        | some id => p.lineage.append id max
        | none => p.lineage.bound max
      collection := p.collection }

end Metadata

end ReplicaIntake
