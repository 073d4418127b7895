import ReplicaIntake.Metadata
import ReplicaIntake.ShadowKey
import ReplicaIntake.Format.Decimal

/-!
# Stored records

What a store keeps under a key: the item's data, a conflict marker, or the tombstone of a deleted
item, together with its metadata and an etag that every write renews.

A marker stands at the primary key of a conflict and lists the shadow keys of its sides in the
order in which they joined; no shadow is listed twice (`Marker.push`).
-/

namespace ReplicaIntake

/-! ## §1 Kinds of items -/

/-- The kinds of items that are replicated. -/
inductive ItemKind where
  | document
  /-- Counters that several nodes count on. -/
  | counter
  | file
  deriving DecidableEq

namespace ItemKind

/-- The name of a kind. -/
def name : ItemKind → String
  | .document => "document"
  | .counter => "counter"
  | .file => "file"

/-- The name of a kind as a title. -/
def title : ItemKind → String
  | .document => "Document"
  | .counter => "Counter"
  | .file => "File"

/-- The kind of a name. -/
def ofName? : String → Option ItemKind
  | "document" => some .document
  | "counter" => some .counter
  | "file" => some .file
  | _ => none

/-- Whether resolutions of this kind run the triggers. Only documents have a write pipeline that
triggers belong to. -/
def runsTriggers : ItemKind → Bool
  | .document => true
  | .counter | .file => false

end ItemKind

/-! ## §2 Etags -/

/-- The tag of one write to a store. Later writes have larger tags. -/
structure Etag where
  value : UInt64
  deriving DecidableEq

namespace Etag

/-- An etag in twenty digits, so that texts order as the numbers do. -/
def text (e : Etag) : String := Decimal.padded 20 e.value.toNat

/-- An etag as it is shown inside other values. -/
def shown (e : Etag) : String := "Etag(" ++ Decimal.ofNat e.value.toNat ++ ")"

/-- Etags in their order. -/
def compare (a b : Etag) : Ordering := Ord.compare a.value.toNat b.value.toNat

/-- The etag after this one. -/
def next (e : Etag) : Etag := ⟨e.value + 1⟩

end Etag

/-! ## §3 Conflict markers -/

/-- The shadow keys of a conflict, in the order in which they joined it. -/
structure Marker where
  /-- The shadow keys. -/
  shadows : List String := []
  deriving DecidableEq

namespace Marker

/-- Whether the shadow key is listed. -/
def lists (m : Marker) (shadow : String) : Bool := m.shadows.contains shadow

/-- The marker that lists `shadow` too. A listed shadow is not listed again. -/
def push (m : Marker) (shadow : String) : Marker :=
  if m.lists shadow then m else ⟨m.shadows ++ [shadow]⟩

/-- The marker of a new conflict between two sides. -/
def pair (existing new : String) : Marker := (Marker.push {} existing).push new

/-- Number of sides. -/
def size (m : Marker) : Nat := m.shadows.length

/-- Whether no side is listed. -/
def isEmpty (m : Marker) : Bool := m.shadows.isEmpty

end Marker

/-! ## §4 Records -/

/-- What a key holds. -/
inductive Content (α : Type) where
  | data (a : α)
  | marker (m : Marker)
  /-- Nothing but the metadata of a deleted item. -/
  | tombstone
  deriving DecidableEq

/-- What is stored under a key. -/
structure Record (α : Type) where
  /-- The item, a marker or a tombstone. -/
  content : Content α
  etag : Etag
  metadata : Metadata
  deriving DecidableEq

namespace Record

variable {α : Type}

/-- The item is deleted. -/
def isTombstone (r : Record α) : Bool :=
  match r.content with
  | .tombstone => true
  | _ => r.metadata.deleted

/-- The record stands for a conflict. A side of a conflict is flagged as conflicting too, but it
is no marker. -/
def isMarker (r : Record α) : Bool :=
  match r.content with
  | .marker _ => true
  | _ => r.metadata.conflict && !r.metadata.conflictSide

/-- The data of the item, if the record holds any. -/
def data? (r : Record α) : Option α :=
  match r.content with
  | .data a => some a
  | _ => none

/-- The conflict marker, if the record holds one. -/
def marker? (r : Record α) : Option Marker :=
  match r.content with
  | .marker m => some m
  | _ => none

end Record

/-- A conflict as it stands after a write joined it. -/
structure ConflictSummary where
  etag : Etag
  /-- The shadow keys of all sides. -/
  shadows : List String
  deriving DecidableEq

end ReplicaIntake
