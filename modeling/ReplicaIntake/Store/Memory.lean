import ReplicaIntake.KeyMap
import ReplicaIntake.Store.Backend

/-!
# Stores in memory

The committed state is the map of the records with the last etag and the last version that were
given out. A transaction works on a state of its own, which becomes the committed one, so etags and
versions that a failed transaction gave out are given out again.
-/

namespace ReplicaIntake

/-- The records of one store and its counts. -/
structure Memory (α : Type) where
  /-- The records under their keys. -/
  records : KeyMap (Record α) := .empty
  /-- The etag of the latest write. -/
  lastEtag : Etag := ⟨0⟩
  /-- The version of the latest write made on this node. -/
  lastVersion : UInt64 := 0
  deriving DecidableEq

namespace Memory

/-- An open transaction: the state as it would be committed, and what waits for the commit. -/
structure Transaction (α ω : Type) where
  /-- The state with the changes so far. -/
  contents : Memory α
  pending : PostCommit ω := {}

variable {α ω : Type}

/-- Stores a record with the next etag. -/
def write (m : Memory α) (key : String) (content : Content α) (metadata : Metadata) : Memory α :=
  { m with
    records := m.records.insert key ⟨content, m.lastEtag.next, metadata⟩
    lastEtag := m.lastEtag.next }

/-- Removes a record. -/
def erase (m : Memory α) (key : String) : Memory α := { m with records := m.records.erase key }

/-- The backend of stores in memory. -/
def backend (kind : ItemKind) (localId : String) :
    Backend (Memory α) (Transaction α ω) α ω where
  kind := kind
  localId := localId
  start m := .ok { contents := m }
  finish t := .ok (t.contents, t.pending)
  read key := fun t => .ok (t.contents.records.find? key) t
  write key content metadata := fun t =>
    let contents := t.contents.write key content metadata
    .ok contents.lastEtag { t with contents }
  erase key := fun t => .ok () { t with contents := t.contents.erase key }
  nextVersion := fun t =>
    let version := t.contents.lastVersion + 1
    .ok version { t with contents := { t.contents with lastVersion := version } }
  enqueue action t := { t with pending := t.pending.push action }
  keys m := .ok m.records.keys

end Memory

end ReplicaIntake
