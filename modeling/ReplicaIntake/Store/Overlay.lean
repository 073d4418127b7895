import ReplicaIntake.Store.Memory

/-!
# Transactions in memory that stage their changes

While a transaction is open, the committed records stay as they are. What it writes and removes is
staged in an overlay, where reads look first; a commit carries the overlay over into the records,
and a transaction that fails leaves nothing to undo.

What comes of a use of such a store is what comes of it when every transaction works on a copy of
the whole state, as those of `Memory.backend` do (`Memory.overlay_runAll`).
-/

namespace ReplicaIntake.Memory

/-- An open transaction: the committed state, the changes that are staged over it, the counts as
they would be committed, and what waits for the commit. -/
structure Staging (α ω : Type) where
  /-- The state that the transaction was opened on. -/
  committed : Memory α
  /-- What was written under a key, `none` for a removal. -/
  overlay : KeyMap (Option (Record α)) := .empty
  /-- The etag of the latest write. -/
  lastEtag : Etag
  /-- The version of the latest write made on this node. -/
  lastVersion : UInt64
  pending : PostCommit ω := {}

namespace Staging

variable {α ω : Type}

/-- Opens a transaction, which has staged nothing yet. -/
def start (m : Memory α) : Staging α ω where
  committed := m
  lastEtag := m.lastEtag
  lastVersion := m.lastVersion

/-- The record under a key as the transaction sees it. -/
def read (t : Staging α ω) (key : String) : Option (Record α) :=
  match t.overlay.find? key with
  | some staged => staged
  | none => t.committed.records.find? key

/-- Stages a record with the next etag. -/
def write (t : Staging α ω) (key : String) (content : Content α) (metadata : Metadata) :
    Staging α ω :=
  { t with
    overlay := t.overlay.insert key (some ⟨content, t.lastEtag.next, metadata⟩)
    lastEtag := t.lastEtag.next }

/-- Stages the removal of a record. -/
def erase (t : Staging α ω) (key : String) : Staging α ω :=
  { t with overlay := t.overlay.insert key none }

/-- Carries one staged change over. -/
def carry (records : KeyMap (Record α)) (change : String × Option (Record α)) :
    KeyMap (Record α) :=
  match change.2 with
  | some record => records.insert change.1 record
  | none => records.erase change.1

/-- The state with the staged changes carried over. -/
def commit (t : Staging α ω) : Memory α where
  records := t.overlay.entries.foldl carry t.committed.records
  lastEtag := t.lastEtag
  lastVersion := t.lastVersion

end Staging

variable {α ω : Type}

/-- The backend of stores in memory whose transactions stage their changes. -/
def overlayBackend (kind : ItemKind) (localId : String) :
    Backend (Memory α) (Staging α ω) α ω where
  kind := kind
  localId := localId
  start m := .ok (Staging.start m)
  finish t := .ok (t.commit, t.pending)
  read key := fun t => .ok (t.read key) t
  write key content metadata := fun t =>
    let t := t.write key content metadata
    .ok t.lastEtag t
  erase key := fun t => .ok () (t.erase key)
  nextVersion := fun t =>
    let version := t.lastVersion + 1
    .ok version { t with lastVersion := version }
  enqueue action t := { t with pending := t.pending.push action }
  keys m := .ok m.records.keys

end ReplicaIntake.Memory
