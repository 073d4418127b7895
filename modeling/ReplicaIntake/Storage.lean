import ReplicaIntake.Record
import ReplicaIntake.PostCommit

/-!
# The storage contract

An intake runs against a storage that is bound to one open transaction. The operations act on the
state `σ` of that transaction; a failing operation leaves the state it had reached, because the
caller may go on and commit. Actions that have to wait for the commit are queued.
-/

namespace ReplicaIntake

/-- An operation on a state `σ` that answers `β` or fails with `ε`. The state is kept either way. -/
abbrev Op (σ ε β : Type) := EStateM ε σ β

namespace Op

variable {σ ω ε ε' β : Type}

/-- The operation as part of one that also sees the world, its failure put into other words. -/
def within (wrap : ε → ε') (op : Op σ ε β) : Op (σ × ω) ε' β := fun (s, w) =>
  match op s with
  | .ok b s => .ok b (s, w)
  | .error e s => .error (wrap e) (s, w)

/-- The operation with its failure put into other words. -/
def wrapError (wrap : ε → ε') (op : Op σ ε β) : Op σ ε' β := fun s =>
  match op s with
  | .ok b s => .ok b s
  | .error e s => .error (wrap e) s

/-- What happens in the world only. -/
def outside (act : ω → β × ω) : Op (σ × ω) ε β := fun (s, w) =>
  let (b, w) := act w
  .ok b (s, w)

/-- What the operation answers or how it fails, and the state after it. -/
def answer (op : Op σ ε β) (s : σ) : Except ε β × σ :=
  match op s with
  | .ok b s => (.ok b, s)
  | .error e s => (.error e, s)

end Op

/-- What an intake needs of one open transaction with state `σ`, for payloads `α`, failures `ε`
and actions on the world `ω`. -/
structure Storage (σ α ω ε : Type) where
  kind : ItemKind
  localId : String
  /-- The record under a key, be it data, a tombstone or a marker. -/
  get : (key : String) → Op σ ε (Option (Record α))
  /-- Stores data under a key. With an expected etag it fails unless that etag is stored. -/
  put : (key : String) → (expected : Option Etag) → Metadata → α → Op σ ε Etag
  /-- Removes a key altogether, under the same condition. -/
  remove : (key : String) → (expected : Option Etag) → Op σ ε Unit
  markDeleted : (key : String) → Metadata → Op σ ε Etag
  /-- Moves the existing record to its shadow and puts a marker of both shadows in its place. -/
  createConflict : (key newShadow existingShadow : String) → Record α → Op σ ε ConflictSummary
  /-- Lists one more shadow in the marker that the existing record holds. -/
  extendConflict : (key newShadow : String) → Record α → Op σ ε ConflictSummary
  onCommit : CommitAction ω → σ → σ

namespace Storage

variable {σ α ω ε : Type}

/-- The discriminator of the side that was stored first: the name of the store. -/
def discriminator (s : Storage σ α ω ε) : String := s.localId

end Storage

end ReplicaIntake
