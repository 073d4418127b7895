import ReplicaIntake.Intake
import ReplicaIntake.Store.Error

/-!
# Backends and their transactions

A backend keeps records in a committed state `σ` and works on an open transaction `τ`. All that a
backend has to know is how to read, write and erase single records; the operations of the storage
contract are built on that here, so every backend checks etags and lays out conflicts alike.

A transaction that fails leaves the committed state as it was and drops its queue. One that succeeds
runs the queue after the commit.
-/

namespace ReplicaIntake

/-- Where records with payloads `α` are kept: committed as `σ`, in an open transaction as `τ`. -/
structure Backend (σ τ α ω : Type) where
  kind : ItemKind
  localId : String
  start : σ → Except StoreError τ
  /-- Commits a transaction and hands its queue back. -/
  finish : τ → Except StoreError (σ × PostCommit ω)
  read : (key : String) → Op τ StoreError (Option (Record α))
  /-- Stores a record with the next etag. -/
  write : (key : String) → Content α → Metadata → Op τ StoreError Etag
  erase : (key : String) → Op τ StoreError Unit
  /-- The next version for a write made on this node. -/
  nextVersion : Op τ StoreError UInt64
  enqueue : CommitAction ω → τ → τ
  /-- All keys with a record, in ascending order. -/
  keys : σ → Except StoreError (List String)

namespace Backend

variable {σ τ α ω ε β : Type}

/-! ## §1 The storage contract -/

/-- Fails unless the expected etag, if there is one, is that of the stored record. -/
def checkEtag (key : String) (expected : Option Etag) (current : Option (Record α)) :
    Op τ StoreError Unit :=
  match expected with
  | none => pure ()
  | some etag =>
    let actual := current.map (·.etag)
    if actual = some etag then pure () else throw (.concurrency key etag actual)

/-- Stores data, if the expected etag is stored. -/
def put (b : Backend σ τ α ω) (key : String) (expected : Option Etag) (metadata : Metadata)
    (payload : α) : Op τ StoreError Etag := do
  let current ← b.read key
  checkEtag key expected current
  b.write key (.data payload) metadata

/-- Removes a record, if the expected etag is stored. -/
def remove (b : Backend σ τ α ω) (key : String) (expected : Option Etag) :
    Op τ StoreError Unit := do
  let current ← b.read key
  checkEtag key expected current
  if current.isSome then b.erase key

/-- Stores a tombstone, its metadata marked as deleted. -/
def markDeleted (b : Backend σ τ α ω) (key : String) (metadata : Metadata) :
    Op τ StoreError Etag :=
  b.write key .tombstone { metadata with deleted := true }

/-- Copies the existing record to its shadow and puts a marker of both shadows in its place. -/
def createConflict (b : Backend σ τ α ω) (key newShadow existingShadow : String)
    (existing : Record α) : Op τ StoreError ConflictSummary := do
  let content ← match existing.content with
    | .data a => pure (.data a)
    | .tombstone => pure .tombstone
    | .marker m => throw (.conflicted key m.shadows)
  let _ ← b.write existingShadow content existing.metadata.asConflictSide
  let marker := Marker.pair existingShadow newShadow
  let etag ← b.write key (.marker marker) existing.metadata.conflictMarker
  pure ⟨etag, marker.shadows⟩

/-- Lists one more shadow in the marker of the existing record. A listed shadow writes nothing. -/
def extendConflict (b : Backend σ τ α ω) (key newShadow : String) (existing : Record α) :
    Op τ StoreError ConflictSummary :=
  match existing.marker? with
  | none => throw (.notConflicted key)
  | some marker =>
    if marker.lists newShadow then pure ⟨existing.etag, marker.shadows⟩
    else do
      let marker := marker.push newShadow
      let etag ← b.write key (.marker marker) existing.metadata
      pure ⟨etag, marker.shadows⟩

/-- A backend's open transaction as the storage of an intake. -/
def storage (b : Backend σ τ α ω) : Storage τ α ω StoreError where
  kind := b.kind
  localId := b.localId
  get := b.read
  put := b.put
  remove := b.remove
  markDeleted := b.markDeleted
  createConflict := b.createConflict
  extendConflict := b.extendConflict
  onCommit := b.enqueue

/-! ## §2 Transactions -/

/-- Runs `body` in a transaction. A failure to open or commit it is put into the words of `body` by
`wrap`. What `body` did in the world stays done, whatever becomes of the transaction.

A commit and the run of its queue are one step here. Queues of several transactions that drain at
the same time, or while the next transaction works, are not modelled. -/
def transaction (b : Backend σ τ α ω) (wrap : StoreError → ε) (body : Op (τ × ω) ε β) :
    Op (σ × ω) ε β := fun (s, w) =>
  match b.start s with
  | .error e => .error (wrap e) (s, w)
  | .ok t =>
    match body (t, w) with
    | .error e (_, w) => .error e (s, w)
    | .ok answer (t, w) =>
      match b.finish t with
      | .error e => .error (wrap e) (s, w)
      | .ok (s, queue) => .ok answer (s, queue.run w)

/-- Runs `body`, which sees the store only, in a transaction. -/
def transact (b : Backend σ τ α ω) (body : Op τ StoreError β) : Op (σ × ω) StoreError β :=
  b.transaction id (body.within id)

/-- The record under a key. -/
def get (b : Backend σ τ α ω) (key : String) : Op (σ × ω) StoreError (Option (Record α)) :=
  b.transact (b.read key)

/-- Takes in one replicated write in a transaction of its own. A transaction that cannot be opened
or committed counts as a failure of the storage. -/
def replicate (b : Backend σ τ α ω) (intake : Intake α ω) (key : String) (metadata : Metadata)
    (payload : Option α) : Op (σ × ω) (IntakeError StoreError) Outcome :=
  b.transaction .storage (intake.replicate b.storage key metadata payload)

/-! ## §3 Looking at the whole store -/

/-- All keys with a record, in ascending order. -/
def listKeys (b : Backend σ τ α ω) : Op (σ × ω) StoreError (List String) := fun (s, w) =>
  match b.keys s with
  | .ok keys => .ok keys (s, w)
  | .error e => .error e (s, w)

/-- What reading each of the given keys answers, each in a transaction of its own. -/
def readEach (b : Backend σ τ α ω) :
    List String → σ × ω → List (String × Except StoreError (Option (Record α))) × (σ × ω)
  | [], s => ([], s)
  | key :: rest, s =>
    let (answer, s) := (b.get key).answer s
    let (answers, s) := b.readEach rest s
    ((key, answer) :: answers, s)

/-- What reading every key of the store answers. -/
def readAll (b : Backend σ τ α ω) (s : σ × ω) :
    Except StoreError (List (String × Except StoreError (Option (Record α)))) × (σ × ω) :=
  match b.listKeys.answer s with
  | (.error e, s) => (.error e, s)
  | (.ok keys, s) => let (answers, s) := b.readEach keys s; (.ok answers, s)

end Backend

end ReplicaIntake
