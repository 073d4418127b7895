import ReplicaIntake.Store.Backend

/-!
# Batches of storage operations

A batch is a transaction made of single operations of the storage contract, intakes among them. A
call that fails answers its failure, and the calls after it still run on what it left; whether the
whole is committed is decided at the end (`Backend.batch`).
-/

namespace ReplicaIntake

/-- One operation inside a transaction. -/
inductive Call (α ω : Type) where
  /-- Takes in a replicated write, a put or a deletion as its metadata says. -/
  | replicate (intake : Intake α ω) (key : String) (metadata : Metadata) (payload : Option α)
  /-- Takes in a replicated write as a put. -/
  | replicatePut (intake : Intake α ω) (key : String) (metadata : Metadata) (payload : α)
  /-- Takes in a replicated write as a deletion. -/
  | replicateDelete (intake : Intake α ω) (key : String) (metadata : Metadata)
  | get (key : String)
  | put (key : String) (expected : Option Etag) (metadata : Metadata) (payload : α)
  | remove (key : String) (expected : Option Etag)
  | markDeleted (key : String) (metadata : Metadata)
  /-- Makes a conflict of the record under `source`, if there is one. -/
  | createConflict (key newShadow existingShadow source : String)
  /-- Lists one more shadow in the marker under `source`, if there is a record. -/
  | extendConflict (key newShadow source : String)
  /-- Takes the next version for a local write. -/
  | nextVersion
  | onCommit (action : CommitAction ω)

/-- What a call answers. -/
inductive Answer (α : Type) where
  | outcome (outcome : Outcome)
  /-- A record, or that there is none. -/
  | record (record : Option (Record α))
  | etag (etag : Etag)
  /-- A conflict as it stands now. -/
  | conflict (summary : ConflictSummary)
  /-- The record that a conflict should be about is not there. -/
  | absent
  | version (version : UInt64)
  /-- Nothing but that it is done. -/
  | done

/-- Why a call failed. -/
inductive CallError where
  /-- An intake of a write to `key` failed. -/
  | intake (key : String) (error : IntakeError StoreError)
  | store (error : StoreError)

namespace Call

variable {σ τ α ω : Type}

/-- The intake of a write to `key` as a call. -/
def intakeCall (key : String) (op : Op (τ × ω) (IntakeError StoreError) Outcome) :
    Op (τ × ω) CallError (Answer α) := do
  pure (.outcome (← op.wrapError (.intake key)))

/-- An operation on the conflict of the record under `source`. -/
def about (b : Backend σ τ α ω) (source : String)
    (op : Record α → Op τ StoreError ConflictSummary) : Op (τ × ω) CallError (Answer α) := do
  match ← (b.read source).within .store with
  | none => pure .absent
  | some existing => pure (.conflict (← (op existing).within .store))

/-- Runs a call in an open transaction. -/
def run (b : Backend σ τ α ω) : Call α ω → Op (τ × ω) CallError (Answer α)
  | .replicate intake key metadata payload =>
    intakeCall key (intake.replicate b.storage key metadata payload)
  | .replicatePut intake key metadata payload =>
    intakeCall key (intake.put b.storage key metadata payload)
  | .replicateDelete intake key metadata =>
    intakeCall key (intake.delete b.storage key metadata)
  | .get key => do pure (.record (← (b.read key).within .store))
  | .put key expected metadata payload => do
    pure (.etag (← (b.put key expected metadata payload).within .store))
  | .remove key expected => do
    (b.remove key expected).within .store
    pure .done
  | .markDeleted key metadata => do
    pure (.etag (← (b.markDeleted key metadata).within .store))
  | .createConflict key newShadow existingShadow source =>
    about b source (b.createConflict key newShadow existingShadow)
  | .extendConflict key newShadow source => about b source (b.extendConflict key newShadow)
  | .nextVersion => do pure (.version (← b.nextVersion.within .store))
  | .onCommit action => do
    modify fun (t, w) => (b.enqueue action t, w)
    pure .done

/-- Runs calls one after the other and answers what each of them answered or how it failed. -/
def runAll (b : Backend σ τ α ω) :
    List (Call α ω) → τ × ω → List (Except CallError (Answer α)) × (τ × ω)
  | [], t => ([], t)
  | call :: rest, t =>
    let (answer, t) := (call.run b).answer t
    let (answers, t) := runAll b rest t
    (answer :: answers, t)

end Call

/-! ## Whole batches -/

/-- How a batch ended. -/
inductive Ending where
  | committed
  /-- It was abandoned after its last call. -/
  | abandoned
  /-- Its transaction could not be opened. -/
  | notOpened (error : StoreError)
  /-- Its transaction could not be committed. -/
  | notCommitted (error : StoreError)
  deriving DecidableEq

/-- What became of a batch. -/
structure BatchResult (α : Type) where
  /-- What the calls answered. -/
  answers : List (Except CallError (Answer α))
  /-- How the batch ended. -/
  ending : Ending

/-- Runs calls in one transaction, which is then committed or abandoned. -/
def Backend.batch {σ τ α ω : Type} (b : Backend σ τ α ω) (calls : List (Call α ω))
    (isCommitted : Bool) : σ × ω → BatchResult α × (σ × ω) := fun (s, w) =>
  match b.start s with
  | .error e => (⟨[], .notOpened e⟩, (s, w))
  | .ok t =>
    let (answers, t, w) := Call.runAll b calls (t, w)
    if isCommitted then
      match b.finish t with
      | .error e => (⟨answers, .notCommitted e⟩, (s, w))
      | .ok (s, queue) => (⟨answers, .committed⟩, (s, queue.run w))
    else (⟨answers, .abandoned⟩, (s, w))

end ReplicaIntake
