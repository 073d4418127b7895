import ReplicaIntake.Store.Batch
import ReplicaIntake.Store.LocalWrite

/-!
# Uses of a store

All that can be done with a store, as data: taking in a replicated write, the three local writes,
reading, and whole batches. A use answers its result or failure and leaves the store and the world
after it; a history of a store is a list of uses, run one after the other (`Command.runAll`).
-/

namespace ReplicaIntake

/-- One use of a store. -/
inductive Command (α ω : Type) where
  /-- Takes in a replicated write. -/
  | replicate (intake : Intake α ω) (key : String) (metadata : Metadata) (payload : Option α)
  /-- Stores a payload as a local write, with lineages of at most `max` entries. -/
  | putLocal (key : String) (payload : α) (max : Nat)
  /-- Deletes an item as a local write. -/
  | deleteLocal (key : String) (max : Nat)
  /-- Ends a conflict as a local write, with a deletion when there is no payload. -/
  | resolveLocal (key : String) (payload : Option α) (max : Nat)
  | get (key : String)
  /-- Runs calls in one transaction. -/
  | batch (calls : List (Call α ω)) (isCommitted : Bool)

/-- What a use answers. -/
inductive Reply (α : Type) where
  | outcome (result : Except (IntakeError StoreError) Outcome)
  /-- The metadata that a local write stored, if it stored anything. -/
  | written (result : Except StoreError (Option Metadata))
  | record (result : Except StoreError (Option (Record α)))
  /-- What became of a batch. -/
  | batch (result : BatchResult α)

namespace Command

variable {σ τ α ω : Type}

/-- Runs a use of a store. -/
def run (b : Backend σ τ α ω) : Command α ω → σ × ω → Reply α × (σ × ω)
  | .replicate intake key metadata payload, s =>
    let (result, s) := (b.replicate intake key metadata payload).answer s
    (.outcome result, s)
  | .putLocal key payload max, s =>
    let (result, s) := (b.putLocal key payload max).answer s
    (.written (result.map some), s)
  | .deleteLocal key max, s =>
    let (result, s) := (b.deleteLocal key max).answer s
    (.written result, s)
  | .resolveLocal key payload max, s =>
    let (result, s) := (b.resolveLocal key payload max).answer s
    (.written (result.map some), s)
  | .get key, s =>
    let (result, s) := (b.get key).answer s
    (.record result, s)
  | .batch calls isCommitted, s =>
    let (result, s) := b.batch calls isCommitted s
    (.batch result, s)

/-- Runs uses one after the other and answers what each of them answered. -/
def runAll (b : Backend σ τ α ω) : List (Command α ω) → σ × ω → List (Reply α) × (σ × ω)
  | [], s => ([], s)
  | command :: rest, s =>
    let (reply, s) := command.run b s
    let (replies, s) := runAll b rest s
    (reply :: replies, s)

end Command

end ReplicaIntake
