import ReplicaIntake.KeyMap
import ReplicaIntake.Storage

/-!
# Storages that fail on command

To see how an intake bears failures, the calls of each operation of a storage are counted from one,
and a plan says at which call of which operation something goes wrong: the call fails before it
reaches the storage, or another writer stores something between a reading and what follows from it.
-/

namespace ReplicaIntake

/-- What goes wrong at one call. -/
inductive Mishap (α : Type) where
  | failure
  /-- After the reading another writer stores data under the same key. -/
  | race (metadata : Metadata) (payload : α)

/-- Something that goes wrong at the `call`-th call of an operation. -/
structure PlannedFault (α : Type) where
  operation : String
  call : Nat
  mishap : Mishap α

/-- How often each operation has been called. -/
abbrev CallCounts := KeyMap Nat

namespace Storage

variable {σ α ω ε β : Type}

/-- What goes wrong at the given call, if anything. -/
def planned (plan : List (PlannedFault α)) (operation : String) (call : Nat) : Option (Mishap α) :=
  (plan.find? fun fault => fault.operation = operation && fault.call = call).map (·.mishap)

/-- Counts a call. It fails if that is planned, and otherwise acts on the storage knowing what else
is planned. -/
def counted (plan : List (PlannedFault α)) (failure : String → Nat → ε) (operation : String)
    (act : Option (Mishap α) → Op σ ε β) : Op (σ × CallCounts) ε β := fun (s, counts) =>
  let call := (counts.find? operation).getD 0 + 1
  let counts := counts.insert operation call
  match planned plan operation call with
  | some .failure => .error (failure operation call) (s, counts)
  | mishap =>
    match act mishap s with
    | .ok b s => .ok b (s, counts)
    | .error e s => .error e (s, counts)

/-- Reads a record, with another writer storing data right after if that is planned. -/
def raced (s : Storage σ α ω ε) (key : String) (mishap : Option (Mishap α)) :
    Op σ ε (Option (Record α)) := do
  let record ← s.get key
  match mishap with
  | some (.race metadata payload) => let _ ← s.put key none metadata payload
  | _ => pure ()
  pure record

/-- A storage whose calls go wrong as planned; `failure` is how a call fails. -/
def faulty (s : Storage σ α ω ε) (plan : List (PlannedFault α)) (failure : String → Nat → ε) :
    Storage (σ × CallCounts) α ω ε where
  kind := s.kind
  localId := s.localId
  get key := counted plan failure "get" (s.raced key)
  put key expected metadata payload :=
    counted plan failure "add" fun _ => s.put key expected metadata payload
  remove key expected := counted plan failure "delete_item" fun _ => s.remove key expected
  markDeleted key metadata := counted plan failure "mark" fun _ => s.markDeleted key metadata
  createConflict key newShadow existingShadow existing :=
    counted plan failure "create_conflict" fun _ =>
      s.createConflict key newShadow existingShadow existing
  extendConflict key newShadow existing :=
    counted plan failure "append" fun _ => s.extendConflict key newShadow existing
  onCommit action := fun (t, counts) => (s.onCommit action t, counts)

/-- An operation on a storage whose calls are counted, from no call on. -/
def fromNoCall (op : Op ((σ × CallCounts) × ω) ε β) : Op (σ × ω) ε β := fun (s, w) =>
  match op ((s, .empty), w) with
  | .ok b ((s, _), w) => .ok b (s, w)
  | .error e ((s, _), w) => .error e (s, w)

end Storage

end ReplicaIntake
