import ReplicaIntake.Store.Command

/-!
# Sessions

A session is a transaction whose caller need not read the record that a conflict is about in the
same transaction: it may hand in any record, such as one that it read long before or one that it
made up. A history of sessions and uses of a store (`Turn.runAll`) is all that a store may go
through.
-/

namespace ReplicaIntake

/-- One step of a session. -/
inductive Step (α ω : Type) where
  | call (request : Call α ω)
  /-- Makes a conflict of the given record. -/
  | createConflict (key newShadow existingShadow : String) (existing : Record α)
  /-- Lists one more shadow in the marker that the given record holds. -/
  | extendConflict (key newShadow : String) (existing : Record α)

namespace Step

variable {σ τ α ω : Type}

/-- Runs a step in an open transaction. -/
def run (b : Backend σ τ α ω) : Step α ω → Op (τ × ω) CallError (Answer α)
  | .call request => request.run b
  | .createConflict key newShadow existingShadow existing => do
    pure (.conflict (← (b.createConflict key newShadow existingShadow existing).within .store))
  | .extendConflict key newShadow existing => do
    pure (.conflict (← (b.extendConflict key newShadow existing).within .store))

/-- Runs steps one after the other and answers what each of them answered or how it failed. -/
def runAll (b : Backend σ τ α ω) :
    List (Step α ω) → τ × ω → List (Except CallError (Answer α)) × (τ × ω)
  | [], t => ([], t)
  | step :: rest, t =>
    let (answer, t) := (step.run b).answer t
    let (answers, t) := runAll b rest t
    (answer :: answers, t)

end Step

/-- Runs steps in one transaction, which is then committed or abandoned. -/
def Backend.session {σ τ α ω : Type} (b : Backend σ τ α ω) (steps : List (Step α ω))
    (isCommitted : Bool) : σ × ω → BatchResult α × (σ × ω) := fun (s, w) =>
  match b.start s with
  | .error e => (⟨[], .notOpened e⟩, (s, w))
  | .ok t =>
    let (answers, t, w) := Step.runAll b steps (t, w)
    if isCommitted then
      match b.finish t with
      | .error e => (⟨answers, .notCommitted e⟩, (s, w))
      | .ok (s, queue) => (⟨answers, .committed⟩, (s, queue.run w))
    else (⟨answers, .abandoned⟩, (s, w))

/-- One transaction in the history of a store. -/
inductive Turn (α ω : Type) where
  | use (command : Command α ω)
  | session (steps : List (Step α ω)) (isCommitted : Bool)

namespace Turn

variable {σ τ α ω : Type}

/-- Runs one transaction. -/
def run (b : Backend σ τ α ω) : Turn α ω → σ × ω → Reply α × (σ × ω)
  | .use command, s => command.run b s
  | .session steps isCommitted, s =>
    let (result, s) := b.session steps isCommitted s
    (.batch result, s)

/-- Runs transactions one after the other and answers what each of them answered. -/
def runAll (b : Backend σ τ α ω) : List (Turn α ω) → σ × ω → List (Reply α) × (σ × ω)
  | [], s => ([], s)
  | turn :: rest, s =>
    let (reply, s) := turn.run b s
    let (replies, s) := runAll b rest s
    (reply :: replies, s)

end Turn

/-- A session by itself: its steps, and whether it ends well. -/
structure Session (α ω : Type) where
  steps : List (Step α ω)
  isCommitted : Bool := true

/-- The transaction that a session is. -/
def Session.turn {α ω : Type} (s : Session α ω) : Turn α ω := .session s.steps s.isCommitted

variable {σ τ α ω : Type}

/-! ## One part after the other -/

theorem Turn.runAll_append (b : Backend σ τ α ω) (first second : List (Turn α ω)) (s : σ × ω) :
    Turn.runAll b (first ++ second) s =
      ((Turn.runAll b first s).1 ++ (Turn.runAll b second (Turn.runAll b first s).2).1,
        (Turn.runAll b second (Turn.runAll b first s).2).2) := by
  induction first generalizing s with
  | nil => rfl
  | cons turn rest ih => simp only [List.cons_append, runAll, ih]

/-! ## Batches are sessions -/

theorem Step.runAll_calls (b : Backend σ τ α ω) (calls : List (Call α ω)) (x : τ × ω) :
    Step.runAll b (calls.map .call) x = Call.runAll b calls x := by
  induction calls generalizing x with
  | nil => rfl
  | cons call rest ih => simp only [List.map_cons, runAll, Call.runAll, ih, run]

/-- A batch is a session in which no record is handed in. -/
theorem Backend.session_calls (b : Backend σ τ α ω) (calls : List (Call α ω)) (isCommitted : Bool) :
    b.session (calls.map .call) isCommitted = b.batch calls isCommitted := by
  have hcalls : Step.runAll b (calls.map .call) = Call.runAll b calls :=
    funext (Step.runAll_calls b calls)
  unfold session
  rw [hcalls]
  rfl

end ReplicaIntake
