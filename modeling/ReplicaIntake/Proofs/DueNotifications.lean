import ReplicaIntake.Proofs.LockstepRuns
import ReplicaIntake.Proofs.Memory.Ways

/-!
# Which notifications are due

Whether observers should be told of a write is a matter of what its intake answered and of the
marker under its key: they should if the answer is a conflict and the marker lists more sides than
before. So the notifications that are due can be read off a run from outside, by looking at the
answers and at the records before and after each step (`Step.due`), without regard to what the
intake does to announce them.

Backends in lockstep owe the same notifications (`Backend.Parallel.allDue_eq`).
-/

namespace ReplicaIntake

variable {α σ σ' τ τ' ω ω' : Type}

open Op

/-- The key and the operation of the write that the call takes in, if it takes in any. -/
def Call.arrival? : Call α ω → Option (String × Operation)
  | .replicate _ key metadata _ => some (key, metadata.operation)
  | .replicatePut _ key _ _ => some (key, .put)
  | .replicateDelete _ key _ => some (key, .delete)
  | _ => none

/-- The key and the operation of the write that the step takes in, if it takes in any. -/
def Step.arrival? : Step α ω → Option (String × Operation)
  | .call request => request.arrival?
  | .createConflict _ _ _ _ | .extendConflict _ _ _ => none

/-- An intake answered that the write ended up in a conflict. -/
def answersConflict : Except CallError (Answer α) → Bool
  | .ok (.outcome outcome) => outcome.isConflict
  | _ => false

/-- The record that an open transaction reads under a key. -/
def Backend.seen (b : Backend σ τ α ω) (key : String) (t : τ) : Option (Record α) :=
  match b.read key t with
  | .ok record _ => record
  | .error _ _ => none

/-- The notification that is due when the intake of a write to `key` was answered like this and left
the record `after` where `before` was. -/
def dueFor (kind : ItemKind) (key : String) (operation : Operation)
    (before after : Option (Record α)) (answer : Except CallError (Answer α)) : List Notification :=
  match after with
  | none => []
  | some r =>
    if answersConflict answer ∧ ((before.map Record.sides).getD []).length < r.sides.length then
      [⟨key, r.etag, r.sides, kind, operation⟩]
    else []

/-- The notification that is due after one step. -/
def Step.due (b : Backend σ τ α ω) (step : Step α ω) (x : τ × ω) : List Notification :=
  match step.arrival? with
  | none => []
  | some (key, operation) =>
    let (answer, y) := (step.run b).answer x
    dueFor b.kind key operation (b.seen key x.1) (b.seen key y.1) answer

/-- The notifications that are due after steps, in their order. -/
def Step.allDue (b : Backend σ τ α ω) : List (Step α ω) → τ × ω → List Notification
  | [], _ => []
  | step :: rest, x => step.due b x ++ allDue b rest ((step.run b).answer x).2

/-- The notifications that are due after a session: those of its steps, if it is committed. -/
def Session.due (b : Backend σ τ α ω) (s : Session α ω) (x : σ × ω) : List Notification :=
  match b.start x.1 with
  | .error _ => []
  | .ok t =>
    if (b.session s.steps s.isCommitted x).1.ending = .committed then Step.allDue b s.steps (t, x.2)
    else []

/-- The notifications that are due after sessions, in their order. -/
def Session.allDue (b : Backend σ τ α ω) : List (Session α ω) → σ × ω → List Notification
  | [], _ => []
  | s :: rest, x => s.due b x ++ allDue b rest (s.turn.run b x).2

/-! ## Backends in lockstep -/

variable {b : Backend σ τ α ω} {b' : Backend σ' τ' α ω'} {P : α → Prop}
  {I : Intake α ω → Intake α ω' → Prop} {A : CommitAction ω → CommitAction ω' → Prop}

theorem Step.Paired.arrival? {step : Step α ω} {step' : Step α ω'} (h : Step.Paired P I A step step') :
    step.arrival? = step'.arrival? := by
  cases h with
  | call hcall => cases hcall <;> rfl
  | createConflict _ => rfl
  | extendConflict _ _ _ => rfl

namespace Backend.Coupled

variable {R : τ × ω → τ' × ω' → Prop} (h : b.Coupled b' P R)

include h

theorem seen_eq {x : τ × ω} {x' : τ' × ω'} (hx : R x x') (key : String) :
    b.seen key x.1 = b'.seen key x'.1 := by
  have hread := h.read key x.2 x'.2 x.1 x'.1 hx
  simp only [seen]
  revert hread
  generalize b.read key x.1 = r
  generalize b'.read key x'.1 = r'
  rintro (_ | _) <;> rfl

variable (hI : ∀ i i', I i i' → Intake.Coupled b b' P R i i')
  (hA : ∀ action action', A action action' → action.Keeps b b' R action')

include hI hA

theorem due_eq {step : Step α ω} {step' : Step α ω'} (hstep : Step.Paired P I A step step')
    {x : τ × ω} {x' : τ' × ω'} (hx : R x x') : step.due b x = step'.due b' x' := by
  obtain ⟨hanswer, hstate⟩ := answer_lockstep (h.lockstep_step hI hA hstep) hx
  simp only [Step.due, hstep.arrival?]
  split
  · rfl
  · rw [h.kind, h.seen_eq hx, h.seen_eq hstate, hanswer]

theorem allDue_eq {steps : List (Step α ω)} {steps' : List (Step α ω')}
    (hsteps : List.Forall₂ (Step.Paired P I A) steps steps') {x : τ × ω} {x' : τ' × ω'}
    (hx : R x x') : Step.allDue b steps x = Step.allDue b' steps' x' := by
  induction hsteps generalizing x x' with
  | nil => rfl
  | cons hstep _ ih =>
    have hstate := (answer_lockstep (h.lockstep_step hI hA hstep) hx).2
    simp only [Step.allDue, h.due_eq hI hA hstep hx, ih hstate]

end Backend.Coupled

/-- Backends in lockstep owe the same notifications. -/
theorem Backend.Parallel.allDue_eq {C : σ × ω → σ' × ω' → Prop} {R : τ × ω → τ' × ω' → Prop}
    (h : b.Parallel b' P C R) (hI : ∀ i i', I i i' → Intake.Coupled b b' P R i i')
    (hA : ∀ action action', A action action' → action.Keeps b b' R action')
    {sessions : List (Session α ω)} {sessions' : List (Session α ω')}
    (hsessions : List.Forall₂ (Session.Paired P I A) sessions sessions') {x : σ × ω} {x' : σ' × ω'}
    (hx : C x x') : Session.allDue b sessions x = Session.allDue b' sessions' x' := by
  induction hsessions generalizing x x' with
  | nil => rfl
  | @cons s s' _ _ hs _ ih =>
    obtain ⟨steps, isCommitted⟩ := s
    obtain ⟨steps', _⟩ := s'
    obtain ⟨hsteps, rfl⟩ := hs
    obtain ⟨hresult, hstate⟩ := h.run_session hI hA hsteps isCommitted hx
    obtain ⟨t, t', hstart, hstart', ht⟩ := h.start x.1 x.2 x'.1 x'.2 hx
    have hdue : Session.due b ⟨steps, isCommitted⟩ x = Session.due b' ⟨steps', isCommitted⟩ x' := by
      simp only [Session.due, hresult, hstart, hstart', h.toCoupled.allDue_eq hI hA hsteps ht]
    rw [Session.allDue, Session.allDue, hdue]
    exact congrArg _ (ih hstate)

/-- Backends that do the same owe the same notifications. -/
theorem Backend.Alike.allDue_eq {b : Backend σ τ α ω} {b' : Backend σ' τ' α ω} {S : σ → σ' → Prop}
    {T : τ → τ' → Prop} (h : b.Alike b' P S T) {sessions : List (Session α ω)}
    (hsessions : ∀ s ∈ sessions, ∀ step ∈ s.steps, step.Uses P) {s : σ} {s' : σ'} (hs : S s s')
    (w : ω) : Session.allDue b sessions (s, w) = Session.allDue b' sessions (s', w) := by
  refine h.parallel.allDue_eq (fun i i' hi => ?_) (fun action action' haction => ?_)
    (List.forall₂_same.2 fun s hs => ⟨List.forall₂_same.2 fun step hstep =>
      Alike.paired_step (hsessions s hs step hstep), rfl⟩) ⟨hs, rfl⟩
  · obtain ⟨rfl, hkeeps⟩ := hi
    exact h.coupled hkeeps
  · obtain rfl := haction
    exact fun x x' hx => ⟨h.enqueue action _ _ hx.1, hx.2⟩

end ReplicaIntake
