import ReplicaIntake.Proofs.Lockstep
import ReplicaIntake.Store.Session

/-!
# Runs in lockstep

What two coupled backends do alike in an open transaction they do alike over whole histories, if
opening, committing and dropping a transaction keeps their committed states related
(`Backend.Parallel`). The two histories may differ in whom their intakes tell (`Turn.Paired`).

The usual case is that both backends run the same history in the same world (`Backend.Alike`): then
all replies are the same, and the world is the same afterwards (`Alike.runAll_eq`).
-/

namespace ReplicaIntake

variable {α σ σ' τ τ' ω ω' ε β : Type}

open Op

/-! ## §1 Calls -/

/-- Two calls that are the same but for their intakes, which `I` relates. Their payloads are in use,
and what they queue satisfies `A`. -/
inductive Call.Paired (P : α → Prop) (I : Intake α ω → Intake α ω' → Prop)
    (A : CommitAction ω → CommitAction ω' → Prop) :
    Call α ω → Call α ω' → Prop
  | replicate {i : Intake α ω} {i' : Intake α ω'} {key : String} {metadata : Metadata} {payload : Option α}
      (hi : I i i') (hpayload : ∀ a, payload = some a → P a) :
    Paired P I A (.replicate i key metadata payload) (.replicate i' key metadata payload)
  | replicatePut {i : Intake α ω} {i' : Intake α ω'} {key : String} {metadata : Metadata} {payload : α}
      (hi : I i i') (hpayload : P payload) :
    Paired P I A (.replicatePut i key metadata payload) (.replicatePut i' key metadata payload)
  | replicateDelete {i : Intake α ω} {i' : Intake α ω'} {key : String} {metadata : Metadata} (hi : I i i') :
    Paired P I A (.replicateDelete i key metadata) (.replicateDelete i' key metadata)
  | get (key : String) : Paired P I A (.get key) (.get key)
  | put {key : String} {expected : Option Etag} {metadata : Metadata} {payload : α}
      (hpayload : P payload) :
    Paired P I A (.put key expected metadata payload) (.put key expected metadata payload)
  | remove (key : String) (expected : Option Etag) :
    Paired P I A (.remove key expected) (.remove key expected)
  | markDeleted (key : String) (metadata : Metadata) :
    Paired P I A (.markDeleted key metadata) (.markDeleted key metadata)
  | createConflict (key newShadow existingShadow source : String) :
    Paired P I A (.createConflict key newShadow existingShadow source)
      (.createConflict key newShadow existingShadow source)
  | extendConflict (key newShadow source : String) :
    Paired P I A (.extendConflict key newShadow source) (.extendConflict key newShadow source)
  | nextVersion : Paired P I A .nextVersion .nextVersion
  | onCommit {action : CommitAction ω} {action' : CommitAction ω'} (haction : A action action') :
    Paired P I A (.onCommit action) (.onCommit action')

/-- Two steps that are the same but for the intakes of paired calls. -/
inductive Step.Paired (P : α → Prop) (I : Intake α ω → Intake α ω' → Prop)
    (A : CommitAction ω → CommitAction ω' → Prop) :
    Step α ω → Step α ω' → Prop
  | call {call : Call α ω} {call' : Call α ω'} (hcall : Call.Paired P I A call call') :
    Paired P I A (.call call) (.call call')
  | createConflict {key newShadow existingShadow : String} {existing : Record α}
      (hexisting : existing.Fits P) :
    Paired P I A (.createConflict key newShadow existingShadow existing)
      (.createConflict key newShadow existingShadow existing)
  | extendConflict (key newShadow : String) (existing : Record α) :
    Paired P I A (.extendConflict key newShadow existing) (.extendConflict key newShadow existing)

theorem Step.paired_calls {P : α → Prop} {I : Intake α ω → Intake α ω' → Prop}
    {A : CommitAction ω → CommitAction ω' → Prop} {calls : List (Call α ω)} {calls' : List (Call α ω')}
    (hcalls : List.Forall₂ (Call.Paired P I A) calls calls') :
    List.Forall₂ (Step.Paired P I A) (calls.map .call) (calls'.map .call) := by
  induction hcalls with
  | nil => exact .nil
  | cons hcall _ ih => exact .cons (.call hcall) ih

/-- Queueing the two actions keeps `R`. -/
def CommitAction.Keeps (b : Backend σ τ α ω) (b' : Backend σ' τ' α ω') (R : τ × ω → τ' × ω' → Prop)
    (action : CommitAction ω) (action' : CommitAction ω') : Prop :=
  ∀ x x', R x x' → R (b.enqueue action x.1, x.2) (b'.enqueue action' x'.1, x'.2)

namespace Backend.Coupled

variable {b : Backend σ τ α ω} {b' : Backend σ' τ' α ω'} {P : α → Prop} {R : τ × ω → τ' × ω' → Prop}
  {I : Intake α ω → Intake α ω' → Prop} {A : CommitAction ω → CommitAction ω' → Prop}

theorem lockstep_intakeCall (key : String) {op : Op (τ × ω) (IntakeError StoreError) Outcome}
    {op' : Op (τ' × ω') (IntakeError StoreError) Outcome} (hop : Lockstep R Any op op') :
    Lockstep R Any (Call.intakeCall key op : Op (τ × ω) CallError (Answer α))
      (Call.intakeCall key op') :=
  lockstep_bind (lockstep_wrapError _ hop) fun _ _ => lockstep_pure trivial

/-- An operation that answers with a function of what another one answers, put into a call. -/
theorem lockstep_answer {γ : Type} (f : γ → Answer α) {x : Op τ StoreError γ}
    {x' : Op τ' StoreError γ} {Q : γ → Prop} (hx : ∀ w w', Lockstep (Beside R w w') Q x x') :
    Lockstep R Any (do pure (f (← x.within CallError.store)) : Op (τ × ω) CallError (Answer α))
      (do pure (f (← x'.within CallError.store))) :=
  lockstep_bind (lockstep_within _ hx) fun _ _ => lockstep_pure trivial

variable (h : b.Coupled b' P R)

include h

theorem lockstep_about (source : String) {op : Record α → Op τ StoreError ConflictSummary}
    {op' : Record α → Op τ' StoreError ConflictSummary}
    (hop : ∀ existing : Record α, existing.Fits P → ∀ w w',
      Lockstep (Beside R w w') Any (op existing) (op' existing)) :
    Lockstep R Any (Call.about b source op : Op (τ × ω) CallError (Answer α))
      (Call.about b' source op') := by
  refine lockstep_bind (lockstep_within _ (h.read source)) fun existing hexisting => ?_
  cases existing with
  | none => exact lockstep_pure trivial
  | some existing => exact lockstep_answer .conflict (hop existing (hexisting existing rfl))

variable (hI : ∀ i i', I i i' → Intake.Coupled b b' P R i i')
  (hA : ∀ action action', A action action' → action.Keeps b b' R action')

include hI hA

/-- Paired calls go alike in both backends. -/
theorem lockstep_call {call : Call α ω} {call' : Call α ω'} (hcall : Call.Paired P I A call call') :
    Lockstep R Any (call.run b) (call'.run b') := by
  cases hcall with
  | replicate hi hpayload =>
    exact lockstep_intakeCall _ (Intake.Coupled.lockstep_replicate h (hI _ _ hi) _ _ hpayload)
  | replicatePut hi hpayload =>
    exact lockstep_intakeCall _ (Intake.Coupled.lockstep_put h (hI _ _ hi) _ _ hpayload)
  | replicateDelete hi =>
    exact lockstep_intakeCall _ (Intake.Coupled.lockstep_delete h (hI _ _ hi) _ _)
  | get key => exact lockstep_answer .record (h.read key)
  | put hpayload => exact lockstep_answer .etag fun w w' => h.lockstep_put w w' _ _ _ hpayload
  | remove key expected =>
    exact lockstep_answer (fun _ => .done) fun w w' => h.lockstep_remove w w' key expected
  | markDeleted key metadata =>
    exact lockstep_answer .etag fun w w' => h.lockstep_markDeleted w w' key metadata
  | createConflict key newShadow existingShadow source =>
    exact h.lockstep_about source fun existing hexisting w w' =>
      h.lockstep_createConflict w w' key newShadow existingShadow hexisting
  | extendConflict key newShadow source =>
    exact h.lockstep_about source fun existing _ w w' =>
      h.lockstep_extendConflict w w' key newShadow existing
  | nextVersion => exact lockstep_answer .version h.nextVersion
  | onCommit haction =>
    rintro ⟨t, w⟩ ⟨t', w'⟩ hs
    exact .ok trivial (hA _ _ haction _ _ hs)

/-- Paired steps go alike in both backends. -/
theorem lockstep_step {step : Step α ω} {step' : Step α ω'} (hstep : Step.Paired P I A step step') :
    Lockstep R Any (step.run b) (step'.run b') := by
  cases hstep with
  | call hcall => exact h.lockstep_call hI hA hcall
  | createConflict hexisting =>
    exact lockstep_answer .conflict fun w w' => h.lockstep_createConflict w w' _ _ _ hexisting
  | extendConflict key newShadow existing =>
    exact lockstep_answer .conflict fun w w' =>
      h.lockstep_extendConflict w w' key newShadow existing

/-- Paired steps, one after the other, answer alike and leave related states. -/
theorem runAll_steps {steps : List (Step α ω)} {steps' : List (Step α ω')}
    (hsteps : List.Forall₂ (Step.Paired P I A) steps steps') {x : τ × ω} {x' : τ' × ω'}
    (hx : R x x') :
    (Step.runAll b steps x).1 = (Step.runAll b' steps' x').1 ∧
      R (Step.runAll b steps x).2 (Step.runAll b' steps' x').2 := by
  induction hsteps generalizing x x' with
  | nil => exact ⟨rfl, hx⟩
  | cons hstep _ ih =>
    obtain ⟨hanswer, hstate⟩ := answer_lockstep (h.lockstep_step hI hA hstep) hx
    obtain ⟨hanswers, hstates⟩ := ih hstate
    exact ⟨List.cons_eq_cons.2 ⟨hanswer, hanswers⟩, hstates⟩

end Backend.Coupled

/-! ## §2 Transactions -/

/-- Coupled backends whose transactions keep the committed states related by `C`: when they are
opened, when they are committed and their queues run, and when they are dropped. -/
structure Backend.Parallel (b : Backend σ τ α ω) (b' : Backend σ' τ' α ω') (P : α → Prop)
    (C : σ × ω → σ' × ω' → Prop) (R : τ × ω → τ' × ω' → Prop) : Prop extends b.Coupled b' P R where
  start : ∀ s w s' w', C (s, w) (s', w') →
    ∃ t t', b.start s = .ok t ∧ b'.start s' = .ok t' ∧ R (t, w) (t', w')
  finish : ∀ t w t' w', R (t, w) (t', w') → ∃ s queue s' queue',
    b.finish t = .ok (s, queue) ∧ b'.finish t' = .ok (s', queue') ∧
      C (s, queue.run w) (s', queue'.run w')
  abandon : ∀ s w s' w' t v t' v', C (s, w) (s', w') → R (t, v) (t', v') → C (s, v) (s', v')

/-- Two uses of a store that are the same but for the intakes. -/
inductive Command.Paired (P : α → Prop) (I : Intake α ω → Intake α ω' → Prop)
    (A : CommitAction ω → CommitAction ω' → Prop) : Command α ω → Command α ω' → Prop
  | replicate {i : Intake α ω} {i' : Intake α ω'} {key : String} {metadata : Metadata} {payload : Option α}
      (hi : I i i') (hpayload : ∀ a, payload = some a → P a) :
    Paired P I A (.replicate i key metadata payload) (.replicate i' key metadata payload)
  | putLocal {key : String} {payload : α} {max : Nat} (hpayload : P payload) :
    Paired P I A (.putLocal key payload max) (.putLocal key payload max)
  | deleteLocal (key : String) (max : Nat) : Paired P I A (.deleteLocal key max) (.deleteLocal key max)
  | resolveLocal {key : String} {payload : Option α} {max : Nat}
      (hpayload : ∀ a, payload = some a → P a) :
    Paired P I A (.resolveLocal key payload max) (.resolveLocal key payload max)
  | get (key : String) : Paired P I A (.get key) (.get key)
  | batch {calls : List (Call α ω)} {calls' : List (Call α ω')} (isCommitted : Bool)
      (hcalls : List.Forall₂ (Call.Paired P I A) calls calls') :
    Paired P I A (.batch calls isCommitted) (.batch calls' isCommitted)

/-- Two sessions with paired steps that end alike. -/
structure Session.Paired (P : α → Prop) (I : Intake α ω → Intake α ω' → Prop)
    (A : CommitAction ω → CommitAction ω' → Prop) (s : Session α ω) (s' : Session α ω') : Prop where
  steps : List.Forall₂ (Step.Paired P I A) s.steps s'.steps
  isCommitted : s.isCommitted = s'.isCommitted

/-- Two transactions that are the same but for the intakes. -/
inductive Turn.Paired (P : α → Prop) (I : Intake α ω → Intake α ω' → Prop)
    (A : CommitAction ω → CommitAction ω' → Prop) :
    Turn α ω → Turn α ω' → Prop
  | use {command : Command α ω} {command' : Command α ω'} (hcommand : Command.Paired P I A command command') :
    Paired P I A (.use command) (.use command')
  | session {steps : List (Step α ω)} {steps' : List (Step α ω')} (isCommitted : Bool)
      (hsteps : List.Forall₂ (Step.Paired P I A) steps steps') :
    Paired P I A (.session steps isCommitted) (.session steps' isCommitted)

/-- The transactions of paired sessions are paired. -/
theorem Session.paired_turns {P : α → Prop} {I : Intake α ω → Intake α ω' → Prop}
    {A : CommitAction ω → CommitAction ω' → Prop} {sessions : List (Session α ω)}
    {sessions' : List (Session α ω')}
    (hsessions : List.Forall₂ (Session.Paired P I A) sessions sessions') :
    List.Forall₂ (Turn.Paired P I A) (sessions.map Session.turn) (sessions'.map Session.turn) := by
  rw [List.forall₂_map_left_iff, List.forall₂_map_right_iff]
  refine hsessions.imp ?_
  rintro ⟨steps, isCommitted⟩ ⟨steps', _⟩ ⟨hsteps, rfl⟩
  exact .session isCommitted hsteps

namespace Backend.Parallel

variable {b : Backend σ τ α ω} {b' : Backend σ' τ' α ω'} {P : α → Prop}
  {C : σ × ω → σ' × ω' → Prop} {R : τ × ω → τ' × ω' → Prop}
  {I : Intake α ω → Intake α ω' → Prop} {A : CommitAction ω → CommitAction ω' → Prop}

section Local

variable (h : b.Coupled b' P R) (w : ω) (w' : ω')

theorem lockstep_refuseConflicted {T : τ → τ' → Prop} (key : String)
    (existing : Option (Record α)) :
    Lockstep T Any (refuseConflicted key existing) (refuseConflicted key existing) := by
  unfold refuseConflicted
  split
  · exact lockstep_throw _
  · exact lockstep_pure trivial

include h

theorem lockstep_replace (key : String) (existing : Record α) (metadata : Metadata)
    {payload : Option α} (hpayload : ∀ a, payload = some a → P a) :
    Lockstep (Beside R w w') Any (b.replace key existing metadata payload)
      (b'.replace key existing metadata payload) := by
  cases payload with
  | some a =>
    exact lockstep_bind (h.lockstep_put w w' key _ metadata (hpayload a rfl)) fun _ _ =>
      lockstep_pure trivial
  | none =>
    exact lockstep_bind (h.lockstep_remove w w' key _) fun _ _ =>
      lockstep_bind (h.lockstep_markDeleted w w' key _) fun _ _ => lockstep_pure trivial

theorem lockstep_readSides (shadows : List String) :
    Lockstep (Beside R w w') Any (b.readSides shadows) (b'.readSides shadows) := by
  induction shadows with
  | nil => exact lockstep_pure trivial
  | cons shadow rest ih =>
    exact lockstep_bind (h.read shadow w w') fun _ _ => lockstep_bind ih fun _ _ =>
      lockstep_pure trivial

theorem lockstep_removeEach (keys : List String) :
    Lockstep (Beside R w w') Any (b.removeEach keys) (b'.removeEach keys) := by
  induction keys with
  | nil => exact lockstep_pure trivial
  | cons key rest ih => exact lockstep_bind (h.lockstep_remove w w' key none) fun _ _ => ih

end Local

variable (h : b.Parallel b' P C R)

include h

/-- A transaction goes alike in both backends if its body does. -/
theorem lockstep_transaction (wrap : StoreError → ε) {body : Op (τ × ω) ε β}
    {body' : Op (τ' × ω') ε β} (hbody : Lockstep R Any body body') :
    Lockstep C Any (b.transaction wrap body) (b'.transaction wrap body') := by
  rintro ⟨s, w⟩ ⟨s', w'⟩ hs
  obtain ⟨t, t', hstart, hstart', ht⟩ := h.start s w s' w' hs
  have hrun := hbody (t, w) (t', w') ht
  simp only [transaction, hstart, hstart']
  revert hrun
  generalize body (t, w) = r
  generalize body' (t', w') = r'
  rintro (@⟨answer, ⟨u, v⟩, ⟨u', v'⟩, -, hu⟩ | @⟨e, ⟨u, v⟩, ⟨u', v'⟩, hu⟩)
  · obtain ⟨s₁, queue, s₁', queue', hfinish, hfinish', hs₁⟩ := h.finish u v u' v' hu
    simp only [hfinish, hfinish']
    exact .ok trivial hs₁
  · exact .error (h.abandon s w s' w' u v u' v' hs hu)

theorem lockstep_transact {body : Op τ StoreError β} {body' : Op τ' StoreError β}
    (hbody : ∀ w w', Lockstep (Beside R w w') Any body body') :
    Lockstep C Any (b.transact body) (b'.transact body') :=
  h.lockstep_transaction id (lockstep_within id hbody)

theorem lockstep_get (key : String) : Lockstep C Any (b.get key) (b'.get key) :=
  h.lockstep_transact fun w w' => lockstep_mono (h.read key w w') fun _ _ => trivial

/-- Reading keys one after the other, each in a transaction of its own, answers alike. -/
theorem readEach_eq (keys : List String) {s : σ × ω} {s' : σ' × ω'} (hs : C s s') :
    (b.readEach keys s).1 = (b'.readEach keys s').1 := by
  induction keys generalizing s s' with
  | nil => rfl
  | cons key rest ih =>
    obtain ⟨hanswer, hstate⟩ := answer_lockstep (h.lockstep_get key) hs
    exact List.cons_eq_cons.2 ⟨congrArg (key, ·) hanswer, ih hstate⟩

theorem lockstep_putLocal (key : String) {payload : α} (hpayload : P payload) (max : Nat) :
    Lockstep C Any (b.putLocal key payload max) (b'.putLocal key payload max) := by
  refine h.lockstep_transact fun w w' => lockstep_bind (h.read key w w') fun existing _ =>
    lockstep_bind (lockstep_refuseConflicted key existing) fun _ _ =>
      lockstep_bind (h.nextVersion w w') fun version _ => ?_
  rw [h.localId]
  exact lockstep_bind (h.toCoupled.lockstep_put w w' key _ _ hpayload) fun _ _ =>
    lockstep_pure trivial

theorem lockstep_deleteLocal (key : String) (max : Nat) :
    Lockstep C Any (b.deleteLocal key max) (b'.deleteLocal key max) := by
  refine h.lockstep_transact fun w w' => lockstep_bind (h.read key w w') fun existing _ => ?_
  cases existing with
  | none => exact lockstep_pure trivial
  | some existing =>
    refine lockstep_bind (lockstep_refuseConflicted key (some existing)) fun _ _ =>
      lockstep_bind (h.nextVersion w w') fun version _ => ?_
    rw [h.localId]
    exact lockstep_bind
      (lockstep_replace h.toCoupled w w' key existing _ fun a ha => by cases ha)
      fun _ _ => lockstep_pure trivial

theorem lockstep_resolveLocal (key : String) {payload : Option α}
    (hpayload : ∀ a, payload = some a → P a) (max : Nat) :
    Lockstep C Any (b.resolveLocal key payload max) (b'.resolveLocal key payload max) := by
  refine h.lockstep_transact fun w w' => lockstep_bind (h.read key w w') fun existing _ => ?_
  cases existing with
  | none => exact lockstep_throw _
  | some existing =>
    dsimp only
    split
    · exact lockstep_throw _
    · rename_i marker _
      refine lockstep_bind (lockstep_readSides h.toCoupled w w' marker.shadows) fun sides _ =>
        lockstep_bind (h.nextVersion w w') fun version _ => ?_
      simp only [resolvedMetadata, h.localId]
      exact lockstep_bind (lockstep_replace h.toCoupled w w' key existing _ hpayload) fun _ _ =>
        lockstep_bind (lockstep_removeEach h.toCoupled w w' marker.shadows) fun _ _ =>
          lockstep_pure trivial

variable (hI : ∀ i i', I i i' → Intake.Coupled b b' P R i i')
  (hA : ∀ action action', A action action' → action.Keeps b b' R action')

include hI

theorem lockstep_replicate {i : Intake α ω} {i' : Intake α ω'} (hi : I i i') (key : String) (metadata : Metadata)
    {payload : Option α} (hpayload : ∀ a, payload = some a → P a) :
    Lockstep C Any (b.replicate i key metadata payload) (b'.replicate i' key metadata payload) :=
  h.lockstep_transaction _
    (Intake.Coupled.lockstep_replicate h.toCoupled (hI i i' hi) key metadata hpayload)

include hA

theorem run_session {steps : List (Step α ω)} {steps' : List (Step α ω')}
    (hsteps : List.Forall₂ (Step.Paired P I A) steps steps') (isCommitted : Bool) {s : σ × ω}
    {s' : σ' × ω'} (hs : C s s') :
    (b.session steps isCommitted s).1 = (b'.session steps' isCommitted s').1 ∧
      C (b.session steps isCommitted s).2 (b'.session steps' isCommitted s').2 := by
  obtain ⟨s, w⟩ := s
  obtain ⟨s', w'⟩ := s'
  obtain ⟨t, t', hstart, hstart', ht⟩ := h.start s w s' w' hs
  obtain ⟨hanswers, hstates⟩ := h.toCoupled.runAll_steps hI hA hsteps ht
  simp only [session, hstart, hstart']
  revert hanswers hstates
  generalize Step.runAll b steps (t, w) = r
  generalize Step.runAll b' steps' (t', w') = r'
  obtain ⟨answers, u, v⟩ := r
  obtain ⟨answers', u', v'⟩ := r'
  rintro rfl hu
  cases isCommitted with
  | false => exact ⟨rfl, h.abandon s w s' w' u v u' v' hs hu⟩
  | true =>
    obtain ⟨s₁, queue, s₁', queue', hfinish, hfinish', hs₁⟩ := h.finish u v u' v' hu
    simp only [if_true, hfinish, hfinish', true_and]
    exact hs₁

/-- Paired uses reply alike in both backends and leave related states. -/
theorem run_command {command : Command α ω} {command' : Command α ω'}
    (hcommand : Command.Paired P I A command command') {s : σ × ω} {s' : σ' × ω'} (hs : C s s') :
    (command.run b s).1 = (command'.run b' s').1 ∧ C (command.run b s).2 (command'.run b' s').2 := by
  cases hcommand with
  | replicate hi hpayload =>
    obtain ⟨hanswer, hstate⟩ := answer_lockstep (h.lockstep_replicate hI hi _ _ hpayload) hs
    exact ⟨congrArg Reply.outcome hanswer, hstate⟩
  | putLocal hpayload =>
    obtain ⟨hanswer, hstate⟩ := answer_lockstep (h.lockstep_putLocal _ hpayload _) hs
    exact ⟨congrArg (fun r : Except StoreError Metadata => Reply.written (r.map some)) hanswer, hstate⟩
  | deleteLocal key max =>
    obtain ⟨hanswer, hstate⟩ := answer_lockstep (h.lockstep_deleteLocal key max) hs
    exact ⟨congrArg Reply.written hanswer, hstate⟩
  | resolveLocal hpayload =>
    obtain ⟨hanswer, hstate⟩ := answer_lockstep (h.lockstep_resolveLocal _ hpayload _) hs
    exact ⟨congrArg (fun r : Except StoreError Metadata => Reply.written (r.map some)) hanswer, hstate⟩
  | get key =>
    obtain ⟨hanswer, hstate⟩ := answer_lockstep (h.lockstep_get key) hs
    exact ⟨congrArg Reply.record hanswer, hstate⟩
  | batch isCommitted hcalls =>
    obtain ⟨hresult, hstate⟩ := h.run_session hI hA (Step.paired_calls hcalls) isCommitted hs
    simp only [session_calls] at hresult hstate
    exact ⟨congrArg Reply.batch hresult, hstate⟩

/-- Paired transactions reply alike in both backends and leave related states. -/
theorem run_turn {turn : Turn α ω} {turn' : Turn α ω'} (hturn : Turn.Paired P I A turn turn') {s : σ × ω}
    {s' : σ' × ω'} (hs : C s s') :
    (turn.run b s).1 = (turn'.run b' s').1 ∧ C (turn.run b s).2 (turn'.run b' s').2 := by
  cases hturn with
  | use hcommand => exact h.run_command hI hA hcommand hs
  | session isCommitted hsteps =>
    obtain ⟨hresult, hstate⟩ := h.run_session hI hA hsteps isCommitted hs
    exact ⟨congrArg Reply.batch hresult, hstate⟩

/-- Paired histories get the same replies from both backends and leave related states. -/
theorem runAll_turns {turns : List (Turn α ω)} {turns' : List (Turn α ω')}
    (hturns : List.Forall₂ (Turn.Paired P I A) turns turns') {s : σ × ω} {s' : σ' × ω'} (hs : C s s') :
    (Turn.runAll b turns s).1 = (Turn.runAll b' turns' s').1 ∧
      C (Turn.runAll b turns s).2 (Turn.runAll b' turns' s').2 := by
  induction hturns generalizing s s' with
  | nil => exact ⟨rfl, hs⟩
  | cons hturn _ ih =>
    obtain ⟨hreply, hstate⟩ := h.run_turn hI hA hturn hs
    obtain ⟨hreplies, hstates⟩ := ih hstate
    exact ⟨List.cons_eq_cons.2 ⟨hreply, hreplies⟩, hstates⟩

end Backend.Parallel

/-! ## §3 The same history in the same world -/

/-- The payloads that the call brings are in use, and its resolver keeps to payloads in use. -/
def Call.Uses (P : α → Prop) : Call α ω → Prop
  | .replicate i _ _ payload => i.resolver.Keeps P ∧ ∀ a, payload = some a → P a
  | .replicatePut i _ _ payload => i.resolver.Keeps P ∧ P payload
  | .replicateDelete i _ _ => i.resolver.Keeps P
  | .put _ _ _ payload => P payload
  | _ => True

/-- The payloads that the use of the store brings are in use, and its resolvers keep to payloads in
use. -/
def Command.Uses (P : α → Prop) : Command α ω → Prop
  | .replicate i _ _ payload => i.resolver.Keeps P ∧ ∀ a, payload = some a → P a
  | .putLocal _ payload _ => P payload
  | .resolveLocal _ payload _ => ∀ a, payload = some a → P a
  | .batch calls _ => ∀ call ∈ calls, call.Uses P
  | _ => True

/-- The payloads that the step brings are in use, and its resolver keeps to payloads in use. -/
def Step.Uses (P : α → Prop) : Step α ω → Prop
  | .call request => request.Uses P
  | .createConflict _ _ _ existing => existing.Fits P
  | .extendConflict _ _ _ => True

/-- The payloads that the transaction brings are in use, and its resolvers keep to payloads in
use. -/
def Turn.Uses (P : α → Prop) : Turn α ω → Prop
  | .use command => command.Uses P
  | .session steps _ => ∀ step ∈ steps, step.Uses P

/-- Where nothing is asked of payloads, every record has one in use. -/
theorem Record.fits_any (r : Record α) : r.Fits fun _ => True := by
  cases hcontent : r.content <;> simp [Record.Fits, Content.Fits, hcontent]

/-- Where nothing is asked of payloads, a resolver cannot fail to keep to them. -/
theorem Resolver.keeps_any (resolver : Resolver α) : resolver.Keeps fun _ => True := by
  intro key incoming payload existing resolution _ _ _
  cases resolution <;> trivial

theorem Call.uses_any (call : Call α ω) : call.Uses fun _ => True := by
  cases call <;> simp [Call.Uses, Resolver.keeps_any]

theorem Step.uses_any (step : Step α ω) : step.Uses fun _ => True := by
  cases step <;> simp [Step.Uses, Record.fits_any, Call.uses_any]

/-- Where nothing is asked of payloads, every transaction may be made. -/
theorem Turn.uses_any (turn : Turn α ω) : turn.Uses fun _ => True := by
  cases turn with
  | use command => cases command <;> simp [Turn.Uses, Command.Uses, Resolver.keeps_any, Call.uses_any]
  | session steps isCommitted => exact fun step _ => step.uses_any

/-- States tied together by `T`, in the same world. -/
def Tied (T : τ → τ' → Prop) (x : τ × ω) (x' : τ' × ω) : Prop := T x.1 x'.1 ∧ x.2 = x'.2

/-- Two backends that do the same, for payloads in use: `S` ties their committed states together and
`T` those of open transactions. Both hand back the same queue when they commit. -/
structure Backend.Alike (b : Backend σ τ α ω) (b' : Backend σ' τ' α ω) (P : α → Prop)
    (S : σ → σ' → Prop) (T : τ → τ' → Prop) : Prop where
  kind : b.kind = b'.kind
  localId : b.localId = b'.localId
  start : ∀ s s', S s s' → ∃ t t', b.start s = .ok t ∧ b'.start s' = .ok t' ∧ T t t'
  finish : ∀ t t', T t t' →
    ∃ s s' queue, b.finish t = .ok (s, queue) ∧ b'.finish t' = .ok (s', queue) ∧ S s s'
  read : ∀ key, Lockstep T (fun r => ∀ x, r = some x → x.Fits P) (b.read key) (b'.read key)
  write : ∀ key content metadata, content.Fits P →
    Lockstep T Any (b.write key content metadata) (b'.write key content metadata)
  erase : ∀ key, Lockstep T Any (b.erase key) (b'.erase key)
  nextVersion : Lockstep T Any b.nextVersion b'.nextVersion
  enqueue : ∀ action t t', T t t' → T (b.enqueue action t) (b'.enqueue action t')

namespace Backend.Alike

variable {b : Backend σ τ α ω} {b' : Backend σ' τ' α ω} {P : α → Prop} {S : σ → σ' → Prop}
  {T : τ → τ' → Prop}

/-- Operations that keep states tied keep them tied beside the same world. -/
theorem lockstep_beside {γ : Type} {Q : γ → Prop} {x : Op τ ε γ} {x' : Op τ' ε γ}
    (hx : Lockstep T Q x x') (w w' : ω) : Lockstep (Beside (Tied T) w w') Q x x' := by
  rintro t t' ⟨ht, hw⟩
  have h := hx t t' ht
  revert h
  generalize x t = r
  generalize x' t' = r'
  rintro (⟨hb, hu⟩ | hu)
  · exact .ok hb ⟨hu, hw⟩
  · exact .error ⟨hu, hw⟩

theorem parallel (h : b.Alike b' P S T) : b.Parallel b' P (Tied S) (Tied T) where
  kind := h.kind
  localId := h.localId
  read key w w' := lockstep_beside (h.read key) w w'
  write key content metadata w w' hcontent :=
    lockstep_beside (h.write key content metadata hcontent) w w'
  erase key w w' := lockstep_beside (h.erase key) w w'
  nextVersion w w' := lockstep_beside h.nextVersion w w'
  start := by
    rintro s w s' w' ⟨hs, hw⟩
    obtain ⟨t, t', hstart, hstart', ht⟩ := h.start s s' hs
    exact ⟨t, t', hstart, hstart', ht, hw⟩
  finish := by
    rintro t w t' w' ⟨ht, hw⟩
    obtain ⟨s, s', queue, hfinish, hfinish', hs⟩ := h.finish t t' ht
    exact ⟨s, queue, s', queue, hfinish, hfinish', hs, congrArg queue.run hw⟩
  abandon := by
    rintro s w s' w' t v t' v' ⟨hs, -⟩ ⟨-, hv⟩
    exact ⟨hs, hv⟩

/-- An intake whose resolver keeps to payloads in use is coupled with itself: both backends see the
same world, so the triggers answer the same. -/
theorem coupled (h : b.Alike b' P S T) {i : Intake α ω} (hi : i.resolver.Keeps P) :
    Intake.Coupled b b' P (Tied T) i i where
  config := rfl
  resolver := rfl
  keeps := hi
  fired := List.forall₂_same.2 fun trigger _ => by
    rintro key a metadata - ⟨t, w⟩ ⟨t', w'⟩ ⟨ht, hw⟩
    obtain rfl : w = w' := hw
    exact .ok trivial ⟨ht, rfl⟩
  announced _ _ _ hx := ⟨h.enqueue _ _ _ hx.1, hx.2⟩

theorem paired_call {call : Call α ω} (hcall : call.Uses P) :
    Call.Paired P (fun i i' => i = i' ∧ i.resolver.Keeps P) Eq call call := by
  cases call with
  | replicate i key metadata payload => exact .replicate ⟨rfl, hcall.1⟩ hcall.2
  | replicatePut i key metadata payload => exact .replicatePut ⟨rfl, hcall.1⟩ hcall.2
  | replicateDelete i key metadata => exact .replicateDelete ⟨rfl, hcall⟩
  | get key => exact .get key
  | put key expected metadata payload => exact .put hcall
  | remove key expected => exact .remove key expected
  | markDeleted key metadata => exact .markDeleted key metadata
  | createConflict key newShadow existingShadow source =>
    exact .createConflict key newShadow existingShadow source
  | extendConflict key newShadow source => exact .extendConflict key newShadow source
  | nextVersion => exact .nextVersion
  | onCommit action => exact .onCommit rfl

theorem paired_command {command : Command α ω} (hcommand : command.Uses P) :
    Command.Paired P (fun i i' => i = i' ∧ i.resolver.Keeps P) Eq command command := by
  cases command with
  | replicate i key metadata payload => exact .replicate ⟨rfl, hcommand.1⟩ hcommand.2
  | putLocal key payload max => exact .putLocal hcommand
  | deleteLocal key max => exact .deleteLocal key max
  | resolveLocal key payload max => exact .resolveLocal hcommand
  | get key => exact .get key
  | batch calls isCommitted =>
    exact .batch isCommitted (List.forall₂_same.2 fun call hcall => paired_call (hcommand call hcall))

theorem paired_step {step : Step α ω} (hstep : step.Uses P) :
    Step.Paired P (fun i i' => i = i' ∧ i.resolver.Keeps P) Eq step step := by
  cases step with
  | call request => exact .call (paired_call hstep)
  | createConflict key newShadow existingShadow existing => exact .createConflict hstep
  | extendConflict key newShadow existing => exact .extendConflict key newShadow existing

theorem paired_turn {turn : Turn α ω} (hturn : turn.Uses P) :
    Turn.Paired P (fun i i' => i = i' ∧ i.resolver.Keeps P) Eq turn turn := by
  cases turn with
  | use command => exact .use (paired_command hturn)
  | session steps isCommitted =>
    exact .session isCommitted (List.forall₂_same.2 fun step hstep => paired_step (hturn step hstep))

/-- Both backends give the same replies to a history and leave the same world, and their committed
states stay tied together. -/
theorem runAll_eq (h : b.Alike b' P S T) {turns : List (Turn α ω)}
    (hturns : ∀ turn ∈ turns, turn.Uses P) {s : σ} {s' : σ'} (hs : S s s') (w : ω) :
    (Turn.runAll b turns (s, w)).1 = (Turn.runAll b' turns (s', w)).1 ∧
      S (Turn.runAll b turns (s, w)).2.1 (Turn.runAll b' turns (s', w)).2.1 ∧
      (Turn.runAll b turns (s, w)).2.2 = (Turn.runAll b' turns (s', w)).2.2 := by
  refine h.parallel.runAll_turns (A := Eq) ?_ ?_
    (List.forall₂_same.2 fun turn hturn => paired_turn (hturns turn hturn)) ⟨hs, rfl⟩
  · rintro i _ ⟨rfl, hi⟩
    exact h.coupled hi
  · rintro action _ rfl x x' hx
    exact ⟨h.enqueue action _ _ hx.1, hx.2⟩

/-- Stores that list the same keys are read as the same. -/
theorem readAll_eq (h : b.Alike b' P S T) {s : σ} {s' : σ'} (hkeys : b.keys s = b'.keys s')
    (hs : S s s') (w : ω) : (b.readAll (s, w)).1 = (b'.readAll (s', w)).1 := by
  unfold readAll listKeys answer
  dsimp only
  rw [← hkeys]
  cases b.keys s with
  | error e => rfl
  | ok keys => exact congrArg Except.ok (h.parallel.readEach_eq keys ⟨hs, rfl⟩)

end Backend.Alike

end ReplicaIntake
