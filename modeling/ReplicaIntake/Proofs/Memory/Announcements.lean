import ReplicaIntake.Proofs.DueNotifications
import ReplicaIntake.Proofs.Memory.Histories
import ReplicaIntake.Proofs.Memory.Mirrors

/-!
# Observers are told of every conflict once

An intake announces a conflict exactly if that is due by its answer and by the markers before and
after (`notes_taken`). Announcements wait in the queue of the transaction (`offers_runAll`), so each
sink is offered the notifications that are due in committed transactions, once each and in their
order, and nothing else, whatever the sinks do with them (`notifications_exact`). Nor do the records
depend on it, as long as no trigger looks at what the sinks do.
-/

namespace ReplicaIntake

variable {α ω κ : Type}

open Op

/-- The offers of notifications to each of `n` sinks in turn. -/
def offersTo (n : Nat) (notes : List Notification) : List (Nat × Notification) :=
  notes.flatMap fun note => (List.range n).map (·, note)

namespace Memory

variable {kind : ItemKind} {localId key : String}

/-! ## §1 What an intake announces -/

/-- No notification is due for what is no conflict. -/
theorem dueFor_of_calm {operation : Operation} {before after : Option (Record α)}
    {answer : Except CallError (Answer α)} (h : answersConflict answer = false) :
    dueFor kind key operation before after answer = [] := by
  cases after <;> simp [dueFor, h]

/-- A notification is due if the conflict has become longer. -/
theorem dueFor_longer {operation : Operation} {existing r : Record α}
    {answer : Except CallError (Answer α)} (hconflict : answersConflict answer = true)
    (hlonger : existing.sides.length < r.sides.length) :
    dueFor kind key operation (some existing) (some r) answer =
      [⟨key, r.etag, r.sides, kind, operation⟩] :=
  if_pos ⟨hconflict, hlonger⟩

/-- What an intake answered, as a call answers it. -/
def answerOf (key : String) (result : Except (IntakeError StoreError) Outcome) :
    Except CallError (Answer α) :=
  match result with
  | .ok outcome => .ok (.outcome outcome)
  | .error e => .error (.intake key e)

/-- A contention announces what is due: the new marker if it lists more sides. -/
theorem notes_contended {side : Metadata} {payload : Option α} {existing : Record α}
    {operation : Operation} {m m' : Memory α} {result : Except (IntakeError StoreError) Outcome}
    {notes : List Notification} (hread : m.records.find? key = some existing)
    (h : Contended kind localId key side payload existing operation m result m' notes) :
    notes = dueFor kind key operation (m.records.find? key) (m'.records.find? key)
      (answerOf key result) := by
  rw [hread]
  cases h with
  | noSource _ => exact (dueFor_of_calm rfl).symm
  | collision _ => exact (dueFor_of_calm rfl).symm
  | @created source _ marker _ hlocal hplain hm hmarker =>
    subst hm hmarker
    have hpair := shadows_pair (@make_local_ne localId key source hlocal)
    rw [find?_withConflict, if_pos rfl, hpair, dueFor_longer rfl]
    · rfl
    · rw [sides_of_plain hplain]
      exact Nat.zero_lt_two
  | joined _ _ hmarker _ hm =>
    subst hm
    rw [find?_write, if_pos rfl, dueFor_longer rfl]
    · rfl
    · rw [sides_of_content hmarker, sides_of_content rfl, List.length_append]
      exact Nat.lt_succ_self _
  | @rewritten source _ _ _ hmarker _ =>
    -- the marker stays as it is
    have hsame : (m.withSide key source side payload).records.find? key = some existing := by
      rw [find?_withSide, if_neg (Ne.symm (ShadowKey.make_ne_primary key source)), hread]
    rw [hsame]
    simp [dueFor]
  | flagged _ _ _ _ => exact (dueFor_of_calm rfl).symm

/-- Triggers beside a list leave it alone. -/
theorem list_fire (ts : List (Trigger α ω)) (payload : α) (incoming : Metadata) (x : ω × κ) :
    (fire key payload incoming (ts.map Trigger.beside) x).2.2 = x.2 := by
  induction ts generalizing x with
  | nil => rfl
  | cons t rest ih =>
    obtain ⟨w, k⟩ := x
    rcases hverdict : t key payload incoming w with ⟨reason | _, v⟩
    · simp only [List.map_cons, fire, Trigger.beside, hverdict]
    · simp only [List.map_cons, fire, Trigger.beside, hverdict]
      exact ih (v, k)

section Taken

variable {i : Intake α ω} {f : Notifier ω → Notifier (ω × κ)} {m m' : Memory α} {x x' : ω × κ}
  {metadata incoming : Metadata} {payload : Option α} {existing : Record α}
  {resolution : Resolution α} {result : Except (IntakeError StoreError) Outcome}
  {notes : List Notification}

/-- A decision of the policy is no conflict. -/
theorem calm_settled
    (h : Settled (i.beside f) kind key incoming existing m x resolution result m' x') :
    answersConflict (answerOf key result : Except CallError (Answer α)) = false ∧ x'.2 = x.2 := by
  have hfired : ∀ (payload : α) {verdict : Except String Unit} {y : ω × κ},
      fire key payload incoming (if kind.runsTriggers then (i.beside f).triggers else []) x =
        (verdict, y) → y.2 = x.2 := by
    intro payload verdict y hfire
    split at hfire
    · rw [← list_fire i.triggers payload incoming x, ← congrArg (·.2.2) hfire]
      rfl
    · cases hfire
      rfl
  cases h with
  | removed metadata => exact ⟨rfl, rfl⟩
  | kept metadata payload hfire => exact ⟨rfl, hfired payload hfire⟩
  | refused metadata payload hfire => exact ⟨rfl, hfired payload hfire⟩

/-- An intake announces what is due, and leaves a list beside the world to those who are told. -/
theorem notes_taken
    (h : Taken (i.beside f) kind localId key m x metadata payload result m' notes x') :
    notes = dueFor kind key metadata.operation (m.records.find? key) (m'.records.find? key)
      (answerOf key result) ∧ x'.2 = x.2 := by
  cases h with
  | missingPayload _ _ => exact ⟨(dueFor_of_calm rfl).symm, rfl⟩
  | missingIdentity _ _ => exact ⟨(dueFor_of_calm rfl).symm, rfl⟩
  | created _ _ _ _ => exact ⟨(dueFor_of_calm rfl).symm, rfl⟩
  | ignored _ _ => exact ⟨(dueFor_of_calm rfl).symm, rfl⟩
  | met hread _ hmet =>
    cases hmet with
    | replayed _ => exact ⟨(dueFor_of_calm rfl).symm, rfl⟩
    | merged _ _ _ _ => exact ⟨(dueFor_of_calm rfl).symm, rfl⟩
    | contradicted _ _ => exact ⟨(dueFor_of_calm rfl).symm, rfl⟩
    | overwritten _ _ _ _ => exact ⟨(dueFor_of_calm rfl).symm, rfl⟩
    | deleted _ _ _ => exact ⟨(dueFor_of_calm rfl).symm, rfl⟩
    | stale _ _ => exact ⟨(dueFor_of_calm rfl).symm, rfl⟩
    | undecided _ _ => exact ⟨(dueFor_of_calm rfl).symm, rfl⟩
    | settled _ _ hsettled =>
      obtain ⟨hcalm, hlist⟩ := calm_settled hsettled
      exact ⟨(dueFor_of_calm hcalm).symm, hlist⟩
    | declined _ _ hcontended => exact ⟨notes_contended hread hcontended, rfl⟩
    | disputed _ _ _ hcontended => exact ⟨notes_contended hread hcontended, rfl⟩

end Taken

/-! ## §2 What a transaction has queued -/

section Queued

variable (kind localId) (sinks : List (Sink ω))

/-- The step beside the list of what is offered to the sinks. -/
abbrev numbered : Step α ω → Step α (ω × List (Nat × Notification)) :=
  Step.mapWorld (Intake.beside fun _ => Notifier.numbered sinks) CommitAction.beside

theorem adds_taken (i : Intake α ω) {t : Transaction α (ω × List (Nat × Notification))}
    {entries : List (Nat × Notification)} (h : t.pending.Adds entries) (m : Memory α)
    (notes : List Notification) :
    (t.taken (i.beside fun _ => Notifier.numbered sinks) m notes).pending.Adds
      (entries ++ offersTo sinks.length notes) := by
  induction notes generalizing t entries with
  | nil => simpa [offersTo, Transaction.replaced] using h
  | cons note rest ih =>
    -- the first announcement is pushed, the others follow
    have hfirst : (t.pending.push ((i.beside fun _ => Notifier.numbered sinks).announcement note)).Adds
        (entries ++ (List.range sinks.length).map (·, note)) := h.push fun w l =>
      congrArg Prod.snd (Notifier.raise_numbered sinks note w l)
    have hrest := @ih { t with pending := _ } _ hfirst
    simpa [Transaction.taken, PostCommit.push, offersTo] using hrest

/-- The call answers what the intake answered. -/
theorem answer_intakeCall {σ : Type} (op : Op (σ × ω) (IntakeError StoreError) Outcome) (x : σ × ω) :
    (Call.intakeCall key op : Op (σ × ω) CallError (Answer α)).answer x =
      (answerOf key (op.answer x).1, (op.answer x).2) := by
  simp only [Call.intakeCall]
  cases hrun : op x with
  | ok outcome y =>
    have hwrapped : op.wrapError (CallError.intake key) x = .ok outcome y := by simp only [wrapError, hrun]
    rw [answer_bind_of_ok hwrapped, answer_of_ok hrun]
    rfl
  | error e y =>
    have hwrapped : op.wrapError (CallError.intake key) x = .error (.intake key e) y := by
      simp only [wrapError, hrun]
    rw [answer_of_error (bind_of_error hwrapped), answer_of_error hrun]
    rfl

/-- What an intake queues is what is due for it. -/
theorem offers_replicate (i : Intake α ω) (key : String) (metadata : Metadata) (payload : Option α)
    {x : Transaction α (ω × List (Nat × Notification)) × (ω × List (Nat × Notification))}
    {entries : List (Nat × Notification)} (h : x.1.pending.Adds entries) :
    let r := (Call.intakeCall key ((i.beside fun _ => Notifier.numbered sinks).replicate
      (storage kind localId) key metadata payload) : Op _ CallError (Answer α)).answer x
    r.2.1.pending.Adds (entries ++ offersTo sinks.length
        (dueFor kind key metadata.operation (x.1.contents.records.find? key)
          (r.2.1.contents.records.find? key) r.1)) ∧
      r.2.2.2 = x.2.2 := by
  obtain ⟨result, m, notes, w', htaken, hanswer⟩ := replicate_taken
    (i.beside fun _ => Notifier.numbered sinks) kind localId key metadata payload x.1 x.2
  obtain ⟨hnotes, hlist⟩ := notes_taken htaken
  rw [answer_intakeCall, hanswer]
  refine ⟨?_, hlist⟩
  have hadds := adds_taken sinks i h m notes
  rw [hnotes] at hadds ⊢
  exact hadds

/-- The same for a put, of which metadata of a deletion is refused before anything is read. -/
theorem offers_put (i : Intake α ω) (key : String) (metadata : Metadata) (payload : α)
    {x : Transaction α (ω × List (Nat × Notification)) × (ω × List (Nat × Notification))}
    {entries : List (Nat × Notification)} (h : x.1.pending.Adds entries) :
    let r := (Call.intakeCall key ((i.beside fun _ => Notifier.numbered sinks).put
      (storage kind localId) key metadata payload) : Op _ CallError (Answer α)).answer x
    r.2.1.pending.Adds (entries ++ offersTo sinks.length
        (dueFor kind key .put (x.1.contents.records.find? key)
          (r.2.1.contents.records.find? key) r.1)) ∧
      r.2.2.2 = x.2.2 := by
  cases hdeleted : metadata.deleted with
  | true =>
    have hrefused : (i.beside fun _ => Notifier.numbered sinks).put (storage kind localId) key metadata
        payload x = .error .deleteMarkerOnPut x := by
      simp only [Intake.put, hdeleted, if_true, throw_apply]
    rw [answer_intakeCall, answer_of_error hrefused]
    refine ⟨?_, rfl⟩
    have hnone : dueFor kind key .put (x.1.contents.records.find? key)
        (x.1.contents.records.find? key) (answerOf key (.error .deleteMarkerOnPut)) = [] :=
      dueFor_of_calm rfl
    simp only [hnone]
    simpa [offersTo] using h
  | false =>
    rw [put_eq_replicate kind localId _ key payload hdeleted, ← Metadata.operation_of_put hdeleted]
    exact offers_replicate kind localId sinks i key metadata (some payload) h

/-- The transaction has queued these entries, and the list beside its world is `l`. Both
transactions of the relation are the same one. -/
structure Queued (l entries : List (Nat × Notification))
    (x x' : Transaction α (ω × List (Nat × Notification)) × (ω × List (Nat × Notification))) : Prop where
  same : x = x'
  listed : x.2.2 = l
  adds : x.1.pending.Adds entries

/-- A step that takes in no write queues nothing for the sinks. -/
theorem queued_step {step : Step α ω} (hstep : step.arrival? = none) (l entries) :
    Lockstep (Queued l entries) Any
      ((numbered sinks step).run (backend kind localId : Backend (Memory α) (Transaction α _) α _))
      ((numbered sinks step).run (backend kind localId)) := by
  have hmeets : step.Meets (fun _ => False) fun _ => True := by
    rcases step with request | _ | _
    · cases request <;> trivial
    · trivial
    · trivial
  refine (coupled_self kind localId (fun _ _ h => congrArg (·.1.contents) h.same) fun _ _ m h =>
      ⟨by rw [h.same], h.listed, h.adds⟩).lockstep_step (fun _ _ hi => hi) (fun _ _ hA => hA)
    (Step.paired_mapWorld (fun _ hi => hi.elim) (fun action _ => ?_) hmeets)
  rintro x _ ⟨rfl, hlisted, hadds⟩
  refine ⟨rfl, hlisted, ?_⟩
  rw [← List.append_nil entries]
  -- an action that does not see the list adds nothing to it
  exact hadds.push fun w k => (List.append_nil k).symm

/-- What a step queues is what is due for it. -/
theorem offers_step (step : Step α ω)
    {x : Transaction α (ω × List (Nat × Notification)) × (ω × List (Nat × Notification))}
    {entries : List (Nat × Notification)} (h : x.1.pending.Adds entries) :
    let y := (((numbered sinks step).run (backend kind localId)).answer x).2
    y.1.pending.Adds (entries ++ offersTo sinks.length
        ((numbered sinks step).due (backend kind localId) x)) ∧ y.2.2 = x.2.2 := by
  cases harrival : step.arrival? with
  | none =>
    -- a step that takes nothing in queues nothing of its own
    have hnone : (numbered sinks step).arrival? = none := by
      rcases step with request | _ | _
      · cases request <;> first | rfl | cases harrival
      · rfl
      · rfl
    obtain ⟨-, hqueued⟩ := answer_lockstep (queued_step kind localId sinks harrival x.2.2 entries)
      ⟨rfl, rfl, h⟩
    have hdue : (numbered sinks step).due (backend kind localId) x = [] := by
      simp only [Step.due, hnone]
    rw [hdue]
    exact ⟨by simpa [offersTo] using hqueued.adds, hqueued.listed⟩
  | some arrival =>
    rcases step with request | _ | _
    · cases request with
      | replicate i key metadata payload =>
        exact offers_replicate kind localId sinks i key metadata payload h
      | replicatePut i key metadata payload =>
        exact offers_put kind localId sinks i key metadata payload h
      | replicateDelete i key metadata =>
        exact offers_replicate kind localId sinks i key { metadata with deleted := true } none h
      | _ => cases harrival
    · cases harrival
    · cases harrival

/-- Steps one after the other queue what is due for them, in their order. -/
theorem offers_runAll (steps : List (Step α ω))
    {x : Transaction α (ω × List (Nat × Notification)) × (ω × List (Nat × Notification))}
    {entries : List (Nat × Notification)} (h : x.1.pending.Adds entries) :
    let y := (Step.runAll (backend kind localId) (steps.map (numbered sinks)) x).2
    y.1.pending.Adds (entries ++ offersTo sinks.length
        (Step.allDue (backend kind localId) (steps.map (numbered sinks)) x)) ∧ y.2.2 = x.2.2 := by
  induction steps generalizing x entries with
  | nil => exact ⟨by simpa [offersTo, Step.allDue, Step.runAll] using h, rfl⟩
  | cons step rest ih =>
    obtain ⟨hadds, hlist⟩ := offers_step kind localId sinks step h
    obtain ⟨hrest, hlists⟩ := ih hadds
    refine ⟨?_, hlists.trans hlist⟩
    have hdue : offersTo sinks.length
        (Step.allDue (backend kind localId) ((step :: rest).map (numbered sinks)) x) =
        offersTo sinks.length ((numbered sinks step).due (backend kind localId) x) ++
          offersTo sinks.length (Step.allDue (backend kind localId) (rest.map (numbered sinks))
            (((numbered sinks step).run (backend kind localId)).answer x).2) := List.flatMap_append
    rw [hdue, ← List.append_assoc]
    exact hrest

/-- Sessions of stores in memory can be opened and committed. -/
theorem due_session (s : Session α ω) (m : Memory α) (w : ω) :
    s.due (backend kind localId) (m, w) =
      if s.isCommitted then Step.allDue (backend kind localId) s.steps ({ contents := m }, w)
      else [] := by
  obtain ⟨steps, _ | _⟩ := s <;> rfl

/-- After a session the list has the offers that were due. -/
theorem offers_session (s : Session α ω) (m : Memory α) (w : ω) (l : List (Nat × Notification)) :
    (((s.beside fun _ => Notifier.numbered sinks).turn.run (backend kind localId) (m, (w, l))).2).2.2 =
      l ++ offersTo sinks.length ((s.beside fun _ => Notifier.numbered sinks).due
        (backend kind localId) (m, (w, l))) := by
  obtain ⟨steps, isCommitted⟩ := s
  obtain ⟨hadds, hlist⟩ := offers_runAll kind localId sinks steps
    (x := ({ contents := m }, (w, l))) PostCommit.adds_nothing
  rw [due_session]
  cases isCommitted with
  | false =>
    refine hlist.trans ?_
    simp [offersTo, Session.beside, Session.mapWorld]
  | true =>
    -- the list is as it was when the queue is run
    refine (hadds _ _).trans ?_
    exact congrArg (· ++ _) hlist

/-- After sessions the list has the offers that were due, in their order. -/
theorem offers_sessions (sessions : List (Session α ω)) (m : Memory α) (w : ω)
    (l : List (Nat × Notification)) :
    (Turn.runAll (backend kind localId)
        ((sessions.map (.beside fun _ => Notifier.numbered sinks)).map Session.turn)
        (m, (w, l))).2.2.2 =
      l ++ offersTo sinks.length (Session.allDue (backend kind localId)
        (sessions.map (.beside fun _ => Notifier.numbered sinks)) (m, (w, l))) := by
  induction sessions generalizing m w l with
  | nil => simp [Turn.runAll, Session.allDue, offersTo]
  | cons s rest ih =>
    have hfirst := offers_session kind localId sinks s m w l
    simp only [List.map_cons, Turn.runAll, Session.allDue]
    revert hfirst
    generalize (s.beside fun _ => Notifier.numbered sinks).turn.run (backend kind localId)
      (m, (w, l)) = r
    obtain ⟨reply, m', w', l'⟩ := r
    rintro rfl
    rw [ih m' w', List.append_assoc, offersTo, offersTo, offersTo, List.flatMap_append]

end Queued

/-! ## §3 Whole runs -/

section Runs

variable (kind localId) (sinks : List (Sink ω)) (sessions : List (Session α ω)) (m : Memory α) (w : ω)

/-- The list beside the world does not change the run. -/
theorem runSessions_numbered :
    let x := runSessions kind localId (sessions.map (.beside fun _ => Notifier.numbered sinks)) m (w, [])
    (x.1, x.2.1, x.2.2.1) = runSessions kind localId (sessions.map (.telling fun _ => ⟨sinks⟩)) m w :=
  runSessions_beside kind localId
    (fun _ note w l => congrArg Prod.fst (Notifier.raise_numbered sinks note w l)) sessions m w []

/-- The sinks are offered what is due. -/
theorem offered_eq :
    (runSessions kind localId (sessions.map (.beside fun _ => Notifier.numbered sinks)) m
        (w, [])).2.2.2 = offersTo sinks.length
      (Session.allDue (overlayBackend kind localId) (sessions.map (.telling fun _ => ⟨sinks⟩))
        (m, w)) := by
  have hraise : ∀ (_ : Notifier ω) note w (l : List (Nat × Notification)),
      ((Notifier.numbered sinks).raise note (w, l)).2.1 = (Notifier.raise ⟨sinks⟩ note w).2 :=
    fun _ note w l => congrArg Prod.fst (Notifier.raise_numbered sinks note w l)
  have hbeside : Session.allDue (backend kind localId)
        (sessions.map (.beside fun _ => Notifier.numbered sinks)) (m, (w, [])) =
      Session.allDue (backend kind localId) (sessions.map (.telling fun _ => ⟨sinks⟩)) (m, w) :=
    (mirrored_parallel kind localId _).allDue_eq (fun _ _ hi => coupled_of_mirrors kind localId hi)
      (fun _ _ haction => mirrored_push kind localId haction) (paired_beside hraise sessions) ⟨rfl, rfl⟩
  have hstaged : Session.allDue (overlayBackend kind localId)
        (sessions.map (.telling fun _ => ⟨sinks⟩)) (m, w) =
      Session.allDue (backend kind localId) (sessions.map (.telling fun _ => ⟨sinks⟩)) (m, w) :=
    (overlay_alike kind localId).allDue_eq (fun _ _ step _ => step.uses_any) rfl w
  rw [runSessions, overlay_runAll, offers_sessions, List.nil_append, hbeside, hstaged]

/-- The sink does nothing that can be seen through `view`. -/
def Sink.Spares {μ : Type} (view : ω → μ) (sink : Sink ω) : Prop :=
  ∀ note w, view (sink note w).2 = view w

/-- The triggers and actions of the session see the world only through `view`. -/
def Session.Sees {μ : Type} (view : ω → μ) (s : Session α ω) : Prop :=
  s.Meets (fun i => ∀ t ∈ i.triggers, Trigger.Mirrors (fun w w' => view w = view w') t t) fun action =>
    CommitAction.Mirrors (fun w w' => view w = view w') action action

theorem view_raise {μ : Type} {view : ω → μ} {sinks : List (Sink ω)}
    (hsinks : ∀ sink ∈ sinks, Sink.Spares view sink) (note : Notification) (w : ω) :
    view (Notifier.raise ⟨sinks⟩ note w).2 = view w := by
  rw [Notifier.world_raise]
  induction sinks generalizing w with
  | nil => rfl
  | cons sink rest ih =>
    obtain ⟨hsink, hrest⟩ := List.forall_mem_cons.1 hsinks
    exact (ih hrest _).trans (hsink note w)

/-- What sinks do is of no account for the replies and the records. -/
theorem runSessions_sinks {μ : Type} {view : ω → μ} {sinks sinks' : List (Sink ω)}
    (hsinks : ∀ sink ∈ sinks, Sink.Spares view sink) (hsinks' : ∀ sink ∈ sinks', Sink.Spares view sink)
    (hsessions : ∀ s ∈ sessions, Session.Sees view s) :
    (runSessions kind localId (sessions.map (.telling fun _ => ⟨sinks⟩)) m w).1 =
        (runSessions kind localId (sessions.map (.telling fun _ => ⟨sinks'⟩)) m w).1 ∧
      (runSessions kind localId (sessions.map (.telling fun _ => ⟨sinks⟩)) m w).2.1 =
        (runSessions kind localId (sessions.map (.telling fun _ => ⟨sinks'⟩)) m w).2.1 := by
  have hintake : ∀ i : Intake α ω,
      (∀ t ∈ i.triggers, Trigger.Mirrors (fun w w' => view w = view w') t t) →
      Intake.Mirrors (fun w w' => view w = view w') { i with notifier := ⟨sinks⟩ }
        { i with notifier := ⟨sinks'⟩ } := by
    intro i hi
    refine ⟨rfl, rfl, List.forall₂_same.2 hi, fun note w w' hw => ?_⟩
    rw [view_raise hsinks, view_raise hsinks', hw]
  have hpaired : List.Forall₂ (Session.Paired (fun _ => True)
        (Intake.Mirrors fun w w' => view w = view w')
        (CommitAction.Mirrors fun w w' => view w = view w'))
      (sessions.map (.telling fun _ => ⟨sinks⟩)) (sessions.map (.telling fun _ => ⟨sinks'⟩)) :=
    Session.paired_mapWorld hintake (fun (action : CommitAction ω)
      (haction : action.Mirrors (fun w w' => view w = view w') action) => haction) hsessions
  obtain ⟨hreplies, hstore, -⟩ := mirrored_runSessions kind localId hpaired m (rfl : view w = view w)
  exact ⟨hreplies, hstore⟩

/-- Sinks are called after the commit, so in one session nothing that they do can matter. -/
theorem runSession_sinks (s : Session α ω) (sinks sinks' : List (Sink ω)) :
    (runSessions kind localId [s.telling fun _ => ⟨sinks⟩] m w).1 =
        (runSessions kind localId [s.telling fun _ => ⟨sinks'⟩] m w).1 ∧
      (runSessions kind localId [s.telling fun _ => ⟨sinks⟩] m w).2.1 =
        (runSessions kind localId [s.telling fun _ => ⟨sinks'⟩] m w).2.1 := by
  -- two runs go alike in all but their queues, where what is told waits for the commit
  have hcoupled : Backend.Coupled (backend kind localId : Backend (Memory α) (Transaction α ω) α ω)
      (backend kind localId) (fun _ => True) fun x x' => x.1.contents = x'.1.contents ∧ x.2 = x'.2 :=
    coupled_self kind localId (fun _ _ h => h.1) fun _ _ _ h => ⟨rfl, h.2⟩
  have hintake : ∀ i : Intake α ω, True → Intake.Coupled (backend kind localId) (backend kind localId)
      (fun _ => True) (fun x x' : Transaction α ω × ω => x.1.contents = x'.1.contents ∧ x.2 = x'.2)
      { i with notifier := ⟨sinks⟩ } { i with notifier := ⟨sinks'⟩ } := by
    intro i _
    refine ⟨rfl, rfl, i.resolver.keeps_any, List.forall₂_same.2 fun t _ => ?_, fun _ _ _ h => h⟩
    rintro key a metadata - ⟨u, v⟩ ⟨u', _⟩ ⟨hcontents, rfl⟩
    exact .ok trivial ⟨hcontents, rfl⟩
  have hsteps : ∀ step ∈ s.steps, Step.Paired (fun _ => True) (Intake.Coupled (backend kind localId)
        (backend kind localId) (fun _ => True) fun x x' : Transaction α ω × ω =>
          x.1.contents = x'.1.contents ∧ x.2 = x'.2) (fun _ _ => True)
      (step.mapWorld (fun i => { i with notifier := ⟨sinks⟩ }) fun action => action)
      (step.mapWorld (fun i => { i with notifier := ⟨sinks'⟩ }) fun action => action) :=
    fun step hstep => Step.paired_mapWorld hintake (fun _ _ => trivial) (s.meets_any step hstep)
  obtain ⟨hanswers, hcontents, -⟩ := hcoupled.runAll_steps (fun _ _ h => h) (fun _ _ _ _ _ h => h)
    (List.forall₂_map_left_iff.2 (List.forall₂_map_right_iff.2 (List.forall₂_same.2 hsteps)))
    (x := ({ contents := m }, w)) ⟨rfl, rfl⟩
  simp only [runSessions, overlay_runAll]
  obtain ⟨steps, isCommitted⟩ := s
  cases isCommitted with
  | false => exact ⟨congrArg (fun answers => [Reply.batch ⟨answers, .abandoned⟩]) hanswers, rfl⟩
  | true => exact ⟨congrArg (fun answers => [Reply.batch ⟨answers, .committed⟩]) hanswers, hcontents⟩

/-- In a run whose intakes share a notifier with the given sinks, each sink is offered the
notifications that are due, in their order and once each, and nothing else. What a session replies
and commits does not depend on the sinks, and if triggers and other actions do not look at what
sinks do, neither do the replies and records of the whole run. -/
theorem notifications_exact :
    (let x := runSessions kind localId (sessions.map (.beside fun _ => Notifier.numbered sinks)) m (w, [])
     (x.1, x.2.1, x.2.2.1) = runSessions kind localId (sessions.map (.telling fun _ => ⟨sinks⟩)) m w ∧
       x.2.2.2 = offersTo sinks.length
         (Session.allDue (overlayBackend kind localId) (sessions.map (.telling fun _ => ⟨sinks⟩))
           (m, w))) ∧
      (∀ (s : Session α ω) (m : Memory α) (w : ω) (others : List (Sink ω)),
        (runSessions kind localId [s.telling fun _ => ⟨sinks⟩] m w).1 =
            (runSessions kind localId [s.telling fun _ => ⟨others⟩] m w).1 ∧
          (runSessions kind localId [s.telling fun _ => ⟨sinks⟩] m w).2.1 =
            (runSessions kind localId [s.telling fun _ => ⟨others⟩] m w).2.1) ∧
      ∀ (μ : Type) (view : ω → μ) (others : List (Sink ω)),
        (∀ sink ∈ sinks, Sink.Spares view sink) → (∀ sink ∈ others, Sink.Spares view sink) →
        (∀ s ∈ sessions, Session.Sees view s) →
        (runSessions kind localId (sessions.map (.telling fun _ => ⟨sinks⟩)) m w).1 =
            (runSessions kind localId (sessions.map (.telling fun _ => ⟨others⟩)) m w).1 ∧
          (runSessions kind localId (sessions.map (.telling fun _ => ⟨sinks⟩)) m w).2.1 =
            (runSessions kind localId (sessions.map (.telling fun _ => ⟨others⟩)) m w).2.1 := by
  refine ⟨⟨runSessions_numbered kind localId sinks sessions m w,
    offered_eq kind localId sinks sessions m w⟩, fun s m w others => ?_,
    fun μ view others hsinks hothers hsessions => ?_⟩
  · exact runSession_sinks kind localId m w s sinks others
  · exact runSessions_sinks kind localId sessions m w hsinks hothers hsessions

/-- A sink that counts what it takes. -/
def countingSink : Sink Nat := fun _ w => (.accepted, w + 1)

/-- A sink that breaks down after it has done something. -/
def crashingSink : Sink Nat := fun _ w => (.crashed, w + 100)

/-- Two puts of `k` come into conflict, one of them comes again, and its node writes once more. A
third side is rolled back. A deletion becomes the third side. -/
def conflictGrows : List (Session String Nat) :=
  [⟨[.call (.replicate {} "k" (.ofId "a" 1) (some "a1")),
      .call (.replicate {} "k" (.ofId "b" 1) (some "b1")),
      .call (.replicate {} "k" (.ofId "b" 1) (some "b1")),
      .call (.replicate {} "k" (.ofId "b" 2) (some "b2"))], true⟩,
    ⟨[.call (.replicate {} "k" (.ofId "c" 1) (some "c1"))], false⟩,
    ⟨[.call (.replicateDelete {} "k" (.ofId "d" 1))], true⟩]

/-- Both sinks are told of the conflict and of its third side, and of nothing else. Without sinks
the records are the same. -/
theorem conflict_told_twice :
    offersTo 2 (Session.allDue (overlayBackend .document "L")
        (conflictGrows.map (.telling fun _ => ⟨[countingSink, crashingSink]⟩)) ({}, 0)) =
      [(0, ⟨"k", ⟨4⟩, ["k/conflicts/L", "k/conflicts/b"], .document, .put⟩),
        (1, ⟨"k", ⟨4⟩, ["k/conflicts/L", "k/conflicts/b"], .document, .put⟩),
        (0, ⟨"k", ⟨7⟩, ["k/conflicts/L", "k/conflicts/b", "k/conflicts/d"], .document, .delete⟩),
        (1, ⟨"k", ⟨7⟩, ["k/conflicts/L", "k/conflicts/b", "k/conflicts/d"], .document, .delete⟩)] ∧
      (runSessions .document "L" (conflictGrows.map
          (.telling fun _ => ⟨[countingSink, crashingSink]⟩)) {} 0).2.1 =
        (runSessions .document "L" (conflictGrows.map (.telling fun _ => ⟨[]⟩)) {} 0).2.1 := by
  obtain ⟨⟨-, hoffered⟩, -, hrecords⟩ := notifications_exact .document "L"
    [countingSink, crashingSink] conflictGrows {} 0
  have hsees : ∀ s ∈ conflictGrows, Session.Sees (fun _ => ()) s := by
    simp [conflictGrows, Session.Sees, Session.Meets, Step.Meets, Call.Meets]
  exact ⟨hoffered.symm.trans (by decide +kernel), (hrecords Unit (fun _ => ()) [] (fun _ _ _ _ => rfl)
    (fun _ _ _ _ => rfl) hsees).2⟩

end Runs

end Memory

end ReplicaIntake
