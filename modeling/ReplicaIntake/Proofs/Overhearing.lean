import ReplicaIntake.Store.Session

/-!
# Overhearing notifications

To say which notifications are raised, and to whom they are offered, the world is given a list of
entries beside it. Triggers and queued actions do not see the list; a sink may be wrapped so that it
adds an entry for every notification that it is offered, whatever else it does (`Sink.noting`). A
run in the wider world is a run of the same intakes, and its list tells what has been going on.
-/

namespace ReplicaIntake

variable {α ω ω' κ ν : Type}

/-! ## §1 Into another world -/

/-- The call with its intake and its action put into another world. -/
def Call.mapWorld (f : Intake α ω → Intake α ω') (g : CommitAction ω → CommitAction ω') :
    Call α ω → Call α ω'
  | .replicate i key metadata payload => .replicate (f i) key metadata payload
  | .replicatePut i key metadata payload => .replicatePut (f i) key metadata payload
  | .replicateDelete i key metadata => .replicateDelete (f i) key metadata
  | .get key => .get key
  | .put key expected metadata payload => .put key expected metadata payload
  | .remove key expected => .remove key expected
  | .markDeleted key metadata => .markDeleted key metadata
  | .createConflict key newShadow existingShadow source =>
    .createConflict key newShadow existingShadow source
  | .extendConflict key newShadow source => .extendConflict key newShadow source
  | .nextVersion => .nextVersion
  | .onCommit action => .onCommit (g action)

/-- The step with its intake and its action put into another world. -/
def Step.mapWorld (f : Intake α ω → Intake α ω') (g : CommitAction ω → CommitAction ω') :
    Step α ω → Step α ω'
  | .call request => .call (request.mapWorld f g)
  | .createConflict key newShadow existingShadow existing =>
    .createConflict key newShadow existingShadow existing
  | .extendConflict key newShadow existing => .extendConflict key newShadow existing

/-- The session with its steps put into another world. -/
def Session.mapWorld (f : Intake α ω → Intake α ω') (g : CommitAction ω → CommitAction ω')
    (s : Session α ω) : Session α ω' :=
  ⟨s.steps.map (Step.mapWorld f g), s.isCommitted⟩

theorem Session.mapWorld_self (s : Session α ω) : s.mapWorld (fun i => i) (fun action => action) = s := by
  obtain ⟨steps, isCommitted⟩ := s
  have hstep : ∀ step : Step α ω, step.mapWorld (fun i => i) (fun action => action) = step := by
    rintro (request | _ | _)
    · cases request <;> rfl
    · rfl
    · rfl
  simp only [mapWorld, funext hstep, List.map_id']

/-- The intake of the call, if it has one, satisfies `p`, and the action that it queues `q`. -/
def Call.Meets (p : Intake α ω → Prop) (q : CommitAction ω → Prop) : Call α ω → Prop
  | .replicate i _ _ _ | .replicatePut i _ _ _ | .replicateDelete i _ _ => p i
  | .onCommit action => q action
  | _ => True

/-- The intake of the step, if it has one, satisfies `p`, and the action that it queues `q`. -/
def Step.Meets (p : Intake α ω → Prop) (q : CommitAction ω → Prop) : Step α ω → Prop
  | .call request => request.Meets p q
  | .createConflict _ _ _ _ | .extendConflict _ _ _ => True

/-- The steps of the session meet the two conditions. -/
def Session.Meets (p : Intake α ω → Prop) (q : CommitAction ω → Prop) (s : Session α ω) : Prop :=
  ∀ step ∈ s.steps, step.Meets p q

theorem Session.meets_any (s : Session α ω) : s.Meets (fun _ => True) fun _ => True := by
  rintro (request | _ | _) -
  · cases request <;> trivial
  · trivial
  · trivial

/-! ## §2 A list beside the world -/

/-- The trigger beside a list that it does not see. -/
def Trigger.beside (t : Trigger α ω) : Trigger α (ω × κ) := fun key a metadata x =>
  ((t key a metadata x.1).1, (t key a metadata x.1).2, x.2)

/-- The action beside a list that it does not see. -/
def CommitAction.beside (action : CommitAction ω) : CommitAction (ω × κ) := fun x =>
  ((action x.1).1, (action x.1).2, x.2)

/-- The sink beside a list, to which it adds entries about every notification that it is offered. -/
def Sink.noting (entries : Notification → List ν) (sink : Sink ω) : Sink (ω × List ν) := fun note x =>
  ((sink note x.1).1, (sink note x.1).2, x.2 ++ entries note)

/-- The intake beside a list. What becomes of whom it tells is said by `f`. -/
def Intake.beside (f : Notifier ω → Notifier (ω × κ)) (i : Intake α ω) : Intake α (ω × κ) where
  config := i.config
  resolver := i.resolver
  triggers := i.triggers.map Trigger.beside
  notifier := f i.notifier

/-- The session beside a list. -/
def Session.beside (f : Notifier ω → Notifier (ω × κ)) : Session α ω → Session α (ω × κ) :=
  Session.mapWorld (Intake.beside f) CommitAction.beside

/-- The session with others to tell. -/
def Session.telling (f : Notifier ω → Notifier ω) : Session α ω → Session α ω :=
  Session.mapWorld (fun i => { i with notifier := f i.notifier }) fun action => action

/-- The queue adds these entries to the list, whatever the world is like when it runs. -/
def PostCommit.Adds (entries : List ν) (q : PostCommit (ω × List ν)) : Prop :=
  ∀ w l, (q.run (w, l)).2 = l ++ entries

theorem PostCommit.run_push (q : PostCommit ω) (action : CommitAction ω) (w : ω) :
    (q.push action).run w = (action (q.run w)).2 := by
  simp [run, push]

theorem PostCommit.adds_nothing : ({} : PostCommit (ω × List ν)).Adds [] := fun _ l =>
  (List.append_nil l).symm

/-- A queue adds what its actions add. -/
theorem PostCommit.Adds.push {entries entries' : List ν} {q : PostCommit (ω × List ν)}
    (h : q.Adds entries) {action : CommitAction (ω × List ν)}
    (haction : ∀ w l, (action (w, l)).2.2 = l ++ entries') :
    (q.push action).Adds (entries ++ entries') := by
  intro w l
  rw [PostCommit.run_push, ← List.append_assoc, ← h w l]
  exact haction _ _

/-! ## §3 Listening -/

/-- What raising a notification does to the world. -/
theorem Notifier.world_raise (n : Notifier ω) (note : Notification) (w : ω) :
    (n.raise note w).2 = n.sinks.foldl (fun w sink => (sink note w).2) w := by
  obtain ⟨sinks⟩ := n
  simp only [raise]
  induction sinks generalizing w with
  | nil => rfl
  | cons sink rest ih =>
    rw [List.foldl_cons, ← ih]
    simp only [offer]
    rcases sink note w with ⟨_ | _ | _, v⟩ <;> rfl

/-- Sinks that note what they are offered do to the world what they do without noting it, and their
entries come in their order. -/
theorem foldl_noting {ι : Type} (sink : ι → Sink ω) (entries : ι → Notification → List ν)
    (indices : List ι) (note : Notification) (w : ω) (l : List ν) :
    (indices.map fun i => (sink i).noting (entries i)).foldl (fun x sink => (sink note x).2) (w, l) =
      (indices.foldl (fun w i => (sink i note w).2) w, l ++ indices.flatMap fun i => entries i note) := by
  induction indices generalizing w l with
  | nil => simp
  | cons i rest ih =>
    simp only [List.map_cons, List.foldl_cons, List.flatMap_cons, ← List.append_assoc]
    exact ih _ _

/-- The notifier with one more sink, which lists every notification before the others get it. -/
def Notifier.overheard (n : Notifier ω) : Notifier (ω × List Notification) where
  sinks := Sink.noting (fun note => [note]) (fun _ w => (.accepted, w)) ::
    n.sinks.map (Sink.noting fun _ => [])

/-- The notifier of sinks that each list what they are offered, with their number. -/
def Notifier.numbered (sinks : List (Sink ω)) : Notifier (ω × List (Nat × Notification)) where
  sinks := sinks.zipIdx.map fun s => s.1.noting fun note => [(s.2, note)]

/-- What is raised is listed once. -/
theorem Notifier.raise_overheard (n : Notifier ω) (note : Notification) (w : ω)
    (l : List Notification) :
    (n.overheard.raise note (w, l)).2 = ((n.raise note w).2, l ++ [note]) := by
  have hsilent : n.sinks.flatMap (fun _ => ([] : List Notification)) = [] :=
    List.flatMap_eq_nil_iff.2 fun _ _ => rfl
  rw [world_raise, world_raise]
  refine (foldl_noting (fun sink => sink) (fun _ _ => []) n.sinks note w (l ++ [note])).trans ?_
  rw [hsilent, List.append_nil]

/-- What is raised is offered to each sink once, in the order of the sinks. -/
theorem Notifier.raise_numbered (sinks : List (Sink ω)) (note : Notification) (w : ω)
    (l : List (Nat × Notification)) :
    ((numbered sinks).raise note (w, l)).2 =
      ((Notifier.raise ⟨sinks⟩ note w).2, l ++ (List.range sinks.length).map (·, note)) := by
  rw [world_raise, world_raise]
  refine (foldl_noting (·.1) (fun s note => [(s.2, note)]) sinks.zipIdx note w l).trans ?_
  have hworld : sinks.zipIdx.foldl (fun w s => (s.1 note w).2) w =
      sinks.foldl (fun w sink => (sink note w).2) w := by
    conv =>
      rhs
      rw [← List.zipIdx_map_fst 0 sinks, List.foldl_map]
  have hentries : (sinks.zipIdx.flatMap fun s => [(s.2, note)]) =
      (List.range sinks.length).map (·, note) := by
    rw [List.range_eq_range', ← List.zipIdx_map_snd 0 sinks, List.map_map, List.map_eq_flatMap]
    rfl
  rw [hworld, hentries]

end ReplicaIntake
