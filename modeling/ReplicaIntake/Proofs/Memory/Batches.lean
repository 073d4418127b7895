import ReplicaIntake.Proofs.Memory.Mirrors

/-!
# Batching

How steps are cut into transactions does not matter for what comes of them: one transaction of many
steps gives the same answers, leaves the same records and counts, and raises the same notifications
in the same order as a transaction for each step, and transactions that are abandoned on the way
leave no trace (`batching_changes_nothing`). Triggers have to decide by their arguments alone
(`Trigger.Steady`), because they would see in one transaction what sinks do only after it.

An open transaction and a store that has committed the same steps one by one are level (`Level`):
they have the same contents, and the transaction has queued what the store has already raised.
-/

namespace ReplicaIntake

variable {α ω : Type}

open Op

/-! ## §1 Cutting steps into transactions -/

/-- What the trigger decides depends on its arguments alone. -/
def Trigger.Steady (t : Trigger α ω) : Prop :=
  ∀ key a metadata w w', (t key a metadata w).1 = (t key a metadata w').1

/-- The triggers of the intake are steady. -/
def Intake.Steady (i : Intake α ω) : Prop := ∀ t ∈ i.triggers, t.Steady

/-- The triggers of the session are steady. -/
def Session.Steady (s : Session α ω) : Prop := s.Meets Intake.Steady fun _ => True

/-- A session for every step that is committed. -/
def Session.apart (sessions : List (Session α ω)) : List (Session α ω) :=
  ((sessions.filter (·.isCommitted)).flatMap (·.steps)).map fun step => ⟨[step], true⟩

/-- What the steps of a committed session answered. -/
def Reply.committed : Reply α → List (Except CallError (Answer α))
  | .batch ⟨answers, .committed⟩ => answers
  | _ => []

/-- What the steps of all committed sessions answered. -/
def answered (replies : List (Reply α)) : List (Except CallError (Answer α)) :=
  replies.flatMap Reply.committed

theorem answered_append (replies replies' : List (Reply α)) :
    answered (replies ++ replies') = answered replies ++ answered replies' :=
  List.flatMap_append

/-- The step beside the list of all notifications that are raised. -/
abbrev Step.overheard : Step α ω → Step α (ω × List Notification) :=
  Step.mapWorld (Intake.beside Notifier.overheard) CommitAction.beside

namespace Memory

variable (kind : ItemKind) (localId : String)

/-- The notifications that the sessions raise, in their order. -/
def raised (sessions : List (Session α ω)) (m : Memory α) (w : ω) : List Notification :=
  (runSessions kind localId (sessions.map (.beside Notifier.overheard)) m (w, [])).2.2.2

/-! ## §2 Level transactions -/

/-- Two open transactions that have the same contents, and whose lists, `l` and `l'` so far, will be
the same when their queues have run. -/
structure Level (l l' : List Notification)
    (x x' : Transaction α (ω × List Notification) × (ω × List Notification)) : Prop where
  contents : x.1.contents = x'.1.contents
  listed : x.2.2 = l
  listed' : x'.2.2 = l'
  pending : ∃ notes notes', x.1.pending.Adds notes ∧ x'.1.pending.Adds notes' ∧
    l ++ notes = l' ++ notes'

variable {l l' : List Notification}

/-- Actions that add the same entries keep transactions level. -/
theorem level_push {action : CommitAction (ω × List Notification)} {notes : List Notification}
    (haction : ∀ w k, (action (w, k)).2.2 = k ++ notes) :
    action.Keeps (backend kind localId : Backend (Memory α) (Transaction α _) α _)
      (backend kind localId) (Level l l') action := by
  rintro x x' ⟨hcontents, hlisted, hlisted', entries, entries', hadds, hadds', hsame⟩
  refine ⟨hcontents, hlisted, hlisted', entries ++ notes, entries' ++ notes, hadds.push haction,
    hadds'.push haction, ?_⟩
  rw [← List.append_assoc, hsame, List.append_assoc]

theorem level_intake {i : Intake α ω} (hi : i.Steady) :
    Intake.Coupled (backend kind localId : Backend (Memory α) (Transaction α _) α _)
      (backend kind localId) (fun _ => True) (Level l l') (i.beside Notifier.overheard)
      (i.beside Notifier.overheard) where
  config := rfl
  resolver := rfl
  keeps := i.resolver.keeps_any
  fired := by
    rw [Intake.beside, List.forall₂_map_left_iff, List.forall₂_map_right_iff, List.forall₂_same]
    rintro t ht key a metadata - ⟨u, w, k⟩ ⟨u', w', k'⟩ ⟨hcontents, hlisted, hlisted', hpending⟩
    simp only [outside, Trigger.beside, hi t ht key a metadata w w']
    exact .ok trivial ⟨hcontents, hlisted, hlisted', hpending⟩
  announced note := level_push kind localId fun w k =>
    congrArg Prod.snd (i.notifier.raise_overheard note w k)

/-- From level transactions a steady step leads to level transactions. -/
theorem level_step {step : Step α ω} (hstep : step.Meets Intake.Steady fun _ => True) :
    Lockstep (Level l l') Any
      (step.overheard.run (backend kind localId : Backend (Memory α) (Transaction α _) α _))
      (step.overheard.run (backend kind localId)) := by
  refine (coupled_self kind localId (fun _ _ h => h.contents) fun _ _ m h =>
    ⟨rfl, h.listed, h.listed', h.pending⟩).lockstep_step (fun _ _ hi => hi) (fun _ _ hA => hA)
    (Step.paired_mapWorld (fun i hi => level_intake kind localId hi) (fun action _ => ?_) hstep)
  -- an action that does not see the list adds nothing to it
  exact level_push kind localId fun w k => (List.append_nil k).symm

/-- What the second transaction has queued may as well have been raised. -/
theorem level_commit {x x' : Transaction α (ω × List Notification) × (ω × List Notification)}
    (h : Level l l' x x') :
    Level l (x'.1.pending.run x'.2).2 x ({ contents := x'.1.contents }, x'.1.pending.run x'.2) := by
  obtain ⟨hcontents, hlisted, rfl, notes, notes', hadds, hadds', hsame⟩ := h
  refine ⟨hcontents, hlisted, rfl, notes, [], hadds, PostCommit.adds_nothing, ?_⟩
  rw [hsame, List.append_nil]
  exact (hadds' _ _).symm

/-! ## §3 Batched and apart -/

/-- The list after a commit is that of the store that the transaction was level with. -/
theorem Level.committed {x : Transaction α (ω × List Notification) × (ω × List Notification)}
    {m : Memory α} {w : ω × List Notification} (h : Level l l' x ({ contents := m }, w)) :
    (x.1.pending.run x.2).2 = w.2 := by
  obtain ⟨-, rfl, rfl, notes, notes', hadds, hadds', hsame⟩ := h
  calc (x.1.pending.run x.2).2 = x.2.2 ++ notes := hadds _ _
    _ = w.2 ++ notes' := hsame
    _ = w.2 := (hadds' w.1 w.2).symm

/-- Steps in one transaction answer what they answer in sessions of their own, and the transaction
stays level with the store that the sessions leave. -/
theorem runAll_level {steps : List (Step α ω)}
    (hsteps : ∀ step ∈ steps, step.Meets Intake.Steady fun _ => True)
    {x : Transaction α (ω × List Notification) × (ω × List Notification)} {m : Memory α}
    {w : ω × List Notification} (h : Level l w.2 x ({ contents := m }, w)) :
    let run := Step.runAll (backend kind localId) (steps.map Step.overheard) x
    let sole := Turn.runAll (backend kind localId)
      (steps.map fun step => .session [step.overheard] true) (m, w)
    run.1 = answered sole.1 ∧ Level l sole.2.2.2 run.2 ({ contents := sole.2.1 }, sole.2.2) := by
  induction steps generalizing x m w with
  | nil => exact ⟨rfl, h⟩
  | cons step rest ih =>
    obtain ⟨hstep, hrest⟩ := List.forall_mem_cons.1 hsteps
    obtain ⟨hanswer, hlevel⟩ := answer_lockstep (level_step kind localId hstep) h
    obtain ⟨hanswers, hlevels⟩ := ih hrest (level_commit hlevel)
    refine ⟨?_, hlevels⟩
    exact List.cons_eq_cons.2 ⟨hanswer, hanswers⟩

theorem run_committed {steps : List (Step α ω)} {m : Memory α} {t : Transaction α ω} {w v : ω}
    {answers : List (Except CallError (Answer α))}
    (hrun : Step.runAll (backend kind localId) steps ({ contents := m }, w) = (answers, t, v)) :
    Turn.run (backend kind localId) (.session steps true) (m, w) =
      (.batch ⟨answers, .committed⟩, (t.contents, t.pending.run v)) :=
  congrArg (fun run => (Reply.batch ⟨run.1, .committed⟩,
    (run.2.1.contents, run.2.1.pending.run run.2.2))) hrun

theorem run_abandoned {steps : List (Step α ω)} {m : Memory α} {t : Transaction α ω} {w v : ω}
    {answers : List (Except CallError (Answer α))}
    (hrun : Step.runAll (backend kind localId) steps ({ contents := m }, w) = (answers, t, v)) :
    Turn.run (backend kind localId) (.session steps false) (m, w) =
      (.batch ⟨answers, .abandoned⟩, (m, v)) :=
  congrArg (fun run => (Reply.batch ⟨run.1, .abandoned⟩, (m, run.2.2))) hrun

/-- The same for whole sessions, of which those that are abandoned have no counterpart. -/
theorem runSessions_level {sessions : List (Session α ω)} (hsteady : ∀ s ∈ sessions, s.Steady)
    (m : Memory α) (w w' : ω) (l : List Notification) :
    let batched := Turn.runAll (backend kind localId)
      (sessions.map fun s => (s.beside Notifier.overheard).turn) (m, (w, l))
    let sole := Turn.runAll (backend kind localId)
      ((Session.apart sessions).map fun s => (s.beside Notifier.overheard).turn) (m, (w', l))
    answered batched.1 = answered sole.1 ∧ batched.2.1 = sole.2.1 ∧ batched.2.2.2 = sole.2.2.2 := by
  induction sessions generalizing m w w' l with
  | nil => exact ⟨rfl, rfl, rfl⟩
  | cons s rest ih =>
    obtain ⟨hs, hrest⟩ := List.forall_mem_cons.1 hsteady
    obtain ⟨steps, isCommitted⟩ := s
    have hstart : Level l l ({ contents := m }, (w, l)) ({ contents := m }, (w', l)) :=
      ⟨rfl, rfl, rfl, [], [], PostCommit.adds_nothing, PostCommit.adds_nothing, rfl⟩
    obtain ⟨hanswers, hlevel⟩ := runAll_level kind localId hs (w := (w', l)) hstart
    generalize hrun : Step.runAll (backend kind localId) (steps.map Step.overheard)
      ({ contents := m }, (w, l)) = run at hanswers hlevel
    obtain ⟨answers, t, v, k⟩ := run
    cases isCommitted with
    | false =>
      -- the store is as it was, and nothing has been raised
      obtain rfl : k = l := hlevel.listed
      have hapart : Session.apart (⟨steps, false⟩ :: rest) = Session.apart rest := rfl
      have hturn : Turn.run (backend kind localId)
          (Session.beside Notifier.overheard ⟨steps, false⟩).turn (m, (w, k)) = _ :=
        run_abandoned kind localId hrun
      simp only [List.map_cons, Turn.runAll, hapart, hturn]
      exact ih hrest m v w' k
    | true =>
      have hapart : (Session.apart (⟨steps, true⟩ :: rest)).map
            (fun s => (s.beside Notifier.overheard).turn) =
          steps.map (fun step => .session [step.overheard] true) ++
            (Session.apart rest).map fun s => (s.beside Notifier.overheard).turn := by
        simp [Session.apart, Session.beside, Session.mapWorld, Session.turn, Function.comp_def]
      have hturn : Turn.run (backend kind localId)
          (Session.beside Notifier.overheard ⟨steps, true⟩).turn (m, (w, l)) = _ :=
        run_committed kind localId hrun
      have hlist := hlevel.committed
      have hcontents := hlevel.contents
      simp only [List.map_cons, Turn.runAll, hapart, hturn, Turn.runAll_append]
      clear hlevel hapart hturn hrun
      generalize Turn.runAll (backend kind localId)
        (steps.map fun step => .session [step.overheard] true) (m, (w', l)) = sole at *
      generalize t.pending.run (v, k) = raised at *
      obtain ⟨replies, m', v', l'⟩ := sole
      obtain ⟨v, _⟩ := raised
      obtain rfl : t.contents = m' := hcontents
      obtain rfl := hlist
      obtain ⟨hrestAnswers, hstore, hraised⟩ := ih hrest t.contents v v' _
      refine ⟨?_, hstore, hraised⟩
      rw [answered_append, ← hanswers, ← hrestAnswers]
      rfl

/-- What is overheard answers and leaves what it does unheard. -/
theorem runSessions_overheard (sessions : List (Session α ω)) (m : Memory α) (w : ω) :
    let x := runSessions kind localId (sessions.map (.beside Notifier.overheard)) m (w, [])
    (x.1, x.2.1, x.2.2.1) = runSessions kind localId sessions m w := by
  have hsame : sessions.map (Session.telling fun n => n) = sessions :=
    (List.map_congr_left fun s _ => s.mapWorld_self).trans (List.map_id' sessions)
  have hraise : ∀ (n : Notifier ω) (note : Notification) (w : ω) (l : List Notification),
      (n.overheard.raise note (w, l)).2.1 = (n.raise note w).2 := fun n note w l =>
    congrArg Prod.fst (n.raise_overheard note w l)
  have hbeside := runSessions_beside kind localId hraise sessions m w []
  rw [hsame] at hbeside
  exact hbeside

/-- Steps that are batched into sessions, with others abandoned in between, give the same answers,
leave the same records and counts, and raise the same notifications in the same order as each of
them in a session of its own. -/
theorem batching_changes_nothing {sessions : List (Session α ω)} (hsteady : ∀ s ∈ sessions, s.Steady)
    (m : Memory α) (w : ω) :
    answered (runSessions kind localId sessions m w).1 =
        answered (runSessions kind localId (Session.apart sessions) m w).1 ∧
      (runSessions kind localId sessions m w).2.1 =
        (runSessions kind localId (Session.apart sessions) m w).2.1 ∧
      raised kind localId sessions m w = raised kind localId (Session.apart sessions) m w := by
  obtain ⟨hanswers, hstore, hraised⟩ := runSessions_level kind localId hsteady m w w []
  rw [← runSessions_overheard kind localId sessions m w,
    ← runSessions_overheard kind localId (Session.apart sessions) m w]
  simp only [raised, runSessions, overlay_runAll, List.map_map]
  exact ⟨hanswers, hstore, hraised⟩

/-- Two puts of `k` come into conflict in one session. In the next one the conflict is removed and
`k` is stored anew, but the session is abandoned. The last one takes a version and adds a third
side. -/
def conflictOfKInBatches : List (Session String Unit) :=
  let i : Intake String Unit := { triggers := [fun _ _ _ w => (.ok (), w)] }
  [⟨[.call (.replicate i "k" (.ofId "a" 1) (some "a1")),
      .call (.replicate i "k" (.ofId "b" 1) (some "b1"))], true⟩,
    ⟨[.call (.remove "k" none), .call (.put "k" none (.ofId "c" 1) "c1")], false⟩,
    ⟨[.call .nextVersion, .call (.replicate i "k" (.ofId "d" 1) (some "d1"))], true⟩]

/-- Both notifications are raised, in sessions of their own as in batches. -/
theorem conflict_of_k_batched :
    raised .document "L" (Session.apart conflictOfKInBatches) {} () =
        [⟨"k", ⟨4⟩, ["k/conflicts/L", "k/conflicts/b"], .document, .put⟩,
          ⟨"k", ⟨6⟩, ["k/conflicts/L", "k/conflicts/b", "k/conflicts/d"], .document, .put⟩] ∧
      (runSessions .document "L" conflictOfKInBatches {} ()).2.1 =
        (runSessions .document "L" (Session.apart conflictOfKInBatches) {} ()).2.1 := by
  have hsteady : ∀ s ∈ conflictOfKInBatches, s.Steady := by
    simp [conflictOfKInBatches, Session.Steady, Session.Meets, Step.Meets, Call.Meets, Intake.Steady,
      Trigger.Steady]
  obtain ⟨-, hstore, hraised⟩ := batching_changes_nothing .document "L" hsteady {} ()
  rw [← hraised]
  exact ⟨by decide +kernel, hstore⟩

end Memory

end ReplicaIntake
