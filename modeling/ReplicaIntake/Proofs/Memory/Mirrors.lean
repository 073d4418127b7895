import ReplicaIntake.Proofs.Memory.Overlays
import ReplicaIntake.Proofs.Overhearing

/-!
# The same records in another world

What a store in memory does depends on the world through its triggers only. So two runs keep the
same records and give the same replies, as long as their triggers decide alike, however different
their worlds are otherwise (`mirrored_runSessions`). What has to be known of the two worlds is said
by a relation `V` that triggers, queued actions and announcements keep (`Intake.Mirrors`).
-/

namespace ReplicaIntake

variable {α ω ω' κ : Type}

open Op

/-! ## §1 What keeps two worlds related -/

/-- The triggers decide alike and keep `V`. -/
def Trigger.Mirrors (V : ω → ω' → Prop) (t : Trigger α ω) (t' : Trigger α ω') : Prop :=
  ∀ key a metadata w w', V w w' →
    (t key a metadata w).1 = (t' key a metadata w').1 ∧
      V (t key a metadata w).2 (t' key a metadata w').2

/-- The intakes decide alike, and their triggers and announcements keep `V`. -/
structure Intake.Mirrors (V : ω → ω' → Prop) (i : Intake α ω) (i' : Intake α ω') : Prop where
  config : i.config = i'.config
  resolver : i.resolver = i'.resolver
  triggers : List.Forall₂ (Trigger.Mirrors V) i.triggers i'.triggers
  raises : ∀ note w w', V w w' → V (i.notifier.raise note w).2 (i'.notifier.raise note w').2

/-- The actions keep `V`, also if they crash. -/
def CommitAction.Mirrors (V : ω → ω' → Prop) (action : CommitAction ω) (action' : CommitAction ω') :
    Prop :=
  ∀ w w', V w w' → V (action w).2 (action' w').2

/-- Steps with mirrored intakes and actions are paired. -/
theorem Step.paired_mapWorld {ω₀ : Type} {p : Intake α ω₀ → Prop} {q : CommitAction ω₀ → Prop}
    {f : Intake α ω₀ → Intake α ω} {f' : Intake α ω₀ → Intake α ω'}
    {g : CommitAction ω₀ → CommitAction ω} {g' : CommitAction ω₀ → CommitAction ω'}
    {I : Intake α ω → Intake α ω' → Prop} {A : CommitAction ω → CommitAction ω' → Prop}
    (hintake : ∀ i, p i → I (f i) (f' i)) (haction : ∀ action, q action → A (g action) (g' action))
    {step : Step α ω₀} (hstep : step.Meets p q) :
    Step.Paired (fun _ => True) I A (step.mapWorld f g) (step.mapWorld f' g') := by
  cases step with
  | call request =>
    refine .call ?_
    cases request with
    | replicate i key metadata payload => exact .replicate (hintake i hstep) fun _ _ => trivial
    | replicatePut i key metadata payload => exact .replicatePut (hintake i hstep) trivial
    | replicateDelete i key metadata => exact .replicateDelete (hintake i hstep)
    | get key => exact .get key
    | put key expected metadata payload => exact .put trivial
    | remove key expected => exact .remove key expected
    | markDeleted key metadata => exact .markDeleted key metadata
    | createConflict key newShadow existingShadow source =>
      exact .createConflict key newShadow existingShadow source
    | extendConflict key newShadow source => exact .extendConflict key newShadow source
    | nextVersion => exact .nextVersion
    | onCommit action => exact .onCommit (haction action hstep)
  | createConflict key newShadow existingShadow existing => exact .createConflict existing.fits_any
  | extendConflict key newShadow existing => exact .extendConflict key newShadow existing

/-- Sessions with mirrored intakes and actions are paired. -/
theorem Session.paired_mapWorld {ω₀ : Type} {p : Intake α ω₀ → Prop} {q : CommitAction ω₀ → Prop}
    {f : Intake α ω₀ → Intake α ω} {f' : Intake α ω₀ → Intake α ω'}
    {g : CommitAction ω₀ → CommitAction ω} {g' : CommitAction ω₀ → CommitAction ω'}
    {I : Intake α ω → Intake α ω' → Prop} {A : CommitAction ω → CommitAction ω' → Prop}
    (hintake : ∀ i, p i → I (f i) (f' i)) (haction : ∀ action, q action → A (g action) (g' action))
    {sessions : List (Session α ω₀)} (hsessions : ∀ s ∈ sessions, s.Meets p q) :
    List.Forall₂ (Session.Paired (fun _ => True) I A) (sessions.map (.mapWorld f g))
      (sessions.map (.mapWorld f' g')) := by
  rw [List.forall₂_map_left_iff, List.forall₂_map_right_iff, List.forall₂_same]
  intro s hs
  refine ⟨?_, rfl⟩
  simp only [mapWorld]
  rw [List.forall₂_map_left_iff, List.forall₂_map_right_iff, List.forall₂_same]
  exact fun step hstep => Step.paired_mapWorld hintake haction (hsessions s hs step hstep)

namespace Memory

variable (kind : ItemKind) (localId : String)

/-! ## §2 The same contents -/

/-- Transactions in memory with the same contents do the same. What else a relation says is kept if
it does not depend on the contents. -/
theorem coupled_self {R : Transaction α ω × ω → Transaction α ω' × ω' → Prop}
    (hcontents : ∀ x x', R x x' → x.1.contents = x'.1.contents)
    (hreplaced : ∀ x x' m, R x x' → R (x.1.replaced m, x.2) (x'.1.replaced m, x'.2)) :
    Backend.Coupled (backend kind localId) (backend kind localId) (fun _ => True) R where
  kind := rfl
  localId := rfl
  read := by
    rintro key w w' ⟨m, q⟩ ⟨m', q'⟩ h
    obtain rfl : m = m' := hcontents _ _ h
    exact .ok (fun r _ => r.fits_any) h
  write := by
    rintro key content metadata w w' - ⟨m, q⟩ ⟨m', q'⟩ h
    obtain rfl : m = m' := hcontents _ _ h
    exact .ok trivial (hreplaced _ _ (m.write key content metadata) h)
  erase := by
    rintro key w w' ⟨m, q⟩ ⟨m', q'⟩ h
    obtain rfl : m = m' := hcontents _ _ h
    exact .ok trivial (hreplaced _ _ (m.erase key) h)
  nextVersion := by
    rintro w w' ⟨m, q⟩ ⟨m', q'⟩ h
    obtain rfl : m = m' := hcontents _ _ h
    exact .ok trivial (hreplaced _ _ { m with lastVersion := m.lastVersion + 1 } h)

/-! ## §3 Mirrored runs -/

/-- Open transactions with the same contents in worlds that are related by `V` and will be when the
queues have run. -/
structure Mirrored (V : ω → ω' → Prop) (x : Transaction α ω × ω) (x' : Transaction α ω' × ω') :
    Prop where
  contents : x.1.contents = x'.1.contents
  world : V x.2 x'.2
  pending : ∀ w w', V w w' → V (x.1.pending.run w) (x'.1.pending.run w')

theorem mirrored_parallel (V : ω → ω' → Prop) :
    Backend.Parallel (backend kind localId : Backend (Memory α) (Transaction α ω) α ω)
      (backend kind localId) (fun _ => True) (fun s s' => s.1 = s'.1 ∧ V s.2 s'.2) (Mirrored V) where
  toCoupled := coupled_self kind localId (fun _ _ h => h.contents)
    fun _ _ m h => ⟨rfl, h.world, h.pending⟩
  start := by
    rintro m w m' w' ⟨hm, hw⟩
    exact ⟨_, _, rfl, rfl, hm, hw, fun _ _ h => h⟩
  finish t w t' w' h := ⟨_, _, _, _, rfl, rfl, h.contents, h.pending w w' h.world⟩
  abandon _ _ _ _ _ _ _ _ hs h := ⟨hs.1, h.world⟩

/-- Queueing actions that keep `V` keeps transactions mirrored. -/
theorem mirrored_push {V : ω → ω' → Prop} {action : CommitAction ω} {action' : CommitAction ω'}
    (haction : action.Mirrors V action') :
    action.Keeps (backend kind localId : Backend (Memory α) (Transaction α ω) α ω)
      (backend kind localId) (Mirrored V) action' := by
  intro x x' h
  refine ⟨h.contents, h.world, fun w w' hw => ?_⟩
  simp only [backend, PostCommit.run_push]
  exact haction _ _ (h.pending w w' hw)

theorem coupled_of_mirrors {V : ω → ω' → Prop} {i : Intake α ω} {i' : Intake α ω'}
    (hi : i.Mirrors V i') :
    Intake.Coupled (backend kind localId : Backend (Memory α) (Transaction α ω) α ω)
      (backend kind localId) (fun _ => True) (Mirrored V) i i' where
  config := hi.config
  resolver := hi.resolver
  keeps := i.resolver.keeps_any
  fired := by
    refine hi.triggers.imp ?_
    rintro t t' ht key a metadata - ⟨u, w⟩ ⟨u', w'⟩ h
    obtain ⟨hverdict, hworld⟩ := ht key a metadata w w' h.world
    simp only [outside, ← hverdict]
    exact .ok trivial ⟨h.contents, hworld, h.pending⟩
  announced note := mirrored_push kind localId fun w w' hw => hi.raises note w w' hw

/-- The sessions of a run, one after the other. -/
def runSessions (sessions : List (Session α ω)) (m : Memory α) (w : ω) :
    List (Reply α) × (Memory α × ω) :=
  Turn.runAll (overlayBackend kind localId) (sessions.map Session.turn) (m, w)

/-- Mirrored sessions give the same replies, leave the same records and counts, and keep the worlds
related. -/
theorem mirrored_runSessions {V : ω → ω' → Prop} {sessions : List (Session α ω)}
    {sessions' : List (Session α ω')}
    (hsessions : List.Forall₂
      (Session.Paired (fun _ => True) (Intake.Mirrors V) (CommitAction.Mirrors V)) sessions sessions')
    (m : Memory α) {w : ω} {w' : ω'} (hw : V w w') :
    (runSessions kind localId sessions m w).1 = (runSessions kind localId sessions' m w').1 ∧
      (runSessions kind localId sessions m w).2.1 = (runSessions kind localId sessions' m w').2.1 ∧
      V (runSessions kind localId sessions m w).2.2 (runSessions kind localId sessions' m w').2.2 := by
  simp only [runSessions, overlay_runAll]
  exact (mirrored_parallel kind localId V).runAll_turns
    (fun _ _ hi => coupled_of_mirrors kind localId hi)
    (fun _ _ haction => mirrored_push kind localId haction) (Session.paired_turns hsessions) ⟨rfl, hw⟩

/-! ## §4 Runs beside a list -/

/-- A list beside the world leaves everything else as it is. -/
theorem mirrors_beside {f : Notifier ω → Notifier (ω × κ)} {g : Notifier ω → Notifier ω}
    (hraise : ∀ n note w k, ((f n).raise note (w, k)).2.1 = ((g n).raise note w).2)
    (i : Intake α ω) :
    Intake.Mirrors (fun (x : ω × κ) w => x.1 = w) (i.beside f)
      { i with notifier := g i.notifier } where
  config := rfl
  resolver := rfl
  triggers := by
    rw [Intake.beside, List.forall₂_map_left_iff, List.forall₂_same]
    rintro t - key a metadata ⟨w, k⟩ _ rfl
    exact ⟨rfl, rfl⟩
  raises := by
    rintro note ⟨w, k⟩ _ rfl
    exact hraise i.notifier note w k

/-- Sessions beside a list are paired with those that have no list. -/
theorem paired_beside {f : Notifier ω → Notifier (ω × κ)} {g : Notifier ω → Notifier ω}
    (hraise : ∀ n note w k, ((f n).raise note (w, k)).2.1 = ((g n).raise note w).2)
    (sessions : List (Session α ω)) :
    List.Forall₂ (Session.Paired (fun _ => True) (Intake.Mirrors fun (x : ω × κ) w => x.1 = w)
      (CommitAction.Mirrors fun (x : ω × κ) w => x.1 = w))
      (sessions.map (.beside f)) (sessions.map (.telling g)) := by
  refine Session.paired_mapWorld (fun i _ => mirrors_beside hraise i) (fun action _ => ?_)
    fun s _ => s.meets_any
  rintro ⟨w, k⟩ _ rfl
  rfl

/-- What is listed beside the world does not change what the sessions do. -/
theorem runSessions_beside {f : Notifier ω → Notifier (ω × κ)} {g : Notifier ω → Notifier ω}
    (hraise : ∀ n note w k, ((f n).raise note (w, k)).2.1 = ((g n).raise note w).2)
    (sessions : List (Session α ω)) (m : Memory α) (w : ω) (k : κ) :
    let x := runSessions kind localId (sessions.map (.beside f)) m (w, k)
    (x.1, x.2.1, x.2.2.1) = runSessions kind localId (sessions.map (.telling g)) m w := by
  obtain ⟨hreplies, hstore, hworld⟩ := mirrored_runSessions kind localId
    (paired_beside hraise sessions) m (rfl : (w, k).1 = w)
  exact Prod.ext hreplies (Prod.ext hstore hworld)

end Memory

end ReplicaIntake
