import Mathlib.Logic.Relation
import ReplicaIntake.Proofs.Memory.LocalWrites
import ReplicaIntake.Proofs.Memory.Taking
import ReplicaIntake.Store.Command

/-!
# Histories of a store in memory

A history is a list of uses, run one after the other. `Called` lists what one call inside a batch
can leave of the contents of an open transaction, and `Advanced` what one use can make of the
committed contents. A property that no way of advancing breaks holds after every history
(`runAll_keeps`).
-/

namespace ReplicaIntake

/-! ## §1 States after operations -/

namespace Op

variable {σ ω ε ε' β γ : Type}

/-- Answering with a function of the answer leaves the state of the operation. -/
theorem state_bind_pure (x : Op σ ε β) (f : β → γ) (s : σ) :
    ((x >>= fun b => pure (f b)).answer s).2 = (x.answer s).2 := by
  cases h : x s with
  | ok b s' => simp only [answer, bind_of_ok h, h, pure_apply]
  | error e s' => simp only [answer, bind_of_error h, h]

theorem state_wrapError (wrap : ε → ε') (x : Op σ ε β) (s : σ) :
    ((x.wrapError wrap).answer s).2 = (x.answer s).2 := by
  cases h : x s with
  | ok b s' => simp only [answer, wrapError, h]
  | error e s' => simp only [answer, wrapError, h]

theorem state_within (wrap : ε → ε') (x : Op σ ε β) (s : σ) (w : ω) :
    ((x.within wrap).answer (s, w)).2 = ((x.answer s).2, w) := by
  cases h : x s with
  | ok b s' => simp only [answer, within, h]
  | error e s' => simp only [answer, within, h]

end Op

namespace Memory

variable {α ω : Type}

/-! ## §2 Calls -/

/-- What one call can leave of the contents of an open transaction. -/
inductive Called (ω : Type) (kind : ItemKind) (localId : String) (m : Memory α) : Memory α → Prop
  /-- The call reads, queues or is refused. -/
  | unchanged : Called ω kind localId m m
  /-- A write is taken in. -/
  | taken {i : Intake α ω} {key : String} {w w' : ω} {metadata : Metadata} {payload : Option α}
      {result : Except (IntakeError StoreError) Outcome} {m' : Memory α}
      {notes : List Notification}
      (htaken : Taken i kind localId key m w metadata payload result m' notes w') :
    Called ω kind localId m m'
  | put (key : String) (a : α) (metadata : Metadata) :
    Called ω kind localId m (m.write key (.data a) metadata)
  | marked (key : String) (metadata : Metadata) :
    Called ω kind localId m (m.write key .tombstone { metadata with deleted := true })
  | removed (key : String) : Called ω kind localId m (m.erase key)
  /-- A record that is no marker becomes one side of a conflict. -/
  | conflicted {source : String} {existing : Record α} (key newShadow existingShadow : String)
      (hread : m.records.find? source = some existing) (hplain : existing.marker? = none) :
    Called ω kind localId m (m.withConflict key newShadow existingShadow existing)
  /-- A marker lists one more shadow. -/
  | extended {source : String} {existing : Record α} {marker : Marker} (key newShadow : String)
      (hread : m.records.find? source = some existing)
      (hmarker : existing.content = .marker marker) (hnew : newShadow ∉ marker.shadows) :
    Called ω kind localId m
      (m.write key (.marker ⟨marker.shadows ++ [newShadow]⟩) existing.metadata)
  | versioned : Called ω kind localId m m.versioned

section Calls

variable (kind : ItemKind) (localId : String)

theorem called_intake (i : Intake α ω) (key : String) (metadata : Metadata) (payload : Option α)
    (t : Transaction α ω) (w : ω) :
    Called ω kind localId t.contents
      ((i.replicate (storage kind localId) key metadata payload).answer (t, w)).2.1.contents := by
  obtain ⟨result, m, notes, w', htaken, hanswer⟩ :=
    replicate_taken i kind localId key metadata payload t w
  rw [hanswer]
  exact .taken htaken

/-- A put is an intake like any other, unless its metadata says that it is a deletion. -/
theorem put_eq_replicate (i : Intake α ω) (key : String) {metadata : Metadata} (a : α)
    (h : metadata.deleted = false) :
    i.put (storage kind localId : Storage (Transaction α ω) α ω StoreError) key metadata a =
      i.replicate (storage kind localId) key metadata (some a) := by
  simp only [Intake.replicate, h, Bool.false_eq_true, if_false]

/-- So what holds of the contents, and of what the intake leaves of them, holds after the put. -/
theorem contents_put {P : Memory α → Prop} {i : Intake α ω} {metadata : Metadata}
    {t : Transaction α ω} {w : ω} (key : String) (a : α) (hunchanged : P t.contents)
    (hintake : P ((i.replicate (storage kind localId) key metadata (some a)).answer
      (t, w)).2.1.contents) :
    P ((i.put (storage kind localId) key metadata a).answer (t, w)).2.1.contents := by
  cases hdeleted : metadata.deleted with
  | true =>
    -- metadata of a deletion is refused before anything is read
    have hrefused : i.put (storage kind localId) key metadata a (t, w) =
        .error .deleteMarkerOnPut (t, w) := by
      simp only [Intake.put, hdeleted, if_true, Op.throw_apply]
    rw [Op.answer_of_error hrefused]
    exact hunchanged
  | false =>
    rw [put_eq_replicate kind localId i key a hdeleted]
    exact hintake

/-- A deletion is an intake of metadata that says so. -/
theorem delete_eq_replicate (i : Intake α ω) (key : String) (metadata : Metadata) :
    i.delete (storage kind localId : Storage (Transaction α ω) α ω StoreError) key metadata =
      i.replicate (storage kind localId) key { metadata with deleted := true } none := by
  rfl

theorem called_put (t : Transaction α ω) (key : String) (expected : Option Etag)
    (metadata : Metadata) (a : α) :
    Called ω kind localId t.contents
      (((storage kind localId).put key expected metadata a).answer t).2.contents := by
  rcases put_cases kind localId t key expected metadata a with ⟨etag, h⟩ | ⟨error, h⟩
  · rw [Op.answer_of_ok h]
    exact .put key a metadata
  · rw [Op.answer_of_error h]
    exact .unchanged

theorem called_remove (t : Transaction α ω) (key : String) (expected : Option Etag) :
    Called ω kind localId t.contents
      (((storage kind localId).remove key expected).answer t).2.contents := by
  rcases remove_cases kind localId t key expected with h | ⟨error, h⟩
  · rw [Op.answer_of_ok h]
    exact .removed key
  · rw [Op.answer_of_error h]
    exact .unchanged

/-- An operation on the conflict of a record runs only if the record is there. -/
theorem called_about {op : Record α → Op (Transaction α ω) StoreError ConflictSummary}
    (t : Transaction α ω) (w : ω) (source : String)
    (h : ∀ existing, t.contents.records.find? source = some existing →
      Called ω kind localId t.contents ((op existing).answer t).2.contents) :
    Called ω kind localId t.contents
      ((Call.about (backend kind localId) source op).answer (t, w)).2.1.contents := by
  have hread := Op.within_of_ok CallError.store w (read_eq kind localId t source)
  unfold Call.about
  rw [Op.answer_bind_of_ok hread]
  cases hsource : t.contents.records.find? source with
  | none =>
    show Called ω kind localId t.contents ((pure Answer.absent :
      Op (Transaction α ω × ω) CallError (Answer α)).answer (t, w)).2.1.contents
    exact .unchanged
  | some existing =>
    show Called ω kind localId t.contents (((op existing).within CallError.store >>=
      fun summary => pure (@Answer.conflict α summary)).answer (t, w)).2.1.contents
    rw [Op.state_bind_pure, Op.state_within]
    exact h existing hsource

theorem called_create (t : Transaction α ω) {source : String}
    (key newShadow existingShadow : String) {existing : Record α}
    (hread : t.contents.records.find? source = some existing) :
    Called ω kind localId t.contents
      (((storage kind localId).createConflict key newShadow existingShadow existing).answer
        t).2.contents := by
  cases hmarker : existing.marker? with
  | none =>
    rw [Op.answer_of_ok (createConflict_eq kind localId t key newShadow existingShadow hmarker)]
    exact .conflicted key newShadow existingShadow hread hmarker
  | some marker =>
    rw [Op.answer_of_error
      (createConflict_of_marker kind localId t key newShadow existingShadow hmarker)]
    exact .unchanged

theorem called_extend (t : Transaction α ω) {source : String} (key newShadow : String)
    {existing : Record α} (hread : t.contents.records.find? source = some existing) :
    Called ω kind localId t.contents
      (((storage kind localId).extendConflict key newShadow existing).answer t).2.contents := by
  cases hmarker : existing.marker? with
  | none =>
    rw [Op.answer_of_error (extendConflict_of_no_marker kind localId t key newShadow hmarker)]
    exact .unchanged
  | some marker =>
    cases hlists : marker.lists newShadow with
    | true =>
      rw [Op.answer_of_ok (extendConflict_of_listed kind localId t key hmarker hlists)]
      exact .unchanged
    | false =>
      rw [Op.answer_of_ok (extendConflict_of_new kind localId t key hmarker hlists)]
      exact .extended key newShadow hread (content_of_marker? hmarker)
        (by simpa [Marker.lists] using hlists)

/-- One call leaves one of the contents that `Called` lists. -/
theorem run_called (call : Call α ω) (t : Transaction α ω) (w : ω) :
    Called ω kind localId t.contents
      ((call.run (backend kind localId)).answer (t, w)).2.1.contents := by
  cases call with
  | replicate intake key metadata payload =>
    unfold Call.run Call.intakeCall
    rw [Op.state_bind_pure, Op.state_wrapError]
    exact called_intake kind localId intake key metadata payload t w
  | replicatePut intake key metadata payload =>
    unfold Call.run Call.intakeCall
    rw [Op.state_bind_pure, Op.state_wrapError]
    exact contents_put kind localId key payload .unchanged
      (called_intake kind localId intake key metadata (some payload) t w)
  | replicateDelete intake key metadata =>
    unfold Call.run Call.intakeCall
    rw [Op.state_bind_pure, Op.state_wrapError, delete_eq_replicate]
    exact called_intake kind localId intake key _ none t w
  | get key =>
    unfold Call.run
    rw [Op.state_bind_pure, Op.state_within]
    exact .unchanged
  | put key expected metadata payload =>
    unfold Call.run
    rw [Op.state_bind_pure, Op.state_within]
    exact called_put kind localId t key expected metadata payload
  | remove key expected =>
    unfold Call.run
    rw [Op.state_bind_pure, Op.state_within]
    exact called_remove kind localId t key expected
  | markDeleted key metadata =>
    unfold Call.run
    rw [Op.state_bind_pure, Op.state_within]
    exact .marked key metadata
  | createConflict key newShadow existingShadow source =>
    exact called_about kind localId t w source fun existing hread =>
      called_create kind localId t key newShadow existingShadow hread
  | extendConflict key newShadow source =>
    exact called_about kind localId t w source fun existing hread =>
      called_extend kind localId t key newShadow hread
  | nextVersion =>
    unfold Call.run
    rw [Op.state_bind_pure, Op.state_within]
    exact .versioned
  | onCommit action => exact .unchanged

/-- Calls one after the other leave what their steps lead to. -/
theorem runAll_called (calls : List (Call α ω)) (t : Transaction α ω) (w : ω) :
    Relation.ReflTransGen (Called ω kind localId) t.contents
      (Call.runAll (backend kind localId) calls (t, w)).2.1.contents := by
  induction calls generalizing t w with
  | nil => exact .refl
  | cons call rest ih =>
    have hfirst := run_called kind localId call t w
    have hrest := ih ((call.run (backend kind localId)).answer (t, w)).2.1
      ((call.run (backend kind localId)).answer (t, w)).2.2
    exact .head hfirst hrest

end Calls

/-! ## §3 Uses -/

/-- What one use can make of the committed contents. -/
inductive Advanced (kind : ItemKind) (localId : String) (m : Memory α) :
    Command α ω → Memory α → Prop
  /-- The use reads or is refused. -/
  | unchanged (command : Command α ω) : Advanced kind localId m command m
  /-- A write is taken in. -/
  | replicated {i : Intake α ω} {key : String} {metadata : Metadata} {payload : Option α}
      {w w' : ω} {outcome : Outcome} {m' : Memory α} {notes : List Notification}
      (htaken : Taken i kind localId key m w metadata payload (.ok outcome) m' notes w') :
    Advanced kind localId m (.replicate i key metadata payload) m'
  | stored {key : String} {a : α} {max : Nat} {metadata : Metadata} {m' : Memory α}
      (hwritten : Written localId key (some a) max m metadata m') :
    Advanced kind localId m (.putLocal key a max) m'
  | deleted {key : String} {max : Nat} {metadata : Metadata} {m' : Memory α}
      (hwritten : Written localId key none max m metadata m') :
    Advanced kind localId m (.deleteLocal key max) m'
  | resolved {key : String} {payload : Option α} {max : Nat} {metadata : Metadata} {m' : Memory α}
      (hwritten : Written localId key payload max m metadata m') :
    Advanced kind localId m (.resolveLocal key payload max) m'
  | batched {calls : List (Call α ω)} {m' : Memory α}
      (hcalls : Relation.ReflTransGen (Called ω kind localId) m m') :
    Advanced kind localId m (.batch calls true) m'

/-- Running the queue of a transaction that took in one write tells of its conflicts. -/
theorem run_taken (i : Intake α ω) (m m' : Memory α) (notes : List Notification) (w : ω) :
    (Transaction.taken ({ contents := m } : Transaction α ω) i m' notes).pending.run w =
      i.tell notes w := by
  show ([] ++ notes.map i.announcement).foldl
    (fun w (action : CommitAction ω) => (action w).2) w = _
  rw [List.nil_append, List.foldl_map]
  rfl

/-- The store and the world after a transaction that answered `result`: its contents `m'` are
committed and its conflicts told of, unless it failed. -/
def committed (i : Intake α ω) (m m' : Memory α) (notes : List Notification) (w : ω) :
    Except (IntakeError StoreError) Outcome → Memory α × ω
  | .ok _ => (m', i.tell notes w)
  | .error _ => (m, w)

variable (kind : ItemKind) (localId : String)

/-- Taking in a write commits one of the ways out, or leaves the store alone if that is a
failure. -/
theorem replicate_committed (i : Intake α ω) (key : String) (metadata : Metadata)
    (payload : Option α) (m : Memory α) (w : ω) :
    ∃ result m' notes w', Taken i kind localId key m w metadata payload result m' notes w' ∧
      ((backend kind localId).replicate i key metadata payload).answer (m, w) =
        (result, committed i m m' notes w' result) := by
  obtain ⟨result, m', notes, w', htaken, hanswer⟩ :=
    replicate_taken i kind localId key metadata payload { contents := m } w
  refine ⟨result, m', notes, w', htaken, ?_⟩
  -- the transaction is committed or dropped according to the body
  cases hbody : (i.replicate (storage kind localId) key metadata payload)
      ({ contents := m }, w) with
  | ok answer s =>
    rw [Op.answer_of_ok hbody] at hanswer
    obtain ⟨rfl, rfl⟩ := Prod.mk.inj hanswer
    have hrun := transaction_of_ok kind localId IntakeError.storage hbody
    rw [run_taken] at hrun
    exact Op.answer_of_ok hrun
  | error e s =>
    rw [Op.answer_of_error hbody] at hanswer
    obtain ⟨rfl, rfl⟩ := Prod.mk.inj hanswer
    exact Op.answer_of_error (transaction_of_error kind localId IntakeError.storage hbody)

/-- A use that takes in a write answers what the intake does. -/
theorem run_replicate (i : Intake α ω) (key : String) (metadata : Metadata) (payload : Option α)
    (s : Memory α × ω) :
    ∃ result m' notes w', Taken i kind localId key s.1 s.2 metadata payload result m' notes w' ∧
      (Command.replicate i key metadata payload).run (backend kind localId) s =
        (.outcome result, committed i s.1 m' notes w' result) := by
  obtain ⟨result, m', notes, w', htaken, hanswer⟩ :=
    replicate_committed kind localId i key metadata payload s.1 s.2
  refine ⟨result, m', notes, w', htaken, ?_⟩
  simp only [Command.run, hanswer]

/-- A put without payload is refused. -/
theorem run_missingPayload (i : Intake α ω) (key : String) {metadata : Metadata}
    (hput : metadata.deleted = false) (s : Memory α × ω) :
    (Command.replicate i key metadata none).run (backend kind localId) s =
      (.outcome (.error .missingPayload), s) := by
  have hbody : i.replicate (storage kind localId) key metadata none
      (({ contents := s.1 } : Transaction α ω), s.2) =
        .error .missingPayload ({ contents := s.1 }, s.2) := by
    simp only [Intake.replicate, hput, Bool.false_eq_true, if_false, Op.throw_apply]
  have hanswer : ((backend kind localId).replicate i key metadata none).answer s =
      (.error .missingPayload, s) :=
    Op.answer_of_error (transaction_of_error kind localId IntakeError.storage hbody)
  simp only [Command.run, hanswer]

/-- A put of an absent key is stored. -/
theorem run_of_absent (i : Intake α ω) {key : String} {metadata : Metadata} (a : α)
    {s : Memory α × ω} (habsent : s.1.records.find? key = none)
    (hput : metadata.deleted = false) (hid : metadata.identity ≠ none) :
    (Command.replicate i key metadata (some a)).run (backend kind localId) s =
      (.outcome (.ok .created),
        (s.1.write key (.data a) (metadata.bounded i.config.maxHistory), s.2)) := by
  obtain ⟨result, m', notes, w', htaken, hrun⟩ :=
    run_replicate kind localId i key metadata (some a) s
  obtain ⟨rfl, rfl, rfl, rfl⟩ := taken_of_absent habsent hput hid htaken
  exact hrun

/-- One use makes of the contents what `Advanced` lists. -/
theorem run_advanced (command : Command α ω) (m : Memory α) (w : ω) :
    Advanced kind localId m command (command.run (backend kind localId) (m, w)).2.1 := by
  cases command with
  | replicate i key metadata payload =>
    obtain ⟨result, m', notes, w', htaken, hrun⟩ :=
      run_replicate kind localId i key metadata payload (m, w)
    rw [hrun]
    cases result with
    | ok outcome => exact .replicated htaken
    | error e =>
      -- whatever was written by then is dropped
      exact .unchanged _
  | putLocal key payload max =>
    rcases putLocal_cases kind localId key payload max m w with
      ⟨error, hanswer⟩ | ⟨metadata, m', hwritten, hanswer⟩
    · simp only [Command.run, hanswer]
      exact .unchanged _
    · simp only [Command.run, hanswer]
      exact .stored hwritten
  | deleteLocal key max =>
    rcases deleteLocal_cases kind localId key max m w with
      ⟨-, hanswer⟩ | ⟨error, hanswer⟩ | ⟨metadata, m', hwritten, hanswer⟩
    · simp only [Command.run, hanswer]
      exact .unchanged _
    · simp only [Command.run, hanswer]
      exact .unchanged _
    · simp only [Command.run, hanswer]
      exact .deleted hwritten
  | resolveLocal key payload max =>
    rcases resolveLocal_cases kind localId key payload max m w with
      ⟨error, hanswer⟩ | ⟨metadata, m', hwritten, hanswer⟩
    · simp only [Command.run, hanswer]
      exact .unchanged _
    · simp only [Command.run, hanswer]
      exact .resolved hwritten
  | get key => exact .unchanged _
  | batch calls isCommitted =>
    cases isCommitted with
    -- a batch that is not committed is dropped whole
    | false => exact .unchanged _
    | true => exact .batched (runAll_called kind localId calls { contents := m } w)

/-! ## §4 Histories -/

/-- What no use among the given ones breaks holds after they were run one after the other. -/
theorem runAll_keeps {P : Memory α → Prop} {commands : List (Command α ω)}
    (hstep : ∀ command ∈ commands, ∀ m m', P m → Advanced kind localId m command m' → P m')
    {m : Memory α} (w : ω) (hm : P m) :
    P (Command.runAll (backend kind localId) commands (m, w)).2.1 := by
  induction commands generalizing m w with
  | nil => exact hm
  | cons command rest ih =>
    have hfirst := hstep command List.mem_cons_self m _ hm (run_advanced kind localId command m w)
    exact ih (fun c hc => hstep c (List.mem_cons_of_mem _ hc))
      (command.run (backend kind localId) (m, w)).2.2 hfirst

/-- Every use has its reply. -/
theorem length_runAll (history : List (Command α ω)) (s : Memory α × ω) :
    (Command.runAll (backend kind localId) history s).1.length = history.length := by
  induction history generalizing s with
  | nil => rfl
  | cons command rest ih =>
    exact congrArg Nat.succ (ih (command.run (backend kind localId) s).2)

/-- A history in two parts runs the second part on what the first one left. -/
theorem runAll_append (first second : List (Command α ω)) (s : Memory α × ω) :
    Command.runAll (backend kind localId) (first ++ second) s =
      ((Command.runAll (backend kind localId) first s).1 ++
        (Command.runAll (backend kind localId) second
          (Command.runAll (backend kind localId) first s).2).1,
      (Command.runAll (backend kind localId) second
        (Command.runAll (backend kind localId) first s).2).2) := by
  induction first generalizing s with
  | nil => rfl
  | cons command rest ih =>
    simp only [List.cons_append, Command.runAll, ih]

end Memory

end ReplicaIntake
