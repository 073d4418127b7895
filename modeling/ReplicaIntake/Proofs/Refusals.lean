import ReplicaIntake.Proofs.Memory.Operations
import ReplicaIntake.Store.Batch

/-!
# Refused writes

An intake may run inside a larger transaction, whose owner may tolerate a refusal and commit the
rest. So a refusal has to come before the first write. Here this is a statement about every storage:
a copy of the storage notes each access in a log (`Storage.recorded`), and a run on the copy goes
like the run on the storage itself.

Every part of an intake is one of three kinds. What is `Reading` makes no other access than reads;
what is `Storing` fails only where the storage does; and a sequence of checks followed by writes is
`Checked`: unless the storage has failed, a failure was preceded by reads only.

- `refused_after_reads`: a write that is refused, by whatever check, has been answered after reads
  only, and the transaction is as these reads leave it.
- `refused_call_keeps_transaction`: in a batch, a call that is refused leaves the transaction to the
  calls after it as it was.
-/

namespace ReplicaIntake

variable {ρ σ α ω ε ε' β γ : Type}

/-! ## §1 Recorded runs -/

/-- A use of one operation of the storage contract. -/
inductive Access where
  | read (key : String)
  | put (key : String)
  | remove (key : String)
  | markDeleted (key : String)
  | createConflict (key newShadow existingShadow : String)
  | extendConflict (key newShadow : String)
  /-- An action is left for the commit. -/
  | queue
  deriving DecidableEq

namespace Op

/-- The operation that is also noted in a log, whether it succeeds or fails. -/
def noted (access : Access) (op : Op σ ε β) : Op (σ × List Access) ε β := fun (t, log) =>
  match op t with
  | .ok b t => .ok b (t, log ++ [access])
  | .error e t => .error e (t, log ++ [access])

/-- A sequence answers what its rest answers, or fails as its first operation does. -/
theorem answer_bind (x : Op σ ε β) (f : β → Op σ ε γ) (s : σ) :
    (x >>= f).answer s =
      match x.answer s with
      | (.ok b, s') => (f b).answer s'
      | (.error e, s') => (.error e, s') := by
  cases h : x s with
  | ok b s' => rw [answer_bind_of_ok h, answer_of_ok h]
  | error e s' => rw [answer_of_error (bind_of_error h), answer_of_error h]

/-- Putting a failure into other words changes nothing else. -/
theorem answer_wrapError (wrap : ε → ε') (x : Op σ ε β) (s : σ) :
    (x.wrapError wrap).answer s = ((x.answer s).1.mapError wrap, (x.answer s).2) := by
  cases h : x s with
  | ok b s' =>
    rw [answer_of_ok h]
    exact answer_of_ok (by simp only [wrapError, h])
  | error e s' =>
    rw [answer_of_error h]
    exact answer_of_error (by simp only [wrapError, h])

/-- `x'` is a recorded run of `x`: they end alike, in the same state and world, and the accesses
that `x'` has added to the log are as `P` says of the states before and after and of the ending. -/
def Recorded (P : σ → List Access → σ → Except ε β → Prop) (x : Op (σ × ω) ε β)
    (x' : Op ((σ × List Access) × ω) ε β) : Prop :=
  ∀ t w, ∃ accesses t' w' result, P t accesses t' result ∧
    x.answer (t, w) = (result, t', w') ∧
    ∀ log, x'.answer ((t, log), w) = (result, (t', log ++ accesses), w')

variable {P : σ → List Access → σ → Except ε β → Prop}
  {Q R : σ → List Access → σ → Except ε γ → Prop} {x : Op (σ × ω) ε β}
  {x' : Op ((σ × List Access) × ω) ε β} {f : β → Op (σ × ω) ε γ}
  {f' : β → Op ((σ × List Access) × ω) ε γ}

/-- A sequence is recorded if its parts are. A failure of the first part is one of the whole, and
otherwise the accesses of both parts have been made. -/
theorem recorded_bind (hx : Recorded P x x') (hf : ∀ b, Recorded Q (f b) (f' b))
    (herror : ∀ t accesses t' e, P t accesses t' (.error e) → R t accesses t' (.error e))
    (hok : ∀ t first t₁ b rest t₂ result, P t first t₁ (.ok b) → Q t₁ rest t₂ result →
      R t (first ++ rest) t₂ result) :
    Recorded R (x >>= f) (x' >>= f') := by
  intro t w
  obtain ⟨first, t₁, w₁, result, hfirst, hplain, hrecorded⟩ := hx t w
  cases result with
  | error e =>
    refine ⟨first, t₁, w₁, .error e, herror _ _ _ _ hfirst, ?_, fun log => ?_⟩
    · rw [answer_bind, hplain]
    · rw [answer_bind, hrecorded]
  | ok b =>
    obtain ⟨rest, t₂, w₂, result, hrest, hplain', hrecorded'⟩ := hf b t₁ w₁
    refine ⟨first ++ rest, t₂, w₂, result, hok _ _ _ _ _ _ _ hfirst hrest, ?_, fun log => ?_⟩
    · rw [answer_bind, hplain]
      exact hplain'
    · rw [answer_bind, hrecorded, ← List.append_assoc]
      exact hrecorded' _

theorem recorded_mono {P' : σ → List Access → σ → Except ε β → Prop} (hx : Recorded P x x')
    (hP : ∀ t accesses t' result, P t accesses t' result → P' t accesses t' result) :
    Recorded P' x x' := by
  intro t w
  obtain ⟨accesses, t', w', result, h, hruns⟩ := hx t w
  exact ⟨accesses, t', w', result, hP _ _ _ _ h, hruns⟩

/-- What is noted is recorded, also beside a world and with its failure put into other words. -/
theorem recorded_noted (wrap : ε → ε') (access : Access) (op : Op σ ε β) :
    Recorded (fun t accesses t' result => accesses = [access] ∧ t' = (op.answer t).2 ∧
        ∀ e, result = .error e → ∃ source, e = wrap source)
      (op.within wrap : Op (σ × ω) ε' β) ((op.noted access).within wrap) := by
  intro t w
  cases h : op t with
  | ok b t' =>
    refine ⟨[access], t', w, .ok b, ⟨rfl, ?_, by simp⟩, ?_, fun log => ?_⟩
    · rw [answer_of_ok h]
    · exact answer_of_ok (within_of_ok wrap w h)
    · simp only [answer, within, noted, h]
  | error e t' =>
    refine ⟨[access], t', w, .error (wrap e), ⟨rfl, ?_, ?_⟩, ?_, fun log => ?_⟩
    · rw [answer_of_error h]
    · intro e' he
      exact ⟨e, (Except.error.inj he).symm⟩
    · exact answer_of_error (within_of_error wrap w h)
    · simp only [answer, within, noted, h]

end Op

namespace Storage

/-- The storage that also keeps a log of how it is used. -/
def recorded (s : Storage σ α ω ε) : Storage (σ × List Access) α ω ε where
  kind := s.kind
  localId := s.localId
  get key := (s.get key).noted (.read key)
  put key expected metadata payload := (s.put key expected metadata payload).noted (.put key)
  remove key expected := (s.remove key expected).noted (.remove key)
  markDeleted key metadata := (s.markDeleted key metadata).noted (.markDeleted key)
  createConflict key newShadow existingShadow existing :=
    (s.createConflict key newShadow existingShadow existing).noted
      (.createConflict key newShadow existingShadow)
  extendConflict key newShadow existing :=
    (s.extendConflict key newShadow existing).noted (.extendConflict key newShadow)
  onCommit action := fun (t, log) => (s.onCommit action t, log ++ [.queue])

/-- The state that reading the given keys leaves, whether they can be read or not. -/
def readAll (s : Storage σ α ω ε) (keys : List String) (t : σ) : σ :=
  keys.foldl (fun t key => ((s.get key).answer t).2) t

/-- The accesses are reads, and they lead from one state to the other. -/
def Reads (s : Storage σ α ω ε) (t : σ) (accesses : List Access) (t' : σ) : Prop :=
  ∃ keys : List String, accesses = keys.map .read ∧ t' = s.readAll keys t

variable {s : Storage σ α ω ε} {t t₁ t₂ : σ} {first rest : List Access}

theorem reads_nil (s : Storage σ α ω ε) (t : σ) : s.Reads t [] t := ⟨[], rfl, rfl⟩

theorem reads_append (hfirst : s.Reads t first t₁) (hrest : s.Reads t₁ rest t₂) :
    s.Reads t (first ++ rest) t₂ := by
  obtain ⟨keys, rfl, rfl⟩ := hfirst
  obtain ⟨more, rfl, rfl⟩ := hrest
  refine ⟨keys ++ more, List.map_append.symm, ?_⟩
  rw [readAll, readAll, readAll, List.foldl_append]

/-- Where a read leaves the state alone, so do any number of them. -/
theorem readAll_of_keeps (hget : ∀ key t, ((s.get key).answer t).2 = t) (keys : List String)
    (t : σ) : s.readAll keys t = t := by
  induction keys generalizing t with
  | nil => rfl
  | cons key rest ih =>
    have hfirst : s.readAll (key :: rest) t = s.readAll rest ((s.get key).answer t).2 := rfl
    rw [hfirst, hget, ih]

/-! ## §2 Kinds of operations -/

/-- However it ends, the operation has only read. -/
def Reading (s : Storage σ α ω ε) (x : Op (σ × ω) (IntakeError ε) β)
    (x' : Op ((σ × List Access) × ω) (IntakeError ε) β) : Prop :=
  Op.Recorded (fun t accesses t' _ => s.Reads t accesses t') x x'

/-- The operation fails only where the storage does. -/
def Storing (x : Op (σ × ω) (IntakeError ε) β) (x' : Op ((σ × List Access) × ω) (IntakeError ε) β) :
    Prop :=
  Op.Recorded (fun _ _ _ result => ∀ e, result = .error e → ∃ source, e = .storage source) x x'

/-- When the operation fails and the storage has not, it has only read. -/
def Checked (s : Storage σ α ω ε) (x : Op (σ × ω) (IntakeError ε) β)
    (x' : Op ((σ × List Access) × ω) (IntakeError ε) β) : Prop :=
  Op.Recorded (fun t accesses t' result => ∀ e, result = .error e →
    (∃ source, e = .storage source) ∨ s.Reads t accesses t') x x'

variable {x : Op (σ × ω) (IntakeError ε) β} {x' : Op ((σ × List Access) × ω) (IntakeError ε) β}
  {f : β → Op (σ × ω) (IntakeError ε) γ} {f' : β → Op ((σ × List Access) × ω) (IntakeError ε) γ}

theorem reading_pure (s : Storage σ α ω ε) (b : β) :
    s.Reading (pure b : Op (σ × ω) (IntakeError ε) β) (pure b) := by
  intro t w
  exact ⟨[], t, w, .ok b, s.reads_nil t, rfl, fun log => by rw [List.append_nil]; rfl⟩

theorem reading_throw (s : Storage σ α ω ε) (e : IntakeError ε) :
    s.Reading (throw e : Op (σ × ω) (IntakeError ε) β) (throw e) := by
  intro t w
  exact ⟨[], t, w, .error e, s.reads_nil t, rfl, fun log => by rw [List.append_nil]; rfl⟩

/-- What happens in the world only reads nothing. -/
theorem reading_outside (s : Storage σ α ω ε) (act : ω → β × ω) :
    s.Reading (Op.outside act : Op (σ × ω) (IntakeError ε) β) (Op.outside act) := by
  intro t w
  exact ⟨[], t, (act w).2, .ok (act w).1, s.reads_nil t, rfl,
    fun log => by rw [List.append_nil]; rfl⟩

theorem storing_pure (b : β) :
    Storing (pure b : Op (σ × ω) (IntakeError ε) β) (pure b) := by
  intro t w
  exact ⟨[], t, w, .ok b, by simp, rfl, fun log => by rw [List.append_nil]; rfl⟩

theorem Reading.bind (hx : s.Reading x x') (hf : ∀ b, s.Reading (f b) (f' b)) :
    s.Reading (x >>= f) (x' >>= f') :=
  Op.recorded_bind hx hf (fun _ _ _ _ h => h) fun _ _ _ _ _ _ _ => reads_append

theorem Storing.bind (hx : Storing x x') (hf : ∀ b, Storing (f b) (f' b)) :
    Storing (x >>= f) (x' >>= f') := by
  refine Op.recorded_bind hx hf ?_ fun _ _ _ _ _ _ _ _ hrest => hrest
  intro _ _ _ e hfirst e' he
  exact hfirst e' (congrArg Except.error (Except.error.inj he))

theorem Reading.checked (hx : s.Reading x x') : s.Checked x x' :=
  Op.recorded_mono hx fun _ _ _ _ h _ _ => .inr h

theorem Storing.checked (hx : Storing x x') : s.Checked x x' :=
  Op.recorded_mono hx fun _ _ _ _ h e he => .inl (h e he)

/-- Before the first check there may be reads. -/
theorem Reading.bind_checked (hx : s.Reading x x') (hf : ∀ b, s.Checked (f b) (f' b)) :
    s.Checked (x >>= f) (x' >>= f') := by
  refine Op.recorded_bind hx hf (fun _ _ _ _ h _ _ => .inr h) ?_
  intro _ _ _ _ _ _ _ hfirst hrest e he
  exact (hrest e he).imp_right (reads_append hfirst)

/-- After the last check there may be writes. -/
theorem Checked.bind_storing (hx : s.Checked x x') (hf : ∀ b, Storing (f b) (f' b)) :
    s.Checked (x >>= f) (x' >>= f') := by
  refine Op.recorded_bind hx hf ?_ ?_
  · intro _ _ _ e hfirst e' he
    exact hfirst e' (congrArg Except.error (Except.error.inj he))
  · intro _ _ _ _ _ _ _ _ hrest e he
    exact .inl (hrest e he)

theorem reading_get (s : Storage σ α ω ε) (key : String) :
    s.Reading (Intake.fetch s key) (Intake.fetch s.recorded key) := by
  refine Op.recorded_mono (Op.recorded_noted IntakeError.fetch (.read key) (s.get key)) ?_
  rintro t _ _ _ ⟨rfl, rfl, -⟩
  exact ⟨[key], rfl, rfl⟩

/-- An access whose failure is put into words as one of the storage. -/
theorem storing_noted (access : Access) (op : Op σ ε β) :
    Storing (op.within .storage : Op (σ × ω) (IntakeError ε) β)
      ((op.noted access).within .storage) :=
  Op.recorded_mono (Op.recorded_noted IntakeError.storage access op) fun _ _ _ _ h => h.2.2

end Storage

/-! ## §3 Parts of an intake -/

namespace Intake

open Storage

variable (s : Storage σ α ω ε)

theorem reading_judge (incoming existing : Metadata) :
    s.Reading (judge incoming existing) (judge incoming existing) := by
  unfold judge
  split
  · exact s.reading_pure _
  · exact s.reading_throw _

theorem reading_runTriggers (key : String) (payload : α) (incoming : Metadata)
    (triggers : List (Trigger α ω)) :
    s.Reading (runTriggers key payload incoming triggers)
      (runTriggers key payload incoming triggers) := by
  induction triggers with
  | nil => exact s.reading_pure ()
  | cons trigger rest ih =>
    refine (s.reading_outside _).bind fun verdict => ?_
    cases verdict with
    | error reason =>
      -- an objection ends the run, and the storage has not been touched
      exact s.reading_throw _
    | ok _ => exact ih

theorem reading_holdsIdentity (incoming : Metadata) (shadows : List String) :
    s.Reading (holdsIdentity s incoming shadows) (holdsIdentity s.recorded incoming shadows) := by
  induction shadows with
  | nil => exact s.reading_pure false
  | cons shadow rest ih =>
    refine (s.reading_get shadow).bind fun side => ?_
    split
    · exact s.reading_pure true
    · exact ih

theorem reading_holdsSide (existing : Record α) (incoming : Metadata) :
    s.Reading (holdsSide s existing incoming) (holdsSide s.recorded existing incoming) := by
  unfold holdsSide
  split
  · exact s.reading_pure false
  · exact reading_holdsIdentity s incoming _

theorem reading_knowsDelete (existing : Record α) (metadata : Metadata) :
    s.Reading (knowsDelete s existing metadata) (knowsDelete s.recorded existing metadata) := by
  unfold knowsDelete
  split
  · exact s.reading_pure false
  · split
    · exact s.reading_pure true
    · exact reading_holdsSide s existing metadata

theorem storing_removeShadows (shadows : List String) :
    Storing (removeShadows s shadows) (removeShadows s.recorded shadows) := by
  induction shadows with
  | nil => exact storing_pure ()
  | cons shadow rest ih => exact (storing_noted _ _).bind fun _ => ih

theorem storing_storeSide (shadow : String) (side : Metadata) (payload : Option α) :
    Storing (storeSide s shadow side payload) (storeSide s.recorded shadow side payload) := by
  cases payload with
  | some a => exact storing_noted _ _
  | none => exact storing_noted _ _

theorem storing_joinConflict (key newShadow existingShadow : String) (existing : Record α) :
    Storing (joinConflict s key newShadow existingShadow existing)
      (joinConflict s.recorded key newShadow existingShadow existing) := by
  unfold joinConflict
  split
  · exact storing_noted _ _
  · exact storing_noted _ _

variable (i : Intake α ω)

theorem storing_announce (note : Notification) :
    Storing (i.announce s note) (i.announce s.recorded note) := by
  intro t w
  exact ⟨[.queue], _, w, .ok (), by simp, rfl, fun log => rfl⟩

/-- The triggers are run before the payload is stored. -/
theorem checked_storeResolution (key : String) (incoming : Metadata) (existing : Record α)
    (resolution : Resolution α) :
    s.Checked (i.storeResolution s key incoming existing resolution)
      (i.storeResolution s.recorded key incoming existing resolution) := by
  cases resolution with
  | remove metadata =>
    -- a tombstone has no payload to check
    refine ((storing_noted _ _).bind fun _ => ?_).checked
    exact (storing_noted _ _).bind fun _ => storing_pure _
  | keep metadata payload =>
    refine (reading_runTriggers s key payload incoming _).bind_checked fun _ => ?_
    exact ((storing_noted _ _).bind fun _ => storing_pure _).checked

theorem checked_applyResolution (key : String) (incoming : Metadata) (existing : Record α)
    (resolution : Resolution α) :
    s.Checked (i.applyResolution s key incoming existing resolution)
      (i.applyResolution s.recorded key incoming existing resolution) :=
  (checked_storeResolution s i key incoming existing resolution).bind_storing fun _ =>
    (storing_removeShadows s _).bind fun _ => storing_pure _

/-- A collision of the shadows is noticed before the first side is stored. -/
theorem checked_contend (key : String) (metadata : Metadata) (payload : Option α)
    (existing : Record α) (operation : Operation) :
    s.Checked (i.contend s key metadata payload existing operation)
      (i.contend s.recorded key metadata payload existing operation) := by
  -- the copy has the kind and the name of the storage
  have hkind : s.recorded.kind = s.kind := rfl
  have hlocal : s.recorded.discriminator = s.discriminator := rfl
  unfold contend
  split
  · exact (s.reading_throw _).checked
  · simp only [hkind, hlocal]
    split
    · exact (s.reading_throw _).checked
    · -- from here on it only stores: the side, the marker, the notification
      refine ((storing_storeSide s _ _ payload).bind fun _ =>
        (storing_joinConflict s key _ _ existing).bind fun summary => ?_).checked
      split
      · exact (storing_announce s i _).bind fun _ => storing_pure _
      · exact storing_pure _

theorem checked_decide (key : String) (metadata : Metadata) (payload : Option α)
    (existing : Record α) (operation : Operation) :
    s.Checked (i.decide s key metadata payload existing operation)
      (i.decide s.recorded key metadata payload existing operation) := by
  unfold Intake.decide
  split
  · exact (s.reading_throw _).checked
  · exact checked_applyResolution s i key metadata existing _
  · exact checked_contend s i key metadata payload existing operation

theorem checked_putOver (key : String) (metadata : Metadata) (payload : α) (existing : Record α) :
    s.Checked (i.putOver s key metadata payload existing)
      (i.putOver s.recorded key metadata payload existing) := by
  have hdecide := checked_decide s i key metadata (some payload) existing .put
  unfold putOver
  split
  · -- a marker has no ancestry to judge by
    exact hdecide
  · refine (reading_judge s metadata existing.metadata).bind_checked fun ancestry => ?_
    cases ancestry with
    | descendant => exact ((storing_noted _ _).bind fun _ => storing_pure _).checked
    | ancestor => exact (s.reading_pure _).checked
    | same => exact hdecide
    | concurrent => exact hdecide

theorem checked_putBounded (key : String) (metadata : Metadata) (payload : α) :
    s.Checked (i.putBounded s key metadata payload)
      (i.putBounded s.recorded key metadata payload) := by
  refine (s.reading_get key).bind_checked fun existing => ?_
  cases existing with
  | none => exact ((storing_noted _ _).bind fun _ => storing_pure _).checked
  | some existing =>
    dsimp only
    split
    · exact (s.reading_pure _).checked
    · refine (reading_holdsSide s existing metadata).bind_checked fun isHeld => ?_
      split
      · exact (s.reading_pure _).checked
      · exact checked_putOver s i key metadata payload existing

theorem checked_put (key : String) (metadata : Metadata) (payload : α) :
    s.Checked (i.put s key metadata payload) (i.put s.recorded key metadata payload) := by
  unfold Intake.put
  split
  · exact (s.reading_throw _).checked
  · split
    · exact (s.reading_throw _).checked
    · exact checked_putBounded s i key _ payload

theorem checked_deleteOver (key : String) (metadata : Metadata) (existing : Record α) :
    s.Checked (i.deleteOver s key metadata existing)
      (i.deleteOver s.recorded key metadata existing) := by
  unfold deleteOver
  split
  · -- a marker takes the deletion as one more side
    exact checked_contend s i key metadata none existing .delete
  · split
    · -- two deletions are merged without being compared
      exact ((storing_noted _ _).bind fun _ => storing_pure _).checked
    · refine (reading_judge s metadata existing.metadata).bind_checked fun ancestry => ?_
      have hdecide := checked_decide s i key metadata none existing .delete
      cases ancestry with
      | descendant =>
        refine ((storing_noted _ _).bind fun _ => ?_).checked
        exact (storing_noted _ _).bind fun _ => storing_pure _
      | ancestor => exact (s.reading_pure _).checked
      | same => exact hdecide
      | concurrent => exact hdecide

theorem checked_delete (key : String) (metadata : Metadata) :
    s.Checked (i.delete s key metadata) (i.delete s.recorded key metadata) := by
  unfold Intake.delete
  refine (s.reading_get key).bind_checked fun existing => ?_
  cases existing with
  | none => exact (s.reading_pure _).checked
  | some existing =>
    refine (reading_knowsDelete s existing _).bind_checked fun isKnown => ?_
    split
    · exact (s.reading_pure _).checked
    · exact checked_deleteOver s i key _ existing

theorem checked_replicate (key : String) (metadata : Metadata) (payload : Option α) :
    s.Checked (i.replicate s key metadata payload)
      (i.replicate s.recorded key metadata payload) := by
  unfold replicate
  split
  · exact checked_delete s i key metadata
  · split
    · exact checked_put s i key metadata _
    · exact (s.reading_throw _).checked

end Intake

/-! ## §4 Refusals -/

/-- How a write is handed to an intake: as what its metadata says, or as one kind of write
whatever the metadata says. -/
inductive Entry (α : Type) where
  | asWritten (payload : Option α)
  | asPut (payload : α)
  | asDeletion

namespace Entry

/-- Takes in the write. -/
def run (i : Intake α ω) (s : Storage σ α ω ε) (key : String) (metadata : Metadata) :
    Entry α → Op (σ × ω) (IntakeError ε) Outcome
  | asWritten payload => i.replicate s key metadata payload
  | asPut payload => i.put s key metadata payload
  | asDeletion => i.delete s key metadata

/-- The call of a batch that takes in the write. -/
def call (i : Intake α ω) (key : String) (metadata : Metadata) : Entry α → Call α ω
  | asWritten payload => .replicate i key metadata payload
  | asPut payload => .replicatePut i key metadata payload
  | asDeletion => .replicateDelete i key metadata

theorem checked_run (s : Storage σ α ω ε) (i : Intake α ω) (key : String) (metadata : Metadata)
    (entry : Entry α) :
    s.Checked (entry.run i s key metadata) (entry.run i s.recorded key metadata) := by
  cases entry with
  | asWritten payload => exact Intake.checked_replicate s i key metadata payload
  | asPut payload => exact Intake.checked_put s i key metadata payload
  | asDeletion => exact Intake.checked_delete s i key metadata

theorem run_call (b : Backend ρ σ α ω) (i : Intake α ω) (key : String) (metadata : Metadata)
    (entry : Entry α) :
    (entry.call i key metadata).run b = Call.intakeCall key (entry.run i b.storage key metadata) := by
  cases entry <;> rfl

end Entry

/-- A write that is refused for any other reason than a failure of the storage has been refused
after reads only. The same run with a log notes nothing but reads, so nothing was written, removed
or left for the commit, and the transaction is as the reads leave it. -/
theorem refused_after_reads (s : Storage σ α ω ε) (i : Intake α ω) (key : String)
    (metadata : Metadata) (entry : Entry α) {t t' : σ} {w w' : ω} {e : IntakeError ε}
    (hrefused : (entry.run i s key metadata).answer (t, w) = (.error e, t', w'))
    (hother : ∀ source, e ≠ .storage source) :
    ∃ keys : List String, t' = s.readAll keys t ∧
      ∀ log, (entry.run i s.recorded key metadata).answer ((t, log), w) =
        (.error e, (t', log ++ keys.map .read), w') := by
  obtain ⟨accesses, t₁, w₁, result, hchecked, hplain, hrecorded⟩ :=
    entry.checked_run s i key metadata t w
  obtain ⟨rfl, rfl, rfl⟩ : result = .error e ∧ t₁ = t' ∧ w₁ = w' := by
    rw [hplain] at hrefused
    simpa using hrefused
  rcases hchecked e rfl with ⟨source, he⟩ | ⟨keys, rfl, ht⟩
  · exact absurd he (hother source)
  · exact ⟨keys, ht, hrecorded⟩

/-- A transaction of a store that holds a write of `a`. -/
def holdsA : Memory.Transaction String Unit :=
  { contents := ({} : Memory String).write "k" (.data "a1") (.ofId "a" 1) }

/-- A write that names this node would have the shadow of the stored one. It is refused before a
side of a conflict is stored. -/
theorem collision_refused_after_reads :
    ∃ keys : List String, holdsA = (Memory.storage .document "L").readAll keys holdsA ∧
      ∀ log, ((Entry.asWritten (some "l1")).run {} (Memory.storage .document "L").recorded "k"
        (.ofId "L" 1)).answer ((holdsA, log), ()) =
          (.error (.shadowCollision "k/conflicts/L"), (holdsA, log ++ keys.map .read), ()) :=
  refused_after_reads (Memory.storage .document "L") {} "k" (.ofId "L" 1) (.asWritten (some "l1"))
    rfl (by simp)

/-- In a batch, the calls after a refused one run on the transaction as it was before it. -/
theorem refused_call_keeps_transaction (b : Backend ρ σ α ω)
    (hread : ∀ q u, ((b.read q).answer u).2 = u) (i : Intake α ω) (key : String)
    (metadata : Metadata) (entry : Entry α) {t t' : σ} {w w' : ω} {e : IntakeError StoreError}
    (hrefused : ((entry.call i key metadata).run b).answer (t, w) = (.error (.intake key e), t', w'))
    (hother : ∀ source, e ≠ .storage source) : t' = t := by
  obtain ⟨accesses, t₁, w₁, result, hchecked, hplain, -⟩ :=
    entry.checked_run b.storage i key metadata t w
  -- the call only puts the failure of the intake into other words
  rw [entry.run_call, Call.intakeCall, Op.answer_bind, Op.answer_wrapError, hplain] at hrefused
  cases result with
  | ok outcome => cases hrefused
  | error e' =>
    cases hrefused
    rcases hchecked _ rfl with ⟨source, he⟩ | ⟨keys, -, ht⟩
    · exact absurd he (hother source)
    · rw [ht, b.storage.readAll_of_keeps hread]

end ReplicaIntake
