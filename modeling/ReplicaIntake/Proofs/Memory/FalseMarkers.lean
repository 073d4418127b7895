import ReplicaIntake.Proofs.Memory.Edits
import ReplicaIntake.Proofs.Memory.Flags

/-!
# Records that count as markers without being one

What a record counts as is read off its content and off the flags of its metadata. Local writes,
decisions of a policy, markers and the sides of a conflict are stored with flags that fit. A
replicated write that is stored under its key keeps the flags that it came with. That it is a
deletion decides how it is stored, so a record counts as a tombstone exactly when it is one. But a
write that is flagged as a conflict, and not as a side of one, leaves a record that counts as a
marker and lists no shadows: a false marker.

The next write from another node that contends with a false marker fails in the storage, because
there is no marker to list its shadow in. Nothing else makes an intake fail there
(`storage_error_iff_false_marker`), and it fails again for every such write
(`taken_of_contends`).
-/

namespace ReplicaIntake

variable {α ω : Type}

/-- The flags are those of a marker: the item is in conflict and is no side of it. -/
def Metadata.posesAsMarker (metadata : Metadata) : Bool :=
  metadata.conflict && !metadata.conflictSide

/-- The record counts as a marker and holds none. -/
def Record.IsFalseMarker (r : Record α) : Prop :=
  r.isMarker = true ∧ ∀ marker, r.content ≠ .marker marker

/-- The key holds the write itself now. -/
def Outcome.holdsWrite : Outcome → Bool
  | .created | .overwritten | .deleted | .historiesMerged => true
  | _ => false

theorem Record.isFalseMarker_iff (payload : Option α) (etag : Etag) (metadata : Metadata) :
    (⟨.ofPayload payload, etag, metadata⟩ : Record α).IsFalseMarker ↔
      metadata.posesAsMarker = true := by
  cases payload <;> simp [IsFalseMarker, isMarker, Content.ofPayload, Metadata.posesAsMarker]

/-- What a record that is no false marker counts as is what it holds. -/
theorem Record.isMarker_iff_of_not {r : Record α} (h : ¬ r.IsFalseMarker) :
    r.isMarker = true ↔ ∃ marker, r.content = .marker marker := by
  constructor
  · intro hmarker
    refine Classical.byContradiction fun hnone => h ⟨hmarker, ?_⟩
    exact fun marker hcontent => hnone ⟨marker, hcontent⟩
  · rintro ⟨marker, hcontent⟩
    exact Memory.isMarker_of_content hcontent

namespace Memory

open ShadowKey (make)

variable {kind : ItemKind} {localId key : String} {m m' : Memory α}

/-! ## §1 What records count as -/

/-- The record is a tombstone if it counts as one. -/
def Buried (_ : String) (r : Record α) : Prop :=
  r.isTombstone = true → r.content = .tombstone

theorem buried_ofPayload (q : String) {payload : Option α} (etag : Etag) {metadata : Metadata}
    (h : metadata.deleted = true → payload = none) :
    Buried q ⟨.ofPayload payload, etag, metadata⟩ := by
  cases payload with
  | none => exact fun _ => rfl
  | some a => exact fun hdeleted => nomatch h hdeleted

/-- Whatever a use writes over a store in which tombstones alone count as such is one if it counts
as one. -/
theorem buried_stored {command : Command α ω} (h : EveryRecord Buried m) (q : String)
    (content : Content α) (stored : Metadata) (etag : Etag)
    (hstores : Stores localId m command q content stored) : Buried q ⟨content, etag, stored⟩ := by
  -- a deletion carries no payload
  have hcarried : ∀ {metadata : Metadata} {payload : Option α}, metadata.deleted = true →
      metadata.carried payload = none := by
    intro metadata payload hdelete
    simp [Metadata.carried, hdelete]
  cases hstores with
  | incoming _ hdeleted =>
    exact buried_ofPayload q etag fun hdelete => hcarried (hdeleted ▸ hdelete)
  | side _ hdeleted => exact buried_ofPayload _ etag fun hdelete => hcarried (hdeleted ▸ hdelete)
  | moved hread =>
    have hstored : Buried _ _ := h _ _ hread
    exact hstored
  | marked =>
    intro hdeleted
    cases hdeleted
  | @extended _ _ _ _ _ existing _ _ hread hmarker =>
    -- the marker that was there would have been flagged as deleted too
    intro hdeleted
    have hstored : existing.content = .tombstone :=
      h _ _ hread (by simpa [Record.isTombstone, hmarker] using hdeleted)
    simp [hmarker] at hstored
  | made payload _ _ hdeleted =>
    exact buried_ofPayload q etag fun hdelete => by simpa [hdeleted] using hdelete

/-- A false marker is an incoming write that posed as one. -/
def Accounted (history : List (Command α ω)) (q : String) (r : Record α) : Prop :=
  r.IsFalseMarker → ∃ i metadata payload, Command.replicate i q metadata payload ∈ history ∧
    metadata.posesAsMarker = true ∧ r.metadata.identity = metadata.identity

theorem accounted_stored {command : Command α ω} {history : List (Command α ω)}
    (hcommand : command ∈ history) (q : String) (content : Content α) (stored : Metadata)
    (etag : Etag) (hstores : Stores localId m command q content stored) :
    Accounted history q ⟨content, etag, stored⟩ := by
  cases hstores with
  | incoming hidentity _ hconflict hside =>
    rw [Accounted, Record.isFalseMarker_iff]
    intro hposes
    refine ⟨_, _, _, hcommand, ?_, hidentity⟩
    rwa [Metadata.posesAsMarker, hconflict, hside] at hposes
  | side => simp [Accounted, Record.isFalseMarker_iff, Metadata.posesAsMarker,
      Metadata.asConflictSide]
  | moved =>
    rintro ⟨hmarker, hnone⟩
    obtain ⟨marker, hcontent⟩ := genuine_side "" _ _ _ hmarker
    exact absurd hcontent (hnone marker)
  | marked => exact fun hfalse => absurd rfl (hfalse.2 _)
  | extended => exact fun hfalse => absurd rfl (hfalse.2 _)
  | made _ _ hconflict =>
    simp [Accounted, Record.isFalseMarker_iff, Metadata.posesAsMarker, hconflict]

/-- After every history of single uses, a record counts as deleted only if it is a tombstone, and
every false marker is accounted for. -/
theorem accounted_runAll (kind : ItemKind) (localId : String) {history : List (Command α ω)}
    (hsingle : ∀ command ∈ history, command.IsSingle) (w : ω) :
    EveryRecord Buried (Command.runAll (backend kind localId) history ({}, w)).2.1 ∧
      EveryRecord (Accounted history)
        (Command.runAll (backend kind localId) history ({}, w)).2.1 := by
  constructor
  · apply runAll_keeps kind localId
    · intro command hcommand m m' h hadvanced
      exact everyRecord_advanced (hsingle command hcommand) h (buried_stored h) hadvanced
    · intro key r hread
      cases hread
  · apply runAll_keeps kind localId
    · intro command hcommand m m' h hadvanced
      exact everyRecord_advanced (hsingle command hcommand) h (accounted_stored hcommand) hadvanced
    · intro key r hread
      cases hread

/-! ## §2 Failures of the storage -/

variable {i : Intake α ω} {w w' : ω} {metadata : Metadata} {payload : Option α}
  {existing : Record α} {result : Except (IntakeError StoreError) Outcome}
  {notes : List Notification}

/-- The write is complete, the record does not know it, no policy decides about it, and it names
another node. -/
structure Contends (i : Intake α ω) (localId key : String) (m : Memory α) (metadata : Metadata)
    (payload : Option α) (existing : Record α) : Prop where
  complete : metadata.deleted = false → payload ≠ none ∧ metadata.identity ≠ none
  unknown : m.knows existing (i.arrived metadata existing.metadata) = false
  /-- A policy is not asked about a deletion that meets a marker. -/
  undecided : metadata.deleted = false →
    i.resolver key (i.arrived metadata existing.metadata) payload existing = .ok none
  foreign : ∃ source, metadata.source = some source ∧ source ≠ localId

/-- A contention fails in the storage on a false marker alone. -/
theorem false_of_contended {side : Metadata} {operation : Operation} {e : StoreError}
    (hcontended : Contended kind localId key side payload existing operation m
      (.error (.storage e)) m' notes) :
    e = .notConflicted key ∧ existing.IsFalseMarker ∧
      ∃ source, side.source = some source ∧ source ≠ localId := by
  cases hcontended with
  | flagged hsource hlocal hflag hmarker =>
    refine ⟨rfl, ⟨hflag, fun marker hcontent => ?_⟩, _, hsource, hlocal⟩
    simp [marker?_of_content hcontent] at hmarker

/-- In the storage an intake fails on a false marker alone, and with writes that contend with it. -/
theorem contends_of_taken {e : StoreError} (hpayload : metadata.deleted = false → payload ≠ none)
    (htaken : Taken i kind localId key m w metadata payload (.error (.storage e)) m' notes w') :
    e = .notConflicted key ∧ ∃ existing, m.records.find? key = some existing ∧
      existing.IsFalseMarker ∧ Contends i localId key m metadata payload existing := by
  cases htaken with
  | @met existing _ _ _ _ hread hid hmet =>
    have hcomplete : metadata.deleted = false → payload ≠ none ∧ metadata.identity ≠ none :=
      fun hput => ⟨hpayload hput, hid hput⟩
    cases hmet with
    | settled _ _ hsettled => cases hsettled
    | declined hoffered hresolver hcontended =>
      obtain ⟨rfl, hfalse, source, hsource, hlocal⟩ := false_of_contended hcontended
      refine ⟨rfl, existing, hread, hfalse, hcomplete, hoffered.unknown, fun hput => ?_, source,
        by simpa using hsource, hlocal⟩
      rwa [Metadata.carried_of_put hput] at hresolver
    | disputed hdelete hunknown _ hcontended =>
      obtain ⟨rfl, hfalse, source, hsource, hlocal⟩ := false_of_contended hcontended
      exact ⟨rfl, existing, hread, hfalse, hcomplete, hunknown, by simp [hdelete], source,
        by simpa using hsource, hlocal⟩

/-- A write that contends with a false marker fails in the storage. -/
theorem taken_of_contends (hread : m.records.find? key = some existing)
    (hfalse : existing.IsFalseMarker)
    (hcontends : Contends i localId key m metadata payload existing)
    (htaken : Taken i kind localId key m w metadata payload result m' notes w') :
    result = .error (.storage (.notConflicted key)) := by
  obtain ⟨source, hsource, hlocal⟩ := hcontends.foreign
  -- whatever is contended for, there is no marker to list the shadow in
  have hcontention : ∀ {operation}, Contended kind localId key
      (i.arrived metadata existing.metadata) (metadata.carried payload) existing operation m result
      m' notes → result = .error (.storage (.notConflicted key)) := by
    intro operation hcontended
    cases hcontended with
    | noSource hnone => simp [hsource] at hnone
    | collision hsame => simp [hsource, hlocal] at hsame
    | created _ _ hplain => simp [hfalse.1] at hplain
    | joined _ _ hmarker => exact absurd hmarker (hfalse.2 _)
    | rewritten _ _ hmarker => exact absurd hmarker (hfalse.2 _)
    | flagged => rfl
  have hplain : ¬ Compared i m metadata existing :=
    fun hcompared => absurd hcompared.plain (by simp [hfalse.1])
  have hundecided : Offered i m metadata existing →
      i.resolver key (i.arrived metadata existing.metadata) (metadata.carried payload) existing =
        .ok none := by
    rintro (⟨hcompared, -⟩ | ⟨hput, -, -⟩)
    · exact absurd hcompared hplain
    · rw [Metadata.carried_of_put hput]
      exact hcontends.undecided hput
  cases htaken with
  | missingPayload hput hnone => exact absurd hnone (hcontends.complete hput).1
  | missingIdentity hput hnone => exact absurd hnone (hcontends.complete hput).2
  | created _ _ _ habsent => simp [hread] at habsent
  | ignored _ habsent => simp [hread] at habsent
  | met hread' _ hmet =>
    obtain rfl := Option.some.inj (hread.symm.trans hread')
    cases hmet with
    | replayed hknown => simp [hcontends.unknown] at hknown
    | merged _ _ hcalm => simp [hfalse.1] at hcalm
    | contradicted hcompared => exact absurd hcompared hplain
    | overwritten _ _ hcompared => exact absurd hcompared hplain
    | deleted _ hcompared => exact absurd hcompared hplain
    | stale hcompared => exact absurd hcompared hplain
    | undecided hoffered hresolver => simp [hundecided hoffered] at hresolver
    | settled hoffered hresolver => simp [hundecided hoffered] at hresolver
    | declined _ _ hcontended => exact hcontention hcontended
    | disputed _ _ _ hcontended => exact hcontention hcontended

/-- A write that is stored under its key leaves a false marker exactly if it posed as a marker. -/
theorem false_iff_of_holdsWrite {outcome : Outcome} (hholds : outcome.holdsWrite = true)
    (htaken : Taken i kind localId key m w metadata payload (.ok outcome) m' notes w') :
    ∃ r, m'.records.find? key = some r ∧
      (r.IsFalseMarker ↔ metadata.posesAsMarker = true) := by
  -- what comes as data or a tombstone is stored with the flags that it came with
  have hwritten : ∀ (carried : Option α) {stored : Metadata}, stored.conflict = metadata.conflict →
      stored.conflictSide = metadata.conflictSide →
      ∃ r, (m.write key (.ofPayload carried) stored).records.find? key = some r ∧
        (r.IsFalseMarker ↔ metadata.posesAsMarker = true) := by
    intro carried stored hconflict hside
    refine ⟨_, (find?_write ..).trans (if_pos rfl), ?_⟩
    rw [Record.isFalseMarker_iff, Metadata.posesAsMarker, hconflict, hside]
    rfl
  cases htaken with
  | created => exact hwritten (some _) rfl rfl
  | ignored => cases hholds
  | met hread _ hmet =>
    cases hmet with
    | merged =>
      exact hwritten none (Intake.conflict_arrived i metadata _)
        (Intake.conflictSide_arrived i metadata _)
    | overwritten => exact hwritten (some _) (by simp) (by simp)
    | deleted => exact hwritten none (by simp) (by simp)
    | settled _ _ hsettled => cases hsettled <;> cases hholds
    | declined _ _ hcontended => cases hcontended <;> cases hholds
    | disputed _ _ _ hcontended => cases hcontended <;> cases hholds
    | replayed => cases hholds
    | stale => cases hholds

/-- After every history of single uses a record counts as a tombstone exactly if it is one, and as a
marker exactly if it holds one, apart from false markers, each of which is an incoming write that
posed as a marker. Taking in a further write fails in the storage exactly if the write contends with
a false marker. A write that is stored under its key leaves one exactly if it posed as a marker. So
without such writes there is no false marker, and no failure of the storage. -/
theorem storage_error_iff_false_marker (kind : ItemKind) (localId : String)
    {history : List (Command α ω)} (hsingle : ∀ command ∈ history, command.IsSingle) (w : ω) :
    let after := (Command.runAll (backend kind localId) history ({}, w)).2
    (∀ q r, after.1.records.find? q = some r →
      (r.isTombstone = true ↔ r.content = .tombstone) ∧
      ((r.isMarker = true ↔ ∃ marker, r.content = .marker marker) ∨
        r.IsFalseMarker ∧ ∃ i metadata payload, .replicate i q metadata payload ∈ history ∧
          metadata.posesAsMarker = true ∧ r.metadata.identity = metadata.identity)) ∧
    (∀ i key metadata payload e,
      ((Command.replicate i key metadata payload).run (backend kind localId) after).1 =
          .outcome (.error (.storage e)) ↔
        e = .notConflicted key ∧ ∃ r, after.1.records.find? key = some r ∧ r.IsFalseMarker ∧
          Contends i localId key after.1 metadata payload r) ∧
    (∀ i key metadata payload outcome s,
      (Command.replicate i key metadata payload).run (backend kind localId) after =
        (.outcome (.ok outcome), s) → outcome.holdsWrite = true →
      ∃ r, s.1.records.find? key = some r ∧
        (r.IsFalseMarker ↔ metadata.posesAsMarker = true)) ∧
    ((∀ i q metadata payload, .replicate i q metadata payload ∈ history →
        metadata.posesAsMarker = false) →
      (∀ q r, after.1.records.find? q = some r →
        (r.isMarker = true ↔ ∃ marker, r.content = .marker marker)) ∧
      ∀ i key metadata payload e,
        ((Command.replicate i key metadata payload).run (backend kind localId) after).1 ≠
          .outcome (.error (.storage e))) := by
  intro after
  obtain ⟨hburied, haccounted⟩ := accounted_runAll kind localId hsingle w
  have hfails : ∀ i key metadata payload e,
      ((Command.replicate i key metadata payload).run (backend kind localId) after).1 =
          .outcome (.error (.storage e)) ↔
        e = .notConflicted key ∧ ∃ r, after.1.records.find? key = some r ∧ r.IsFalseMarker ∧
          Contends i localId key after.1 metadata payload r := by
    intro i key metadata payload e
    obtain ⟨result, m', notes, w', htaken, hrun⟩ :=
      run_replicate kind localId i key metadata payload after
    constructor
    · intro hanswer
      -- a put without payload is refused before the storage is asked
      have hpayload : metadata.deleted = false → payload ≠ none := by
        rintro hput rfl
        rw [run_missingPayload kind localId i key hput after] at hanswer
        cases hanswer
      rw [hrun] at hanswer
      obtain rfl := Reply.outcome.inj hanswer
      exact contends_of_taken hpayload htaken
    · rintro ⟨rfl, r, hread, hfalse, hcontends⟩
      rw [hrun, taken_of_contends hread hfalse hcontends htaken]
  refine ⟨?_, hfails, ?_, ?_⟩
  · -- every record
    intro q r hread
    refine ⟨⟨hburied q r hread, fun hcontent => by simp [Record.isTombstone, hcontent]⟩, ?_⟩
    by_cases hfalse : r.IsFalseMarker
    · exact .inr ⟨hfalse, haccounted q r hread hfalse⟩
    · exact .inl (Record.isMarker_iff_of_not hfalse)
  · -- a write that is stored
    intro i key metadata payload outcome s hanswer hholds
    obtain ⟨result, m', notes, w', htaken, hrun⟩ :=
      run_replicate kind localId i key metadata payload after
    obtain ⟨hresult, rfl⟩ := Prod.mk.inj (hanswer.symm.trans hrun)
    obtain rfl := Reply.outcome.inj hresult
    exact false_iff_of_holdsWrite hholds htaken
  · -- no write has posed as a marker
    intro hgenuine
    have hnone : ∀ q r, after.1.records.find? q = some r → ¬ r.IsFalseMarker := by
      intro q r hread hfalse
      obtain ⟨i, metadata, payload, hmem, hposes, -⟩ := haccounted q r hread hfalse
      simp [hgenuine i q metadata payload hmem] at hposes
    refine ⟨fun q r hread => Record.isMarker_iff_of_not (hnone q r hread), ?_⟩
    intro i key metadata payload e hanswer
    obtain ⟨-, r, hread, hfalse, -⟩ := (hfails i key metadata payload e).1 hanswer
    exact hnone key r hread hfalse

/-- Two writes of `k` dispute, and neither of them poses as a marker. -/
def disputeOfK : List (Command String Unit) :=
  [.replicate {} "k" (.ofId "a" 1) (some "a1"), .replicate {} "k" (.ofId "b" 1) (some "b1")]

/-- Whatever write comes next, the storage does not fail. -/
theorem dispute_goes_on :
    (∀ command ∈ disputeOfK, command.IsSingle) ∧
      ∀ i key metadata payload e,
        ((Command.replicate i key metadata payload).run (backend .document "L")
          (Command.runAll (backend .document "L") disputeOfK ({}, ())).2).1 ≠
            .outcome (.error (.storage e)) := by
  have hsingle : ∀ command ∈ disputeOfK, command.IsSingle := by
    simp [disputeOfK, Command.IsSingle]
  obtain ⟨-, -, -, hgenuine⟩ := storage_error_iff_false_marker .document "L" hsingle ()
  refine ⟨hsingle, (hgenuine ?_).2⟩
  intro i q metadata payload hmem
  simp only [disputeOfK, List.mem_cons, List.not_mem_nil, or_false, Command.replicate.injEq] at hmem
  obtain ⟨-, -, rfl, -⟩ | ⟨-, -, rfl, -⟩ := hmem <;> rfl

/-- A first write of `k` that is flagged as a conflict. -/
def flaggedWriteOfK : List (Command String Unit) :=
  [.replicate {} "k" { Metadata.ofId "a" 1 with conflict := true } (some "a1")]

/-- It is not so that a record counts as a marker only if it holds one, and not that taking in a
write never fails in the storage: data that is flagged as a conflict counts as a marker, and a
concurrent write fails on it. -/
theorem flagged_write_blocks_key :
    (¬ ∀ history : List (Command String Unit), (∀ command ∈ history, command.IsSingle) →
      ∀ q r, (Command.runAll (backend .document "L") history ({}, ())).2.1.records.find? q =
        some r → (r.isMarker = true ↔ ∃ marker, r.content = .marker marker)) ∧
    ¬ ∀ history : List (Command String Unit), (∀ command ∈ history, command.IsSingle) →
      ∀ i key metadata payload e,
        ((Command.replicate i key metadata payload).run (backend .document "L")
          (Command.runAll (backend .document "L") history ({}, ())).2).1 ≠
            .outcome (.error (.storage e)) := by
  have hsingle : ∀ command ∈ flaggedWriteOfK, command.IsSingle := by
    simp [flaggedWriteOfK, Command.IsSingle]
  constructor
  · intro h
    have hmarker := (h flaggedWriteOfK hsingle "k"
      ⟨.data "a1", ⟨1⟩, { Metadata.ofId "a" 1 with conflict := true }⟩ (by decide +kernel)).1 rfl
    obtain ⟨marker, hcontent⟩ := hmarker
    cases hcontent
  · intro h
    exact h flaggedWriteOfK hsingle {} "k" (.ofId "b" 1) (some "b1") (.notConflicted "k") rfl

end Memory

end ReplicaIntake
