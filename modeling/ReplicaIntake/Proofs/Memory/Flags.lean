import ReplicaIntake.Proofs.Memory.Markers

/-!
# Records that are flagged as markers

A record counts as a marker also when its metadata says that it is one. As long as no write is taken
in that is flagged so, only markers are flagged as markers: a side of a conflict is flagged as a
side too, and whatever a policy or a local write stores has its flags cleared (`genuine_runAll`).
-/

namespace ReplicaIntake

variable {α ω : Type}

/-- The use is a single one, and a write that it takes in is not flagged as a conflict. -/
def Command.IsUnflagged : Command α ω → Prop
  | .replicate _ _ metadata _ => metadata.conflict = false
  | .batch _ _ => False
  | _ => True

theorem Command.IsUnflagged.single {command : Command α ω} (h : command.IsUnflagged) :
    command.IsSingle := by
  cases command with
  | batch => exact h
  | _ => trivial

namespace Memory

variable {kind : ItemKind} {localId key : String} {m m' : Memory α}

/-- The record holds a marker if it counts as one. -/
def Genuine (_ : String) (r : Record α) : Prop :=
  r.isMarker = true → ∃ marker, r.content = .marker marker

theorem plain_of_genuine {r : Record α} (h : Genuine key r)
    (hcontent : ∀ marker, r.content ≠ .marker marker) : r.isMarker = false := by
  cases hmarker : r.isMarker with
  | false => rfl
  | true =>
    obtain ⟨marker, heq⟩ := h hmarker
    exact absurd heq (hcontent marker)

/-! ## §1 What is written -/

theorem genuine_unflagged (q : String) (payload : Option α) (etag : Etag) {metadata : Metadata}
    (hflag : metadata.conflict = false) : Genuine q ⟨.ofPayload payload, etag, metadata⟩ := by
  intro hmarker
  rw [isMarker_of_unflagged payload etag hflag] at hmarker
  cases hmarker

/-- A side is flagged as a side. -/
theorem genuine_side (q : String) (content : Content α) (etag : Etag) (metadata : Metadata) :
    Genuine q ⟨content, etag, metadata.asConflictSide⟩ := by
  cases content with
  | marker marker => exact fun _ => ⟨marker, rfl⟩
  | data a => simp [Genuine, Record.isMarker, Metadata.asConflictSide]
  | tombstone => simp [Genuine, Record.isMarker, Metadata.asConflictSide]

theorem genuine_marker (q : String) (marker : Marker) (etag : Etag) (metadata : Metadata) :
    Genuine q (⟨.marker marker, etag, metadata⟩ : Record α) :=
  fun _ => ⟨marker, rfl⟩

/-! ## §2 Writes that are taken in or made -/

theorem genuine_contended {side : Metadata} {payload : Option α} {existing : Record α}
    {operation : Operation} {result : Except (IntakeError StoreError) Outcome}
    {notes : List Notification} (h : EveryRecord Genuine m)
    (hcontended : Contended kind localId key side payload existing operation m result m' notes) :
    EveryRecord Genuine m' := by
  have hside : ∀ source, EveryRecord Genuine (m.withSide key source side payload) :=
    fun source => everyRecord_write h _ (genuine_side _ _ _ _)
  cases hcontended with
  | noSource => exact h
  | collision => exact h
  | created _ _ _ hm _ =>
    rw [hm]
    apply everyRecord_write
    · exact everyRecord_write (hside _) _ (genuine_side _ _ _ _)
    · exact genuine_marker _ _ _ _
  | joined _ _ _ _ hm =>
    rw [hm]
    exact everyRecord_write (hside _) _ (genuine_marker _ _ _ _)
  | rewritten => exact hside _
  | flagged => exact hside _

theorem genuine_settled {i : Intake α ω} {incoming : Metadata} {existing : Record α} {w w' : ω}
    {resolution : Resolution α} {result : Except (IntakeError StoreError) Outcome}
    (h : EveryRecord Genuine m)
    (hsettled : Settled i kind key incoming existing m w resolution result m' w') :
    EveryRecord Genuine m' := by
  -- a decision is stored with its flags cleared
  cases hsettled with
  | removed metadata =>
    exact everyRecord_eraseAll (everyRecord_write h key (genuine_unflagged key none _ rfl)) _
  | kept metadata payload =>
    exact everyRecord_eraseAll
      (everyRecord_write h key (genuine_unflagged key (some payload) _ rfl)) _
  | refused => exact h

theorem genuine_met {i : Intake α ω} {w w' : ω} {metadata : Metadata} {payload : Option α}
    {existing : Record α} {result : Except (IntakeError StoreError) Outcome}
    {notes : List Notification} (h : EveryRecord Genuine m) (hflag : metadata.conflict = false)
    (hmet : Met i kind localId key m w metadata payload existing result m' notes w') :
    EveryRecord Genuine m' := by
  have harrived : (i.arrived metadata existing.metadata).conflict = false := by
    simpa using hflag
  cases hmet with
  | merged => exact everyRecord_write h key (genuine_unflagged key none _ harrived)
  | overwritten => exact everyRecord_write h key (genuine_unflagged key (some _) _ harrived)
  | deleted => exact everyRecord_write h key (genuine_unflagged key none _ harrived)
  | settled _ _ hsettled => exact genuine_settled h hsettled
  | declined _ _ hcontended => exact genuine_contended h hcontended
  | disputed _ _ _ hcontended => exact genuine_contended h hcontended
  | _ => exact h

theorem genuine_taken {i : Intake α ω} {w w' : ω} {metadata : Metadata} {payload : Option α}
    {result : Except (IntakeError StoreError) Outcome} {notes : List Notification}
    (h : EveryRecord Genuine m) (hflag : metadata.conflict = false)
    (htaken : Taken i kind localId key m w metadata payload result m' notes w') :
    EveryRecord Genuine m' := by
  cases htaken with
  | created => exact everyRecord_write h key (genuine_unflagged key (some _) _ hflag)
  | met _ _ hmet => exact genuine_met h hflag hmet
  | _ => exact h

theorem genuine_written {payload : Option α} {max : Nat} {metadata : Metadata}
    (h : EveryRecord Genuine m) (hwritten : Written localId key payload max m metadata m') :
    EveryRecord Genuine m' := by
  have hversioned : EveryRecord Genuine m.versioned := h
  cases hwritten with
  | stamped _ hmetadata =>
    apply everyRecord_write hversioned key (genuine_unflagged key payload _ _)
    rw [hmetadata]
    cases (m.records.find? key).map (·.metadata) <;> rfl
  | resolved _ _ hmetadata =>
    apply everyRecord_eraseAll
    apply everyRecord_write hversioned key (genuine_unflagged key payload _ _)
    rw [hmetadata]
    rfl

/-! ## §3 Histories -/

theorem genuine_advanced {command : Command α ω} (hunflagged : command.IsUnflagged)
    (h : EveryRecord Genuine m) (hadvanced : Advanced kind localId m command m') :
    EveryRecord Genuine m' := by
  cases hadvanced with
  | unchanged => exact h
  | replicated htaken => exact genuine_taken h hunflagged htaken
  | stored hwritten => exact genuine_written h hwritten
  | deleted hwritten => exact genuine_written h hwritten
  | resolved hwritten => exact genuine_written h hwritten
  | batched => exact absurd hunflagged id

/-- After every history that takes in no flagged write, only markers are flagged as markers. -/
theorem genuine_runAll (kind : ItemKind) (localId : String) {history : List (Command α ω)}
    (hunflagged : ∀ command ∈ history, command.IsUnflagged) (w : ω) :
    EveryRecord Genuine (Command.runAll (backend kind localId) history ({}, w)).2.1 := by
  apply runAll_keeps kind localId
  · intro command hcommand m m' h hadvanced
    exact genuine_advanced (hunflagged command hcommand) h hadvanced
  · intro key r hread
    cases hread

end Memory

end ReplicaIntake
