import ReplicaIntake.Proofs.Memory.Operations
import ReplicaIntake.Proofs.ShadowNames

/-!
# How a write becomes one side of a conflict in memory

`Contended` lists what can happen when a write is made one side of a conflict: three ways to succeed
and three refusals. With a plain record at hand the conflict is created, with a marker it gains a
side or has one rewritten in place. `contend_contended` says that nothing else happens.

The write is stored under the shadow of its node before the marker is touched. That shadow is
written whatever it held, so a side that is there already is replaced.
-/

namespace ReplicaIntake

variable {α ω : Type}

/-- The content of one side of a conflict: data, or a tombstone for a deletion. -/
def Content.ofPayload : Option α → Content α
  | some a => .data a
  | none => .tombstone

/-- What is queued to announce a conflict. -/
def Intake.announcement (i : Intake α ω) (note : Notification) : CommitAction ω := fun w =>
  (.finished, (i.notifier.raise note w).2)

/-- The world after every observer was told of the given conflicts, one after the other. -/
def Intake.tell (i : Intake α ω) (notes : List Notification) (w : ω) : ω :=
  notes.foldl (fun w note => (i.notifier.raise note w).2) w

namespace Memory

variable {kind : ItemKind} {localId key : String}

/-- The transaction after an intake that left `m` and announces `notes`. -/
def Transaction.taken (t : Transaction α ω) (i : Intake α ω) (m : Memory α)
    (notes : List Notification) : Transaction α ω where
  contents := m
  pending := ⟨t.pending.actions ++ notes.map i.announcement⟩

@[simp] theorem Transaction.taken_nil (t : Transaction α ω) (i : Intake α ω) (m : Memory α) :
    t.taken i m [] = t.replaced m := by
  simp [Transaction.taken, Transaction.replaced]

/-- The store with a write as the side under the shadow of its node. -/
def withSide (m : Memory α) (key source : String) (side : Metadata) (payload : Option α) :
    Memory α :=
  m.write (ShadowKey.make key source) (.ofPayload payload) side.asConflictSide

@[simp] theorem find?_withSide (m : Memory α) (key source : String) (side : Metadata)
    (payload : Option α) (q : String) :
    (m.withSide key source side payload).records.find? q =
      if q = ShadowKey.make key source then
        some ⟨.ofPayload payload, m.lastEtag.next, side.asConflictSide⟩
      else m.records.find? q :=
  find?_write _ _ _ _ _

@[simp] theorem lastEtag_withSide (m : Memory α) (key source : String) (side : Metadata)
    (payload : Option α) : (m.withSide key source side payload).lastEtag = m.lastEtag.next := rfl

/-- What making a write one side of a conflict can lead to: the answer, the contents and the
announcements. `existing` is the record that the conflict is about. -/
inductive Contended (kind : ItemKind) (localId key : String) (side : Metadata)
    (payload : Option α) (existing : Record α) (operation : Operation) (m : Memory α) :
    Except (IntakeError StoreError) Outcome → Memory α → List Notification → Prop
  /-- The write names no node. -/
  | noSource (hsource : side.source = none) :
    Contended kind localId key side payload existing operation m (.error .missingIdentity) m []
  /-- The write names this node, whose shadow is that of the stored side. -/
  | collision (hsource : side.source = some localId) :
    Contended kind localId key side payload existing operation m
      (.error (.shadowCollision (ShadowKey.make key localId))) m []
  /-- A plain record and the write become the two sides of a new conflict. -/
  | created {source : String} {m' : Memory α} {marker : Marker}
      (hsource : side.source = some source) (hlocal : source ≠ localId)
      (hplain : existing.isMarker = false)
      (hm : m' = (m.withSide key source side payload).withConflict key
        (ShadowKey.make key source) (ShadowKey.make key localId) existing)
      (hmarker : marker = ⟨[ShadowKey.make key localId, ShadowKey.make key source]⟩) :
    Contended kind localId key side payload existing operation m
      (.ok (.conflict ⟨m'.lastEtag, marker.shadows⟩ true)) m'
      [⟨key, m'.lastEtag, marker.shadows, kind, operation⟩]
  /-- The write is one more side of the conflict. -/
  | joined {source : String} {m' : Memory α} {marker : Marker}
      (hsource : side.source = some source) (hlocal : source ≠ localId)
      (hmarker : existing.content = .marker marker)
      (hnew : ShadowKey.make key source ∉ marker.shadows)
      (hm : m' = (m.withSide key source side payload).write key
        (.marker ⟨marker.shadows ++ [ShadowKey.make key source]⟩) existing.metadata) :
    Contended kind localId key side payload existing operation m
      (.ok (.conflict ⟨m'.lastEtag, marker.shadows ++ [ShadowKey.make key source]⟩ false)) m'
      [⟨key, m'.lastEtag, marker.shadows ++ [ShadowKey.make key source], kind, operation⟩]
  /-- The write replaces the side that the marker lists for its node. -/
  | rewritten {source : String} {marker : Marker}
      (hsource : side.source = some source) (hlocal : source ≠ localId)
      (hmarker : existing.content = .marker marker)
      (hlisted : ShadowKey.make key source ∈ marker.shadows) :
    Contended kind localId key side payload existing operation m
      (.ok (.conflict ⟨existing.etag, marker.shadows⟩ false))
      (m.withSide key source side payload) []
  /-- The record says that it is in conflict but holds no marker. The side is stored by then. -/
  | flagged {source : String}
      (hsource : side.source = some source) (hlocal : source ≠ localId)
      (hflag : existing.isMarker = true) (hmarker : existing.marker? = none) :
    Contended kind localId key side payload existing operation m
      (.error (.storage (.notConflicted key))) (m.withSide key source side payload) []

/-! ## §1 The steps of a contention -/

theorem isMarker_of_content {existing : Record α} {marker : Marker}
    (h : existing.content = .marker marker) : existing.isMarker = true := by
  simp [Record.isMarker, h]

theorem isMarker_of_unflagged (payload : Option α) (etag : Etag) {metadata : Metadata}
    (hflag : metadata.conflict = false) :
    (⟨Content.ofPayload payload, etag, metadata⟩ : Record α).isMarker = false := by
  cases payload <;> simp [Record.isMarker, Content.ofPayload, hflag]

theorem content_ne_marker {r : Record α} (h : r.isMarker = false) (marker : Marker) :
    r.content ≠ .marker marker := by
  intro hmarker
  rw [isMarker_of_content hmarker] at h
  cases h

theorem ofPayload_ne_marker (payload : Option α) (marker : Marker) :
    Content.ofPayload payload ≠ .marker marker := by
  cases payload <;> exact fun h => by cases h

theorem marker?_of_content {existing : Record α} {marker : Marker}
    (h : existing.content = .marker marker) : existing.marker? = some marker := by
  simp [Record.marker?, h]

theorem content_of_marker? {existing : Record α} {marker : Marker}
    (h : existing.marker? = some marker) : existing.content = .marker marker := by
  cases hc : existing.content with
  | marker m => simpa [Record.marker?, hc] using h
  | data a => simp [Record.marker?, hc] at h
  | tombstone => simp [Record.marker?, hc] at h

theorem shadows_pair {a b : String} (h : a ≠ b) : (Marker.pair a b) = ⟨[a, b]⟩ := by
  simp [Marker.pair, Marker.push, Marker.lists, h.symm]

/-- A side is stored under the shadow of its node. -/
theorem storeSide_eq {side : Metadata} {payload : Option α}
    (hside : payload = none → side.deleted = true) (t : Transaction α ω) (w : ω)
    (source : String) :
    Intake.storeSide (storage kind localId) (ShadowKey.make key source) side.asConflictSide
        payload (t, w) =
      .ok t.contents.lastEtag.next
        (t.replaced (t.contents.withSide key source side payload), w) := by
  cases payload with
  | some a =>
    show ((storage kind localId).put (ShadowKey.make key source) none side.asConflictSide a).within
      IntakeError.storage (t, w) = _
    rw [Op.within_of_ok _ w (put_unconditional _ _ t _ side.asConflictSide a)]
    rfl
  | none =>
    have hdeleted : { side.asConflictSide with deleted := true } = side.asConflictSide := by
      rw [← hside rfl]
      rfl
    show ((storage kind localId).markDeleted (ShadowKey.make key source)
      side.asConflictSide).within IntakeError.storage (t, w) = _
    rw [Op.within_of_ok _ w (markDeleted_eq _ _ t _ side.asConflictSide), hdeleted]
    rfl

theorem announce_eq (i : Intake α ω) (t : Transaction α ω) (w : ω) (note : Notification) :
    i.announce (storage kind localId) note (t, w) = .ok () (t.taken i t.contents [note], w) := rfl

theorem joins_of_plain {existing : Record α} (h : existing.isMarker = false) (shadow : String) :
    Intake.joins existing shadow = true := by
  simp [Intake.joins, h]

theorem joins_of_marker {existing : Record α} {marker : Marker}
    (h : existing.content = .marker marker) (shadow : String) :
    Intake.joins existing shadow = !marker.lists shadow := by
  simp [Intake.joins, isMarker_of_content h, marker?_of_content h]

theorem make_local_ne {source : String} (hlocal : source ≠ localId) :
    ShadowKey.make key localId ≠ ShadowKey.make key source := by
  rw [Ne, ShadowKey.make_inj_right]
  exact fun h => hlocal h.symm

/-- A contention with another node stores the side first, then joins the conflict, and announces it
if it is longer for that. -/
theorem contend_foreign {i : Intake α ω} {side : Metadata} {payload : Option α}
    {existing : Record α} {operation : Operation} {source : String}
    (hsource : side.source = some source) (hlocal : source ≠ localId) :
    i.contend (storage kind localId) key side payload existing operation = (do
      let _ ← Intake.storeSide (storage kind localId) (ShadowKey.make key source)
        side.asConflictSide payload
      let summary ← Intake.joinConflict (storage kind localId) key (ShadowKey.make key source)
        (ShadowKey.make key localId) existing
      if Intake.joins existing (ShadowKey.make key source) then
        i.announce (storage kind localId) ⟨key, summary.etag, summary.shadows, kind, operation⟩
        pure (.conflict summary !existing.isMarker)
      else pure (.conflict summary !existing.isMarker)) := by
  have hne : ShadowKey.make key
      (storage kind localId : Storage (Transaction α ω) α ω StoreError).discriminator ≠
      ShadowKey.make key source := make_local_ne hlocal
  simp only [Intake.contend, hsource]
  rw [if_neg hne]
  rfl

/-- What a contention with another node leaves, given what joining the conflict leaves. -/
theorem contend_of_join {i : Intake α ω} {t t' : Transaction α ω} {w : ω} {side : Metadata}
    {payload : Option α} {existing : Record α} {operation : Operation} {source : String}
    {summary : ConflictSummary} (hside : payload = none → side.deleted = true)
    (hsource : side.source = some source) (hlocal : source ≠ localId)
    (hjoin : Intake.joinConflict (storage kind localId) key (ShadowKey.make key source)
        (ShadowKey.make key localId) existing
        (t.replaced (t.contents.withSide key source side payload), w) = .ok summary (t', w)) :
    i.contend (storage kind localId) key side payload existing operation (t, w) =
      .ok (.conflict summary !existing.isMarker)
        (if Intake.joins existing (ShadowKey.make key source) then
          t'.taken i t'.contents [⟨key, summary.etag, summary.shadows, kind, operation⟩]
        else t', w) := by
  have hstore : Intake.storeSide (storage kind localId) (ShadowKey.make key source)
      side.asConflictSide payload (t, w) = _ := storeSide_eq hside t w _
  rw [contend_foreign hsource hlocal]
  refine (Op.bind_of_ok hstore).trans ((Op.bind_of_ok hjoin).trans ?_)
  -- only what made the conflict longer is announced
  cases Intake.joins existing (ShadowKey.make key source) with
  | true => exact Op.bind_of_ok (announce_eq i t' w _)
  | false => rfl

/-! ## §2 Joining a conflict -/

/-- A plain record joins by becoming a marker. -/
theorem joinConflict_of_plain (t : Transaction α ω) (w : ω) (newShadow existingShadow : String)
    {existing : Record α} (h : existing.isMarker = false) :
    Intake.joinConflict (storage kind localId) key newShadow existingShadow existing (t, w) =
      .ok ⟨t.contents.lastEtag.next.next, (Marker.pair existingShadow newShadow).shadows⟩
        (t.replaced (t.contents.withConflict key newShadow existingShadow existing), w) := by
  have hop : Intake.joinConflict (storage kind localId) key newShadow existingShadow existing =
      ((storage kind localId : Storage (Transaction α ω) α ω StoreError).createConflict key
        newShadow existingShadow existing).within .storage := by
    simp [Intake.joinConflict, h]
  rw [hop]
  exact Op.within_of_ok _ w (createConflict_eq _ _ t key newShadow existingShadow
    (marker?_of_plain h))

/-- Anything that says it is in conflict joins by listing the new shadow. -/
theorem joinConflict_of_marker (newShadow existingShadow : String) {existing : Record α}
    (h : existing.isMarker = true) :
    Intake.joinConflict (storage kind localId : Storage (Transaction α ω) α ω StoreError) key
        newShadow existingShadow existing =
      ((storage kind localId).extendConflict key newShadow existing).within .storage := by
  simp [Intake.joinConflict, h]

/-- A marker gains a shadow that it does not list. -/
theorem joinConflict_of_new (t : Transaction α ω) (w : ω) {newShadow : String}
    (existingShadow : String) {existing : Record α} {marker : Marker}
    (h : existing.content = .marker marker) (hnew : marker.lists newShadow = false) :
    Intake.joinConflict (storage kind localId) key newShadow existingShadow existing (t, w) =
      .ok ⟨t.contents.lastEtag.next, marker.shadows ++ [newShadow]⟩
        (t.replaced (t.contents.write key (.marker ⟨marker.shadows ++ [newShadow]⟩)
          existing.metadata), w) := by
  rw [joinConflict_of_marker _ _ (isMarker_of_content h)]
  exact Op.within_of_ok _ w (extendConflict_of_new _ _ t key (marker?_of_content h) hnew)

/-- A marker stays as it is when it lists the shadow. -/
theorem joinConflict_of_listed (t : Transaction α ω) (w : ω) {newShadow : String}
    (existingShadow : String) {existing : Record α} {marker : Marker}
    (h : existing.content = .marker marker) (hlisted : marker.lists newShadow = true) :
    Intake.joinConflict (storage kind localId) key newShadow existingShadow existing (t, w) =
      .ok ⟨existing.etag, marker.shadows⟩ (t, w) := by
  rw [joinConflict_of_marker _ _ (isMarker_of_content h)]
  exact Op.within_of_ok _ w (extendConflict_of_listed _ _ t key (marker?_of_content h) hlisted)

/-- A contention leads to one of the cases of `Contended`, and leaves the world alone. -/
theorem contend_contended (i : Intake α ω) (t : Transaction α ω) (w : ω) (side : Metadata)
    (payload : Option α) (existing : Record α) (operation : Operation)
    (hside : payload = none → side.deleted = true) :
    ∃ result m notes,
      Contended kind localId key side payload existing operation t.contents result m notes ∧
      (i.contend (storage kind localId) key side payload existing operation).answer (t, w) =
        (result, (t.taken i m notes, w)) := by
  -- the cases follow the procedure: the node of the write, then the record, then the marker
  cases hsource : side.source with
  | none =>
    refine ⟨_, _, _, .noSource hsource, ?_⟩
    apply Op.answer_of_error
    simp only [Intake.contend, hsource, Op.throw_apply, Transaction.taken_nil,
      Transaction.replaced_contents]
  | some source =>
    by_cases hlocal : source = localId
    · -- the shadow would be that of the stored side
      subst hlocal
      refine ⟨_, _, _, .collision hsource, ?_⟩
      apply Op.answer_of_error
      have hop : i.contend (storage kind source) key side payload existing operation =
          throw (.shadowCollision (ShadowKey.make key source)) := by
        simp only [Intake.contend, hsource]
        exact if_pos rfl
      rw [hop]
      simp only [Op.throw_apply, Transaction.taken_nil, Transaction.replaced_contents]
    · cases hmarker : existing.isMarker with
      | false =>
        refine ⟨_, _, _, .created hsource hlocal hmarker rfl rfl, ?_⟩
        apply Op.answer_of_ok
        rw [contend_of_join hside hsource hlocal (joinConflict_of_plain _ w _ _ hmarker),
          joins_of_plain hmarker, shadows_pair (make_local_ne hlocal), hmarker]
        rfl
      | true =>
        cases hcontent : existing.marker? with
        | none =>
          refine ⟨_, _, _, .flagged hsource hlocal hmarker hcontent, ?_⟩
          -- the side is stored before the marker is asked for
          apply Op.answer_of_error
          have hstore : Intake.storeSide (storage kind localId) (ShadowKey.make key source)
              side.asConflictSide payload (t, w) = _ := storeSide_eq hside t w _
          rw [contend_foreign hsource hlocal, Transaction.taken_nil]
          refine (Op.bind_of_ok hstore).trans (Op.bind_of_error ?_)
          rw [joinConflict_of_marker _ _ hmarker]
          exact Op.within_of_error _ w (extendConflict_of_no_marker _ _ _ key _ hcontent)
        | some marker =>
          have hrecord := content_of_marker? hcontent
          cases hlists : marker.lists (ShadowKey.make key source) with
          | false =>
            have hnew : ShadowKey.make key source ∉ marker.shadows := by
              simpa [Marker.lists] using hlists
            refine ⟨_, _, _, .joined hsource hlocal hrecord hnew rfl, ?_⟩
            apply Op.answer_of_ok
            rw [contend_of_join hside hsource hlocal
              (joinConflict_of_new _ w _ hrecord hlists), joins_of_marker hrecord, hlists,
              hmarker]
            rfl
          | true =>
            have hlisted : ShadowKey.make key source ∈ marker.shadows := by
              simpa [Marker.lists] using hlists
            refine ⟨_, _, _, .rewritten hsource hlocal hrecord hlisted, ?_⟩
            apply Op.answer_of_ok
            rw [contend_of_join hside hsource hlocal
              (joinConflict_of_listed _ w _ hrecord hlists), joins_of_marker hrecord, hlists,
              hmarker, Transaction.taken_nil]
            rfl

/-- Only a write of another node becomes a side. -/
theorem foreign_of_contended {side : Metadata} {payload : Option α} {existing : Record α}
    {operation : Operation} {m m' : Memory α} {outcome : Outcome} {notes : List Notification}
    (hcontended : Contended kind localId key side payload existing operation m (.ok outcome) m'
      notes) : ∃ source, side.source = some source ∧ source ≠ localId := by
  cases hcontended with
  | created hsource hlocal => exact ⟨_, hsource, hlocal⟩
  | joined hsource hlocal => exact ⟨_, hsource, hlocal⟩
  | rewritten hsource hlocal => exact ⟨_, hsource, hlocal⟩

/-- Whatever stood under the shadow of its node, a write that contends is stored there. -/
theorem side_of_contended {side : Metadata} {payload : Option α} {existing : Record α}
    {operation : Operation} {source : String} {m m' : Memory α} {outcome : Outcome}
    {notes : List Notification} (hsource : side.source = some source)
    (hcontended : Contended kind localId key side payload existing operation m (.ok outcome) m'
      notes) :
    m'.records.find? (ShadowKey.make key source) =
      some ⟨.ofPayload payload, m.lastEtag.next, side.asConflictSide⟩ := by
  -- what is written after it is the other side and the marker
  have hprimary := ShadowKey.make_ne_primary key source
  cases hcontended with
  | created hsource' hlocal _ hm _ =>
    obtain rfl := Option.some.inj (hsource.symm.trans hsource')
    rw [hm, find?_withConflict, if_neg hprimary, if_neg (make_local_ne hlocal).symm,
      find?_withSide, if_pos rfl]
  | joined hsource' _ _ _ hm =>
    obtain rfl := Option.some.inj (hsource.symm.trans hsource')
    rw [hm, find?_write, if_neg hprimary, find?_withSide, if_pos rfl]
  | rewritten hsource' =>
    obtain rfl := Option.some.inj (hsource.symm.trans hsource')
    rw [find?_withSide, if_pos rfl]

/-- The marker lists the shadow of a write that has contended. -/
theorem listed_of_contended {side : Metadata} {payload : Option α} {existing : Record α}
    {operation : Operation} {source : String} {m m' : Memory α} {outcome : Outcome}
    {notes : List Notification} (hread : m.records.find? key = some existing)
    (hsource : side.source = some source)
    (hcontended : Contended kind localId key side payload existing operation m (.ok outcome) m'
      notes) :
    ∃ conflict marker, m'.records.find? key = some conflict ∧
      conflict.content = .marker marker ∧ ShadowKey.make key source ∈ marker.shadows := by
  cases hcontended with
  | created hsource' hlocal _ hm _ =>
    obtain rfl := Option.some.inj (hsource.symm.trans hsource')
    rw [hm, find?_withConflict, if_pos rfl, shadows_pair (make_local_ne hlocal)]
    exact ⟨_, _, rfl, rfl, List.mem_cons_of_mem _ List.mem_cons_self⟩
  | joined hsource' _ _ _ hm =>
    obtain rfl := Option.some.inj (hsource.symm.trans hsource')
    rw [hm, find?_write, if_pos rfl]
    exact ⟨_, _, rfl, rfl, List.mem_append_right _ List.mem_cons_self⟩
  | rewritten hsource' _ hmarker hlisted =>
    obtain rfl := Option.some.inj (hsource.symm.trans hsource')
    have hkept : key ≠ ShadowKey.make key source := (ShadowKey.make_ne_primary key source).symm
    rw [find?_withSide, if_neg hkept]
    exact ⟨existing, _, hread, hmarker, hlisted⟩

end Memory

end ReplicaIntake
