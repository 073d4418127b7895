import ReplicaIntake.Proofs.Memory.Markers

/-!
# Late writes at a key in conflict

A marker has no identity and no lineage, so what reaches a key in conflict is not compared with it
by ancestry. The one question is whether a side already has the identity of the write. If none has,
the write is stored under the shadow of its node, whatever that shadow holds: also when a side
descends from the write, and when the shadow holds a later write of the same node.

- `markersBlank_runAll`: no history gives a marker an identity or a lineage.
- `marker_kept_iff_held`: the conflict is left alone exactly if a side is the write itself or the
  write names this node; any other write is a side of the conflict afterwards.
- `older_write_displaces_side`: two writes of one node, delivered in the wrong order around the
  creation of a conflict, leave the older one as the side of that node.
-/

namespace ReplicaIntake.Memory

variable {α ω : Type}

/-! ## §1 Markers are blank -/

/-- The record is no marker, or one without identity and lineage. -/
def Blank (r : Record α) : Prop :=
  ∀ marker, r.content = .marker marker → r.metadata.source = none ∧ r.metadata.lineage = []

/-- Every marker of the store is without identity and lineage. -/
def MarkersBlank (m : Memory α) : Prop :=
  ∀ key r, m.records.find? key = some r → Blank r

/-- The metadata has no identity and no lineage. -/
def Anonymous (_ : String) (_ : Marker) (metadata : Metadata) : Prop :=
  metadata.source = none ∧ metadata.lineage = []

theorem markersBlank_iff {m : Memory α} : MarkersBlank m ↔ EveryMarker Anonymous m := Iff.rfl

/-- A new marker is blank, and one that lists more shadows keeps its metadata. -/
theorem anonymous_lasting (localId : String) : Lasting localId Anonymous where
  created _ _ _ _ := ⟨rfl, rfl⟩
  joined _ _ _ _ _ hblank := hblank

theorem markersBlank_called {kind : ItemKind} {localId : String} {m m' : Memory α}
    (h : MarkersBlank m) (hcalled : Called ω kind localId m m') : MarkersBlank m' := by
  rw [markersBlank_iff] at h ⊢
  cases hcalled with
  | unchanged => exact h
  | taken htaken => exact everyMarker_taken (anonymous_lasting localId) h htaken
  | put key a metadata => exact everyMarker_writePayload h key (some a) metadata
  | marked key metadata => exact everyMarker_writePayload h key none _
  | removed key => exact everyMarker_eraseAll h [key]
  | conflicted key newShadow existingShadow _ hplain =>
    exact everyMarker_withConflict h key newShadow existingShadow hplain ⟨rfl, rfl⟩
  | @extended source existing marker key newShadow hread hmarker _ =>
    -- a marker that lists more shadows keeps its metadata
    apply everyMarker_write h
    intro _ _
    exact h source existing hread marker hmarker
  | versioned => exact h

/-- A batch is as many steps as it has calls. -/
theorem markersBlank_calls {kind : ItemKind} {localId : String} {m m' : Memory α}
    (h : MarkersBlank m) (hcalls : Relation.ReflTransGen (Called ω kind localId) m m') :
    MarkersBlank m' := by
  induction hcalls with
  | refl => exact h
  | tail _ hcalled ih => exact markersBlank_called ih hcalled

theorem markersBlank_advanced {kind : ItemKind} {localId : String} {m m' : Memory α}
    {command : Command α ω} (h : MarkersBlank m)
    (hadvanced : Advanced kind localId m command m') : MarkersBlank m' := by
  rw [markersBlank_iff] at h ⊢
  cases hadvanced with
  | unchanged => exact h
  | replicated htaken => exact everyMarker_taken (anonymous_lasting localId) h htaken
  | stored hwritten => exact everyMarker_written h hwritten
  | deleted hwritten => exact everyMarker_written h hwritten
  | resolved hwritten => exact everyMarker_written h hwritten
  | batched hcalls => exact markersBlank_calls h hcalls

/-- No history gives a marker an identity or a lineage. -/
theorem markersBlank_runAll (kind : ItemKind) (localId : String) (history : List (Command α ω))
    (w : ω) : MarkersBlank (Command.runAll (backend kind localId) history ({}, w)).2.1 := by
  apply runAll_keeps kind localId
  · intro command _ m m' h hadvanced
    exact markersBlank_advanced h hadvanced
  · intro key r hread
    cases hread

/-! ## §2 Deliveries to a marker -/

/-- A side that the marker lists has the identity. -/
def Holds (m : Memory α) (marker : Marker) (id : WriteId) : Prop :=
  ∃ shadow ∈ marker.shadows, ∃ side, m.records.find? shadow = some side ∧
    side.metadata.identity = some id

instance (m : Memory α) (marker : Marker) (id : WriteId) : Decidable (Holds m marker id) :=
  decidable_of_iff (marker.shadows.any fun shadow =>
    (m.records.find? shadow).any fun side => side.metadata.identity == some id) (by
      simp [Holds, Option.any_eq_true])

/-- The marker under `key` lists the shadow of the write, which holds the write. -/
def HasSide (m : Memory α) (key : String) (id : WriteId) (content : Content α) : Prop :=
  ∃ conflict marker side, m.records.find? key = some conflict ∧
    conflict.content = .marker marker ∧ ShadowKey.make key id.source ∈ marker.shadows ∧
    m.records.find? (ShadowKey.make key id.source) = some side ∧
    side.metadata.identity = some id ∧ side.content = content

/-- A marker without identity and lineage knows of a write only what its sides know. -/
theorem knows_of_blank {m : Memory α} {existing : Record α} {marker : Marker} {arrived : Metadata}
    {id : WriteId} (hmarker : existing.content = .marker marker) (hblank : Blank existing)
    (hid : arrived.identity = some id) :
    m.knows existing arrived = true ↔ Holds m marker id := by
  obtain ⟨hsource, hlineage⟩ := hblank marker hmarker
  have hanonymous : existing.metadata.identity = none := by
    simp [Metadata.identity, hsource]
  -- without identity and lineage the record itself knows nothing, so the sides decide
  have hdifferent : existing.metadata.sameIdentity arrived = false := by
    rw [Metadata.sameIdentity_of_some hid, hanonymous]
    rfl
  have hcovers : existing.metadata.lineage.covers id = false := by
    rw [hlineage]
    rfl
  simp only [knows, hdifferent, hid, Option.any_some, hcovers, Bool.and_false, Bool.false_or,
    holdsSide, sides_of_content hmarker, List.any_eq_true, Option.any_eq_true_iff_get, Holds]
  constructor
  · rintro ⟨shadow, hlisted, hpresent, hsame⟩
    rw [Metadata.sameIdentity_of_some hid] at hsame
    exact ⟨shadow, hlisted, _, (Option.some_get hpresent).symm, eq_of_beq hsame⟩
  · rintro ⟨shadow, hlisted, side, hread, hside⟩
    refine ⟨shadow, hlisted, by rw [hread]; rfl, ?_⟩
    rw [Metadata.sameIdentity_of_some hid]
    simp [hread, hside]

/-- Unless it names this node, a write that joins a conflict is a side of it afterwards. -/
theorem hasSide_of_contended {kind : ItemKind} {localId key : String} {side : Metadata}
    {payload : Option α} {existing : Record α} {marker : Marker} {operation : Operation}
    {m m' : Memory α} {result : Except (IntakeError StoreError) Outcome}
    {notes : List Notification} {id : WriteId} (hread : m.records.find? key = some existing)
    (hmarker : existing.content = .marker marker) (hid : side.identity = some id)
    (hcontended : Contended kind localId key side payload existing operation m result m' notes) :
    (id.source = localId ∧ m' = m ∧ ∃ e, result = .error e) ∨
      id.source ≠ localId ∧ HasSide m' key id (.ofPayload payload) ∧
        ∃ outcome, result = .ok outcome := by
  have hnamed : side.source = some id.source := Metadata.source_of_identity hid
  cases result with
  | ok outcome =>
    obtain ⟨source, hsource, hlocal⟩ := foreign_of_contended hcontended
    obtain rfl := Option.some.inj (hnamed.symm.trans hsource)
    obtain ⟨conflict, joined, hconflict, hjoined, hlisted⟩ :=
      listed_of_contended hread hnamed hcontended
    exact .inr ⟨hlocal, ⟨conflict, joined, _, hconflict, hjoined, hlisted,
      side_of_contended hnamed hcontended, hid, rfl⟩, _, rfl⟩
  | error e =>
    -- there is a node and there is a marker, so only the collision is left
    cases hcontended with
    | noSource hsource => simp [hnamed] at hsource
    | collision hsource =>
      rw [hnamed] at hsource
      exact .inl ⟨Option.some.inj hsource, rfl, _, rfl⟩
    | flagged _ _ _ hnone => simp [marker?_of_content hmarker] at hnone

/-- Without a policy, a write that reaches a marker is known to a side, or it contends for a place
among the sides. -/
theorem taken_over_marker {i : Intake α ω} {kind : ItemKind} {localId key : String}
    {m m' : Memory α} {w w' : ω} {metadata : Metadata} {payload : Option α} {existing : Record α}
    {marker : Marker} {id : WriteId} {result : Except (IntakeError StoreError) Outcome}
    {notes : List Notification} (hblank : MarkersBlank m)
    (hread : m.records.find? key = some existing) (hmarker : existing.content = .marker marker)
    (hid : metadata.identity = some id) (hpayload : metadata.deleted = false → payload ≠ none)
    (hresolver : i.resolver = Resolver.chain [])
    (htaken : Taken i kind localId key m w metadata payload result m' notes w') :
    (Holds m marker id ∧ result = .ok .replayed ∧ m' = m ∧ notes = [] ∧ w' = w) ∨
      ¬ Holds m marker id ∧ w' = w ∧
        Contended kind localId key (i.arrived metadata existing.metadata)
          (metadata.carried payload) existing metadata.operation m result m' notes := by
  have hidentity : (i.arrived metadata existing.metadata).identity = some id := by
    simpa using hid
  have hknows := knows_of_blank (m := m) hmarker (hblank key existing hread) hidentity
  -- the read record is there, so one of the ways over a marker was taken
  have hmet := taken_of_read hread (by simp [hid]) hpayload htaken
  rcases met_of_marker hresolver (isMarker_of_content hmarker) hmet with
    ⟨hknown, hunchanged⟩ | ⟨hunknown, hworld, hcontended⟩
  · exact .inl ⟨hknows.1 hknown, hunchanged⟩
  · refine .inr ⟨?_, hworld, hcontended⟩
    intro hheld
    rw [hknows.2 hheld] at hunknown
    cases hunknown

/-! ## §3 What is kept and what is displaced -/

/-- A write that no side knew, and that is a side now, has changed the marker or a side. -/
theorem not_kept_of_hasSide {m m' : Memory α} {key : String} {existing : Record α}
    {marker : Marker} {id : WriteId} {content : Content α}
    (hread : m.records.find? key = some existing) (hmarker : existing.content = .marker marker)
    (hnew : ¬ Holds m marker id) (hside : HasSide m' key id content) :
    ¬ ∀ q ∈ key :: marker.shadows, m'.records.find? q = m.records.find? q := by
  intro hkept
  obtain ⟨conflict, joined, side, hconflict, hjoined, hlisted, hpresent, hid, -⟩ := hside
  rw [hkept key List.mem_cons_self, hread] at hconflict
  obtain rfl := Option.some.inj hconflict
  -- the marker is the same, so the side that the write became was one of its sides before
  obtain rfl : marker = joined := by simpa [hmarker] using hjoined
  rw [hkept _ (List.mem_cons_of_mem _ hlisted)] at hpresent
  exact hnew ⟨_, hlisted, side, hpresent, hid⟩

/-- After every history, a write that reaches a key in conflict and meets no policy leaves the
marker and all sides as they are exactly if one side is the write itself or the write names this
node; then the whole store stays as it is. Any other write is a side of the conflict afterwards,
whether or not a side descends from it. -/
theorem marker_kept_iff_held (kind : ItemKind) (localId : String) (history : List (Command α ω))
    (w : ω) {i : Intake α ω} (hresolver : i.resolver = Resolver.chain []) {key : String}
    {existing : Record α} {marker : Marker}
    (hread : (Command.runAll (backend kind localId) history ({}, w)).2.1.records.find? key =
      some existing)
    (hmarker : existing.content = .marker marker) {metadata : Metadata} {payload : Option α}
    {id : WriteId} (hid : metadata.identity = some id)
    (hpayload : metadata.deleted = false → payload ≠ none) :
    let before := (Command.runAll (backend kind localId) history ({}, w)).2
    let after := ((Command.replicate i key metadata payload).run (backend kind localId) before).2
    ((∀ q ∈ key :: marker.shadows, after.1.records.find? q = before.1.records.find? q) ↔
      Holds before.1 marker id ∨ id.source = localId) ∧
    (Holds before.1 marker id ∨ id.source = localId → after.1 = before.1) ∧
    (¬ (Holds before.1 marker id ∨ id.source = localId) →
      HasSide after.1 key id (.ofPayload (metadata.carried payload))) := by
  intro before after
  -- no marker of the history has an identity, so only its sides are compared with the write
  have hblank : MarkersBlank before.1 := markersBlank_runAll kind localId history w
  obtain ⟨result, m', notes, w', htaken, hrun⟩ :=
    run_replicate kind localId i key metadata payload before
  have hafter : after = committed i before.1 m' notes w' result := congrArg Prod.snd hrun
  have hkeeps : after.1 = before.1 → ∀ q ∈ key :: marker.shadows,
      after.1.records.find? q = before.1.records.find? q := by
    intro hsame q _
    rw [hsame]
  -- the write is a side already, or it contends with the marker
  rcases taken_over_marker hblank hread hmarker hid hpayload hresolver htaken with
    ⟨hheld, rfl, hm, -, -⟩ | ⟨hnew, -, hcontended⟩
  · -- a side is the write itself
    have hsame : after.1 = before.1 := by rw [hafter, committed, hm]
    exact ⟨⟨fun _ => .inl hheld, fun _ => hkeeps hsame⟩, fun _ => hsame,
      fun h => (h (.inl hheld)).elim⟩
  · rcases hasSide_of_contended hread hmarker (by simpa using hid) hcontended with
      ⟨hlocal, -, e, rfl⟩ | ⟨hlocal, hside, outcome, rfl⟩
    · -- the write is refused, because the shadow of this node is taken
      have hsame : after.1 = before.1 := by rw [hafter, committed]
      exact ⟨⟨fun _ => .inr hlocal, fun _ => hkeeps hsame⟩, fun _ => hsame,
        fun h => (h (.inr hlocal)).elim⟩
    · -- the write becomes a side
      have hnot : ¬ (Holds before.1 marker id ∨ id.source = localId) := by
        rintro (h | h)
        · exact hnew h
        · exact hlocal h
      have hside' : HasSide after.1 key id (.ofPayload (metadata.carried payload)) := by
        rw [hafter]
        exact hside
      refine ⟨⟨?_, fun h => (hnot h).elim⟩, fun h => (hnot h).elim, fun _ => hside'⟩
      -- no side was the write before and one is now, so something has changed
      intro hkept
      exact (not_kept_of_hasSide hread hmarker hnew hside' hkept).elim

/-- The first write of `b`. -/
def firstOfB : Metadata := .ofId "b" 1

/-- The second write of `b`, made on top of its first. -/
def secondOfB : Metadata := { Metadata.ofId "b" 2 with lineage := [⟨"b", 1⟩] }

/-- A write of `a` and the second write of `b` become the sides of a conflict. -/
def disputeOfAB : List (Command String Unit) :=
  [.replicate {} "k" (.ofId "a" 1) (some "a1"), .replicate {} "k" secondOfB (some "b2")]

/-- In that conflict no side is the first write of `b`, so it takes the place of the second. -/
theorem first_of_b_becomes_side :
    HasSide ((Command.replicate {} "k" firstOfB (some "b1")).run (backend .document "L")
      (Command.runAll (backend .document "L") disputeOfAB ({}, ())).2).2.1 "k" ⟨"b", 1⟩
      (.data "b1") :=
  (@marker_kept_iff_held String Unit .document "L" disputeOfAB () {} rfl "k"
    ⟨.marker ⟨["k/conflicts/L", "k/conflicts/b"]⟩, ⟨4⟩, { conflict := true }⟩
    ⟨["k/conflicts/L", "k/conflicts/b"]⟩ (by decide +kernel) rfl firstOfB (some "b1") ⟨"b", 1⟩ rfl
    (fun _ => by decide)).2.2 (by decide +kernel)

/-- It is not so that a write that a side descends from leaves that side as it is. -/
theorem older_write_displaces_side :
    ¬ ∀ (history : List (Command String Unit)) (key shadow : String)
        (existing side : Record String) (marker : Marker) (metadata : Metadata)
        (payload : Option String) (id : WriteId),
      let before := (Command.runAll (backend .document "L") history ({}, ())).2
      let after :=
        ((Command.replicate {} key metadata payload).run (backend .document "L") before).2
      before.1.records.find? key = some existing → existing.content = .marker marker →
      shadow ∈ marker.shadows → before.1.records.find? shadow = some side →
      id ∈ side.metadata.lineage → metadata.identity = some id → payload ≠ none →
      after.1.records.find? shadow = some side := by
  intro h
  have hkept := h disputeOfAB "k" "k/conflicts/b"
    ⟨.marker ⟨["k/conflicts/L", "k/conflicts/b"]⟩, ⟨4⟩, { conflict := true }⟩
    ⟨.data "b2", ⟨2⟩, secondOfB.asConflictSide⟩ ⟨["k/conflicts/L", "k/conflicts/b"]⟩
    firstOfB (some "b1") ⟨"b", 1⟩ (by decide +kernel) rfl (by decide) (by decide +kernel)
    (by decide) rfl (by decide)
  -- the shadow of `b` holds its first write now
  exact absurd hkept (by decide +kernel)

end ReplicaIntake.Memory
