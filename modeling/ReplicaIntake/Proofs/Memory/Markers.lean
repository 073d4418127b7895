import ReplicaIntake.Proofs.Memory.Histories

/-!
# What is true of every record and of every marker

What is true of every record that is written is true of every record that is stored, because a store
changes by writing and erasing records only.

Markers come from two places: a conflict that arises puts a new one over a plain record, and a
conflict that gains a side writes its marker again with one more shadow. What holds of new markers
and survives one more shadow is therefore true of every marker of a store, whatever writes are taken
in and made (`everyMarker_advanced`).

One such fact is that a marker lists only shadows made of its own key (`listsOwn_runAll`), and so
not that key itself. The calls of a batch can write any marker, so this is about histories without
them.
-/

namespace ReplicaIntake

variable {α ω : Type}

/-- The use is a single one of the operations of a store. -/
def Command.IsSingle : Command α ω → Prop
  | .batch _ _ => False
  | _ => True

namespace Memory

open ShadowKey (make)

variable {kind : ItemKind} {localId key : String} {m m' : Memory α}
  {Q : String → Marker → Metadata → Prop}

/-! ## §1 Stores -/

/-- Every record of the store is as `P` says of its key and of itself. -/
def EveryRecord (P : String → Record α → Prop) (m : Memory α) : Prop :=
  ∀ key r, m.records.find? key = some r → P key r

theorem everyRecord_write {P : String → Record α → Prop} (h : EveryRecord P m) (key : String)
    {content : Content α} {metadata : Metadata}
    (hnew : P key ⟨content, m.lastEtag.next, metadata⟩) :
    EveryRecord P (m.write key content metadata) := by
  intro q r hread
  rw [find?_write] at hread
  split at hread
  · rename_i hq
    obtain rfl := Option.some.inj hread
    exact hq ▸ hnew
  · exact h q r hread

theorem everyRecord_eraseAll {P : String → Record α → Prop} (h : EveryRecord P m)
    (keys : List String) : EveryRecord P (m.eraseAll keys) := by
  intro q r hread
  rw [find?_eraseAll] at hread
  split at hread
  · cases hread
  · exact h q r hread

/-- Every marker of the store is as `Q` says of its key, its shadows and its metadata. -/
def EveryMarker (Q : String → Marker → Metadata → Prop) (m : Memory α) : Prop :=
  EveryRecord (fun key r => ∀ marker, r.content = .marker marker → Q key marker r.metadata) m

theorem everyMarker_write (h : EveryMarker Q m) (key : String) {content : Content α}
    {metadata : Metadata} (hnew : ∀ marker, content = .marker marker → Q key marker metadata) :
    EveryMarker Q (m.write key content metadata) :=
  everyRecord_write h key hnew

/-- Data and tombstones are no markers. -/
theorem everyMarker_writePayload (h : EveryMarker Q m) (key : String) (payload : Option α)
    (metadata : Metadata) : EveryMarker Q (m.write key (.ofPayload payload) metadata) := by
  apply everyMarker_write h
  intro marker hmarker
  exact absurd hmarker (ofPayload_ne_marker payload marker)

theorem everyMarker_eraseAll (h : EveryMarker Q m) (keys : List String) :
    EveryMarker Q (m.eraseAll keys) :=
  everyRecord_eraseAll h keys

/-- What is moved to its shadow is no marker, and what takes its place is a new one. -/
theorem everyMarker_withConflict (h : EveryMarker Q m) (key newShadow existingShadow : String)
    {existing : Record α} (hplain : existing.marker? = none)
    (hnew : Q key (.pair existingShadow newShadow) existing.metadata.conflictMarker) :
    EveryMarker Q (m.withConflict key newShadow existingShadow existing) := by
  apply everyMarker_write
  · apply everyMarker_write h
    intro marker hmarker
    rw [marker?_of_content hmarker] at hplain
    cases hplain
  · intro marker hmarker
    obtain rfl := Content.marker.inj hmarker
    exact hnew

/-! ## §2 Writes that are taken in or made -/

/-- What `Q` says holds of the marker of a new conflict, and of a marker that lists one more
shadow. -/
structure Lasting (localId : String) (Q : String → Marker → Metadata → Prop) : Prop where
  created : ∀ key source (metadata : Metadata), source ≠ localId →
    Q key ⟨[make key localId, make key source]⟩ metadata.conflictMarker
  /-- The shadow is not among those that are listed. -/
  joined : ∀ key source marker metadata, make key source ∉ marker.shadows →
    Q key marker metadata → Q key ⟨marker.shadows ++ [make key source]⟩ metadata

theorem everyMarker_contended {side : Metadata} {payload : Option α}
    {existing : Record α} {operation : Operation}
    {result : Except (IntakeError StoreError) Outcome} {notes : List Notification}
    (hlasting : Lasting localId Q) (h : EveryMarker Q m)
    (hread : m.records.find? key = some existing)
    (hcontended : Contended kind localId key side payload existing operation m result m' notes) :
    EveryMarker Q m' := by
  cases hcontended with
  | noSource => exact h
  | collision => exact h
  | @created source _ _ _ hlocal hplain hm _ =>
    rw [hm]
    apply everyMarker_withConflict (everyMarker_writePayload h _ payload _)
    · exact marker?_of_plain hplain
    · rw [shadows_pair (make_local_ne hlocal)]
      exact hlasting.created key source existing.metadata hlocal
  | @joined source _ listed _ _ hmarker hnew hm =>
    rw [hm]
    apply everyMarker_write (everyMarker_writePayload h _ payload _)
    intro marker hlonger
    obtain rfl := Content.marker.inj hlonger
    exact hlasting.joined key source listed _ hnew (h key existing hread listed hmarker)
  -- the marker itself is not touched
  | rewritten => exact everyMarker_writePayload h _ payload _
  | flagged => exact everyMarker_writePayload h _ payload _

theorem everyMarker_settled {i : Intake α ω} {incoming : Metadata}
    {existing : Record α} {w w' : ω} {resolution : Resolution α}
    {result : Except (IntakeError StoreError) Outcome} (h : EveryMarker Q m)
    (hsettled : Settled i kind key incoming existing m w resolution result m' w') :
    EveryMarker Q m' := by
  cases hsettled with
  | removed metadata => exact everyMarker_eraseAll (everyMarker_writePayload h key none _) _
  | kept metadata payload =>
    exact everyMarker_eraseAll (everyMarker_writePayload h key (some payload) _) _
  | refused => exact h

theorem everyMarker_met {i : Intake α ω} {w w' : ω} {metadata : Metadata}
    {payload : Option α} {existing : Record α} {result : Except (IntakeError StoreError) Outcome}
    {notes : List Notification} (hlasting : Lasting localId Q) (h : EveryMarker Q m)
    (hread : m.records.find? key = some existing)
    (hmet : Met i kind localId key m w metadata payload existing result m' notes w') :
    EveryMarker Q m' := by
  cases hmet with
  | replayed => exact h
  | merged => exact everyMarker_writePayload h key none _
  | contradicted => exact h
  | overwritten => exact everyMarker_writePayload h key (some _) _
  | deleted => exact everyMarker_writePayload h key none _
  | stale => exact h
  | undecided => exact h
  | settled _ _ hsettled => exact everyMarker_settled h hsettled
  | declined _ _ hcontended => exact everyMarker_contended hlasting h hread hcontended
  | disputed _ _ _ hcontended => exact everyMarker_contended hlasting h hread hcontended

theorem everyMarker_taken {i : Intake α ω} {w w' : ω} {metadata : Metadata}
    {payload : Option α} {result : Except (IntakeError StoreError) Outcome}
    {notes : List Notification} (hlasting : Lasting localId Q) (h : EveryMarker Q m)
    (htaken : Taken i kind localId key m w metadata payload result m' notes w') :
    EveryMarker Q m' := by
  cases htaken with
  | missingPayload => exact h
  | missingIdentity => exact h
  | created => exact everyMarker_writePayload h key (some _) _
  | ignored => exact h
  | met hread _ hmet => exact everyMarker_met hlasting h hread hmet

theorem everyMarker_written {payload : Option α} {max : Nat} {metadata : Metadata}
    (h : EveryMarker Q m) (hwritten : Written localId key payload max m metadata m') :
    EveryMarker Q m' := by
  have hversioned : EveryMarker Q m.versioned := h
  cases hwritten with
  | stamped => exact everyMarker_writePayload hversioned key payload _
  | resolved =>
    exact everyMarker_eraseAll (everyMarker_writePayload hversioned key payload _) _

/-! ## §3 Histories without batches -/

theorem everyMarker_advanced {command : Command α ω} (hlasting : Lasting localId Q)
    (hsingle : command.IsSingle) (h : EveryMarker Q m)
    (hadvanced : Advanced kind localId m command m') : EveryMarker Q m' := by
  cases hadvanced with
  | unchanged => exact h
  | replicated htaken => exact everyMarker_taken hlasting h htaken
  | stored hwritten => exact everyMarker_written h hwritten
  | deleted hwritten => exact everyMarker_written h hwritten
  | resolved hwritten => exact everyMarker_written h hwritten
  | batched => exact absurd hsingle id

/-- A marker lists only shadows made of its own key, after every history of single uses. -/
theorem listsOwn_runAll (kind : ItemKind) (localId : String) {history : List (Command α ω)}
    (hsingle : ∀ command ∈ history, command.IsSingle) (w : ω) :
    EveryMarker (fun key marker _ => ∀ shadow ∈ marker.shadows, ∃ d, shadow = make key d)
      (Command.runAll (backend kind localId) history ({}, w)).2.1 := by
  have hlasting : Lasting localId
      (fun key marker _ => ∀ shadow ∈ marker.shadows, ∃ d, shadow = make key d) := by
    constructor
    · intro key source _ _ shadow hlisted
      simp only [List.mem_cons, List.not_mem_nil, or_false] at hlisted
      rcases hlisted with rfl | rfl <;> exact ⟨_, rfl⟩
    · intro key source marker _ _ hown shadow hlisted
      rcases List.mem_append.1 hlisted with hlisted | hlisted
      · exact hown shadow hlisted
      · exact ⟨source, List.mem_singleton.1 hlisted⟩
  apply runAll_keeps kind localId
  · intro command hcommand m m' h hadvanced
    exact everyMarker_advanced hlasting (hsingle command hcommand) h hadvanced
  · intro key r hread
    cases hread

/-- So no marker lists the key that it stands under. -/
theorem unlisted_runAll (kind : ItemKind) (localId : String) {history : List (Command α ω)}
    (hsingle : ∀ command ∈ history, command.IsSingle) (w : ω) {r : Record α} {marker : Marker}
    (hread : (Command.runAll (backend kind localId) history ({}, w)).2.1.records.find? key = some r)
    (hmarker : r.content = .marker marker) : key ∉ marker.shadows := by
  intro hlisted
  obtain ⟨d, hd⟩ := listsOwn_runAll kind localId hsingle w key r hread marker hmarker key hlisted
  exact ShadowKey.make_ne_primary key d hd.symm

end Memory

end ReplicaIntake
