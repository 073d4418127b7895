import ReplicaIntake.Proofs.Memory.Markers

/-!
# What a single use can write and remove

A single use of a store makes a few edits. Each of them stores one record, and what that can be is
listed once (`Stores`); or it removes one side of the conflict that the use is about; or it gives
out a version. `edited_advanced` says that nothing else happens. So what is true of every record,
and of every record that a use can store over it, stays true (`everyRecord_advanced`), and a key
that a use can neither store under nor remove keeps its record (`find?_of_untouched`).
-/

namespace ReplicaIntake

variable {α ω : Type}

/-- The key that a single use is about, if it can change anything. -/
def Command.key? : Command α ω → Option String
  | .replicate _ key _ _ | .putLocal key _ _ | .deleteLocal key _ | .resolveLocal key _ _ => some key
  | .get _ | .batch _ _ => none

namespace Memory

open ShadowKey (make)

variable {kind : ItemKind} {localId key : String} {m m₁ m' : Memory α} {command : Command α ω}

/-! ## §1 Edits -/

/-- What a single use can store over the contents `m`: the key, the content and the metadata. -/
inductive Stores (localId : String) (m : Memory α) :
    Command α ω → String → Content α → Metadata → Prop
  /-- A replicated write is stored under its key with the flags it came with. -/
  | incoming {i : Intake α ω} {key : String} {metadata stored : Metadata} {payload : Option α}
      (hidentity : stored.identity = metadata.identity) (hdeleted : stored.deleted = metadata.deleted)
      (hconflict : stored.conflict = metadata.conflict)
      (hside : stored.conflictSide = metadata.conflictSide) :
    Stores localId m (.replicate i key metadata payload) key
      (.ofPayload (metadata.carried payload)) stored
  /-- A replicated write becomes one side of a conflict. -/
  | side {i : Intake α ω} {key source : String} {metadata side : Metadata} {payload : Option α}
      (hsource : metadata.source = some source) (hdeleted : side.deleted = metadata.deleted) :
    Stores localId m (.replicate i key metadata payload) (make key source)
      (.ofPayload (metadata.carried payload)) side.asConflictSide
  /-- The record that is there becomes the other side. -/
  | moved {i : Intake α ω} {key : String} {metadata : Metadata} {payload : Option α}
      {existing : Record α} (hread : m.records.find? key = some existing)
      (hplain : existing.isMarker = false) :
    Stores localId m (.replicate i key metadata payload) (make key localId) existing.content
      existing.metadata.asConflictSide
  /-- A marker takes its place. -/
  | marked {i : Intake α ω} {key source : String} {metadata : Metadata} {payload : Option α}
      {existing : Metadata} (hsource : metadata.source = some source) :
    Stores localId m (.replicate i key metadata payload) key
      (.marker ⟨[make key localId, make key source]⟩) existing.conflictMarker
  /-- The marker lists one more side. -/
  | extended {i : Intake α ω} {key source : String} {metadata : Metadata} {payload : Option α}
      {existing : Record α} {marker : Marker} (hsource : metadata.source = some source)
      (hread : m.records.find? key = some existing) (hmarker : existing.content = .marker marker) :
    Stores localId m (.replicate i key metadata payload) key
      (.marker ⟨marker.shadows ++ [make key source]⟩) existing.metadata
  /-- A local write and a decision of a policy carry no flags of conflicts. -/
  | made {command : Command α ω} {key : String} {stored : Metadata} (payload : Option α)
      (hkey : command.key? = some key) (hconflict : stored.conflict = false)
      (hdeleted : stored.deleted = payload.isNone) :
    Stores localId m command key (.ofPayload payload) stored

/-- The use can remove the shadow: the marker under its key lists it. -/
def Removes (m : Memory α) (command : Command α ω) (shadow : String) : Prop :=
  ∃ key r, command.key? = some key ∧ m.records.find? key = some r ∧ shadow ∈ r.sides

/-- One edit of a use that found the contents `m`. -/
inductive Edit (localId : String) (m : Memory α) (command : Command α ω) (m₁ : Memory α) :
    Memory α → Prop
  | write {q : String} {content : Content α} {stored : Metadata}
      (hstores : Stores localId m command q content stored) :
    Edit localId m command m₁ (m₁.write q content stored)
  | erase {shadow : String} (hremoves : Removes m command shadow) :
    Edit localId m command m₁ (m₁.erase shadow)
  | versioned : Edit localId m command m₁ m₁.versioned

/-- What is left after some edits of a use that found the contents `m`. -/
def Edited (localId : String) (m : Memory α) (command : Command α ω) (m' : Memory α) : Prop :=
  Relation.ReflTransGen (Edit localId m command) m m'

theorem edited_write (h : Edited localId m command m') {q : String} {content : Content α}
    {stored : Metadata} (hstores : Stores localId m command q content stored) :
    Edited localId m command (m'.write q content stored) :=
  h.tail (.write hstores)

theorem edited_eraseAll (h : Edited localId m command m') {shadows : List String}
    (hremoves : ∀ shadow ∈ shadows, Removes m command shadow) :
    Edited localId m command (m'.eraseAll shadows) := by
  induction shadows generalizing m' with
  | nil => exact h
  | cons shadow rest ih =>
    have hfirst : Edited localId m command (m'.erase shadow) :=
      h.tail (.erase (hremoves shadow List.mem_cons_self))
    exact ih hfirst fun s hs => hremoves s (List.mem_cons_of_mem _ hs)

/-! ## §2 The edits of each use -/

section Taking

variable {i : Intake α ω} {metadata : Metadata} {payload : Option α}
  {result : Except (IntakeError StoreError) Outcome} {notes : List Notification}

theorem edited_contended {existing : Record α} {operation : Operation}
    (hread : m.records.find? key = some existing)
    (hcontended : Contended kind localId key (i.arrived metadata existing.metadata)
      (metadata.carried payload) existing operation m result m' notes) :
    Edited localId m (.replicate i key metadata payload) m' := by
  have hside : ∀ {source}, (i.arrived metadata existing.metadata).source = some source →
      Edited localId m (.replicate i key metadata payload)
        (m.withSide key source (i.arrived metadata existing.metadata) (metadata.carried payload)) :=
    fun hsource => edited_write .refl (.side (by simpa using hsource) (by simp))
  cases hcontended with
  | noSource => exact .refl
  | collision => exact .refl
  | created hsource hlocal hplain hm _ =>
    -- three edits: the write, the record that was there, and the marker over it
    rw [hm, withConflict, shadows_pair (make_local_ne hlocal)]
    apply edited_write
    · exact edited_write (hside hsource) (.moved hread hplain)
    · exact .marked (by simpa using hsource)
  | joined hsource _ hmarker _ hm =>
    rw [hm]
    exact edited_write (hside hsource) (.extended (by simpa using hsource) hread hmarker)
  | rewritten hsource => exact hside hsource
  | flagged hsource => exact hside hsource

theorem edited_taken {w w' : ω}
    (htaken : Taken i kind localId key m w metadata payload result m' notes w') :
    Edited localId m (.replicate i key metadata payload) m' := by
  -- what is stored under the key has the flags and the identity of the write
  have hkept : ∀ {carried : Option α} {stored : Metadata}, metadata.carried payload = carried →
      stored.identity = metadata.identity → stored.deleted = metadata.deleted →
      stored.conflict = metadata.conflict → stored.conflictSide = metadata.conflictSide →
      Edited localId m (.replicate i key metadata payload)
        (m.write key (.ofPayload carried) stored) := by
    rintro carried stored rfl hidentity hdeleted hconflict hside
    exact edited_write .refl (.incoming hidentity hdeleted hconflict hside)
  have hnone : metadata.deleted = true → metadata.carried payload = none := by
    intro hdelete
    simp [Metadata.carried, hdelete]
  cases htaken with
  | created hput hpayload =>
    exact hkept ((Metadata.carried_of_put hput _).trans hpayload) rfl rfl rfl rfl
  | @met existing _ _ _ _ hread _ hmet =>
    -- a decision is stored with its flags cleared, and the sides go
    have hdecided : ∀ {stored : Metadata} (decided : Option α), stored.conflict = false →
        stored.deleted = decided.isNone → Edited localId m (.replicate i key metadata payload)
          ((m.write key (.ofPayload decided) stored).eraseAll existing.sides) := by
      intro stored decided hconflict hdeleted
      apply edited_eraseAll (edited_write .refl (.made decided rfl hconflict hdeleted))
      exact fun shadow hlisted => ⟨key, existing, rfl, hread, hlisted⟩
    cases hmet with
    | merged hdelete =>
      exact hkept (hnone hdelete) (Intake.identity_arrived i metadata _)
        (Intake.deleted_arrived i metadata _) (Intake.conflict_arrived i metadata _)
        (Intake.conflictSide_arrived i metadata _)
    | overwritten hput hpayload =>
      exact hkept ((Metadata.carried_of_put hput _).trans hpayload) (by simp) (by simp) (by simp)
        (by simp)
    | deleted hdelete => exact hkept (hnone hdelete) (by simp) (by simp) (by simp) (by simp)
    | settled _ _ hsettled =>
      cases hsettled with
      | removed => exact hdecided none rfl rfl
      | kept _ a => exact hdecided (some a) rfl rfl
      | refused => exact .refl
    | declined _ _ hcontended => exact edited_contended hread hcontended
    | disputed _ _ _ hcontended => exact edited_contended hread hcontended
    | _ => exact .refl
  | _ => exact .refl

end Taking

theorem edited_written {payload : Option α} {max : Nat} {metadata : Metadata}
    (hkey : command.key? = some key)
    (hwritten : Written localId key payload max m metadata m') : Edited localId m command m' := by
  have hversioned : Edited localId m command m.versioned := .single .versioned
  cases hwritten with
  | stamped _ hmetadata =>
    apply edited_write hversioned (.made payload hkey ?_ (by rw [hmetadata]))
    rw [hmetadata]
    cases (m.records.find? key).map (·.metadata) <;> rfl
  | @resolved existing _ _ hread hmarker hmetadata =>
    -- the resolution takes the place of the marker before the sides go
    apply edited_eraseAll
    · refine edited_write hversioned (.made payload hkey ?_ ?_)
      · rw [hmetadata]
        rfl
      · rw [hmetadata]
    · intro shadow hlisted
      exact ⟨key, existing, hkey, hread, by rwa [sides_of_content hmarker]⟩

/-- A single use makes edits, and does nothing else. -/
theorem edited_advanced (hsingle : command.IsSingle)
    (hadvanced : Advanced kind localId m command m') : Edited localId m command m' := by
  cases hadvanced with
  | unchanged => exact .refl
  | replicated htaken => exact edited_taken htaken
  | stored hwritten => exact edited_written rfl hwritten
  | deleted hwritten => exact edited_written rfl hwritten
  | resolved hwritten => exact edited_written rfl hwritten
  | batched => exact absurd hsingle id

/-! ## §3 What the edits keep -/

theorem everyRecord_edited {P : String → Record α → Prop} (h : EveryRecord P m)
    (hnew : ∀ q content stored etag, Stores localId m command q content stored →
      P q ⟨content, etag, stored⟩)
    (hedited : Edited localId m command m') : EveryRecord P m' := by
  induction hedited with
  | refl => exact h
  | tail _ hedit ih =>
    cases hedit with
    | write hstores => exact everyRecord_write ih _ (hnew _ _ _ _ hstores)
    | erase => exact everyRecord_eraseAll ih [_]
    | versioned => exact ih

/-- What is true of every record of a store, and of all that a single use can store over it, is true
of every record afterwards. -/
theorem everyRecord_advanced {P : String → Record α → Prop} (hsingle : command.IsSingle)
    (h : EveryRecord P m)
    (hnew : ∀ q content stored etag, Stores localId m command q content stored →
      P q ⟨content, etag, stored⟩)
    (hadvanced : Advanced kind localId m command m') : EveryRecord P m' :=
  everyRecord_edited h hnew (edited_advanced hsingle hadvanced)

/-- A key under which a use can store nothing, and which it cannot remove, keeps its record. -/
theorem find?_of_untouched {q : String} (hedited : Edited localId m command m')
    (hstores : ∀ content stored, ¬ Stores localId m command q content stored)
    (hremoves : ¬ Removes m command q) : m'.records.find? q = m.records.find? q := by
  induction hedited with
  | refl => rfl
  | tail _ hedit ih =>
    cases hedit with
    | @write key content stored hwrite =>
      rw [find?_write, if_neg, ih]
      rintro rfl
      exact hstores content stored hwrite
    | @erase shadow herase =>
      rw [erase, KeyMap.find?_erase, if_neg, ih]
      rintro rfl
      exact hremoves herase
    | versioned => exact ih

end Memory

end ReplicaIntake
