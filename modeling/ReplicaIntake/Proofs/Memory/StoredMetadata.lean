import ReplicaIntake.Proofs.Memory.Repetitions

/-!
# The metadata that a store holds

Whatever is true of the metadata of every record stays true when a write is taken in, if it is true
of all the metadata that can be stored for that write. `AllowsIntake` lists that metadata: the write
as it arrived, merged with a tombstone, decided by a policy, or as one side of a conflict; and the
record that it meets, as the other side and as what a marker keeps of it. So a property of stored
metadata is proved by going through these six (`everyMetadata_taken`). A local write stores what it answers and
nothing else (`everyMetadata_written`).
-/

namespace ReplicaIntake.Memory

open ShadowKey (make)

variable {α ω : Type} {kind : ItemKind} {localId key : String} {i : Intake α ω} {m m' : Memory α}
  {w w' : ω} {metadata side : Metadata} {payload : Option α} {existing : Record α}
  {result : Except (IntakeError StoreError) Outcome} {notes : List Notification}
  {P : String → Metadata → Prop}

/-- The metadata of every record is as `P` says of its key and of itself. -/
def EveryMetadata (P : String → Metadata → Prop) (m : Memory α) : Prop :=
  EveryRecord (fun key r => P key r.metadata) m

/-! ## §1 Conflicts -/

/-- `P` is true of all that can be stored for a write that becomes one side of a conflict. -/
structure AllowsConflict (P : String → Metadata → Prop) (localId key : String)
    (side existing : Metadata) : Prop where
  side : ∀ source, side.source = some source → P (make key source) side.asConflictSide
  /-- The record that is there becomes the other side. -/
  moved : P (make key localId) existing.asConflictSide
  /-- A marker takes its place. -/
  marked : P key existing.conflictMarker

theorem everyMetadata_contended {operation : Operation} (h : EveryMetadata P m)
    (hread : m.records.find? key = some existing)
    (hallows : AllowsConflict P localId key side existing.metadata)
    (hcontended : Contended kind localId key side payload existing operation m result m' notes) :
    EveryMetadata P m' := by
  have hwith : ∀ source, side.source = some source →
      EveryMetadata P (m.withSide key source side payload) :=
    fun source hsource => everyRecord_write h _ (hallows.side source hsource)
  cases hcontended with
  | noSource => exact h
  | collision => exact h
  | created hsource _ _ hm =>
    rw [hm]
    apply everyRecord_write
    · exact everyRecord_write (hwith _ hsource) _ hallows.moved
    · exact hallows.marked
  | joined hsource _ _ _ hm =>
    -- a marker that is there keeps its metadata
    rw [hm]
    exact everyRecord_write (hwith _ hsource) _ (h key existing hread)
  | rewritten hsource => exact hwith _ hsource
  | flagged hsource => exact hwith _ hsource

/-! ## §2 Taking in a write -/

/-- `P` is true of all that can be stored for a write that meets the record `existing`. -/
structure AllowsIntake (P : String → Metadata → Prop) (i : Intake α ω) (localId key : String)
    (metadata : Metadata) (payload : Option α) (existing : Record α)
    (result : Except (IntakeError StoreError) Outcome) : Prop
    extends AllowsConflict P localId key (i.arrived metadata existing.metadata) existing.metadata where
  arrived : P key (i.arrived metadata existing.metadata)
  merged : result = .ok .historiesMerged →
    P key (i.mergedTombstone (i.arrived metadata existing.metadata) existing.metadata)
  decided : ∀ resolution isDeleted, i.resolver key (i.arrived metadata existing.metadata)
    (metadata.carried payload) existing = .ok (some resolution) →
    P key { resolution.metadata.settled i.config.maxHistory with deleted := isDeleted }

theorem everyMetadata_met (h : EveryMetadata P m) (hread : m.records.find? key = some existing)
    (hallows : AllowsIntake P i localId key metadata payload existing result)
    (hmet : Met i kind localId key m w metadata payload existing result m' notes w') :
    EveryMetadata P m' := by
  cases hmet with
  | merged => exact everyRecord_write h key (hallows.merged rfl)
  | overwritten => exact everyRecord_write h key hallows.arrived
  | deleted => exact everyRecord_write h key hallows.arrived
  | settled _ hresolver hsettled =>
    cases hsettled with
    | removed =>
      exact everyRecord_eraseAll (everyRecord_write h key (hallows.decided _ true hresolver)) _
    | kept =>
      exact everyRecord_eraseAll (everyRecord_write h key (hallows.decided _ false hresolver)) _
    | refused => exact h
  | declined _ _ hcontended =>
    exact everyMetadata_contended h hread hallows.toAllowsConflict hcontended
  | disputed _ _ _ hcontended =>
    exact everyMetadata_contended h hread hallows.toAllowsConflict hcontended
  | _ => exact h

/-- What is true of all metadata that is stored, and of all that can be stored for a write, is true
of all metadata after the write has been taken in. -/
theorem everyMetadata_taken (h : EveryMetadata P m)
    (hcreated : m.records.find? key = none → P key (metadata.bounded i.config.maxHistory))
    (hmet : ∀ existing, m.records.find? key = some existing →
      AllowsIntake P i localId key metadata payload existing result)
    (htaken : Taken i kind localId key m w metadata payload result m' notes w') :
    EveryMetadata P m' := by
  cases htaken with
  | created _ _ _ habsent => exact everyRecord_write h key (hcreated habsent)
  | met hread _ hways => exact everyMetadata_met h hread (hmet _ hread) hways
  | _ => exact h

/-! ## §3 Local writes -/

/-- A local write stores the metadata that it answers, and removes the sides that it resolves. -/
theorem everyMetadata_written {max : Nat} (h : EveryMetadata P m) (hnew : P key metadata)
    (hwritten : Written localId key payload max m metadata m') : EveryMetadata P m' := by
  have hversioned : EveryMetadata P m.versioned := h
  cases hwritten with
  | stamped => exact everyRecord_write hversioned key hnew
  | resolved => exact everyRecord_eraseAll (everyRecord_write hversioned key hnew) _

end ReplicaIntake.Memory
