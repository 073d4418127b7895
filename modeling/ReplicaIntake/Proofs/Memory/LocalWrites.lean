import ReplicaIntake.Proofs.Memory.Contention
import ReplicaIntake.Store.LocalWrite

/-!
# Local writes in memory

A local write either is refused and leaves the store alone, or it stores one record with a fresh
version (`Written`). Over a plain record that is all it does; over a marker it is a resolution and
the sides are removed with it.
-/

namespace ReplicaIntake.Memory

variable {α ω : Type}

/-- The store after one more version was given out. -/
def versioned (m : Memory α) : Memory α := { m with lastVersion := m.lastVersion + 1 }

@[simp] theorem records_versioned (m : Memory α) : m.versioned.records = m.records := rfl

/-- The metadata of the sides that are there, in the order of their shadows. -/
def sidesOf (m : Memory α) (shadows : List String) : List Metadata :=
  shadows.flatMap fun shadow => ((m.records.find? shadow).map (·.metadata)).toList

/-- The metadata of a resolution on top of the given sides. -/
def resolutionOf (localId : String) (m : Memory α) (marker : Marker) (existing : Metadata)
    (max : Nat) : Metadata :=
  { Metadata.ofId localId m.versioned.lastVersion with
    lineage := (Backend.resolvedLineage (m.sidesOf marker.shadows)).bound max
    collection := existing.collection }

/-- What a local write of `payload`, or a deletion when there is none, stores under `key`: its
metadata, and the contents it leaves. -/
inductive Written (localId key : String) (payload : Option α) (max : Nat) (m : Memory α) :
    Metadata → Memory α → Prop
  /-- The write is on top of what is stored, if anything is. -/
  | stamped {metadata : Metadata}
      (hfree : (m.records.find? key).bind (·.marker?) = none)
      (hmetadata : metadata = { Metadata.stamp ((m.records.find? key).map (·.metadata)) localId
        m.versioned.lastVersion max with deleted := payload.isNone }) :
    Written localId key payload max m metadata
      (m.versioned.write key (.ofPayload payload) metadata)
  /-- The write ends the conflict, and its sides are removed. -/
  | resolved {existing : Record α} {marker : Marker} {metadata : Metadata}
      (hread : m.records.find? key = some existing) (hmarker : existing.content = .marker marker)
      (hmetadata : metadata = { m.resolutionOf localId marker existing.metadata max with
        deleted := payload.isNone }) :
    Written localId key payload max m metadata
      ((m.versioned.write key (.ofPayload payload) metadata).eraseAll marker.shadows)

variable {kind : ItemKind} {localId key : String}

/-! ## §1 Single steps -/

section Steps

variable (kind localId)

theorem nextVersion_eq (t : Transaction α ω) :
    (backend kind localId).nextVersion t =
      .ok t.contents.versioned.lastVersion (t.replaced t.contents.versioned) := rfl

theorem refuse_of_marker (t : Transaction α ω) (key : String) {existing : Option (Record α)}
    {marker : Marker} (h : existing.bind (·.marker?) = some marker) :
    Backend.refuseConflicted key existing t = .error (.conflicted key marker.shadows) t := by
  simp only [Backend.refuseConflicted, h, Op.throw_apply]

theorem refuse_of_free (t : Transaction α ω) (key : String) {existing : Option (Record α)}
    (h : existing.bind (·.marker?) = none) :
    Backend.refuseConflicted key existing t = .ok () t := by
  simp only [Backend.refuseConflicted, h, Op.pure_apply]

theorem readSides_eq (t : Transaction α ω) (shadows : List String) :
    (backend kind localId).readSides shadows t = .ok (t.contents.sidesOf shadows) t := by
  induction shadows with
  | nil => rfl
  | cons shadow rest ih =>
    refine (Op.bind_of_ok (read_eq kind localId t shadow)).trans ?_
    exact (Op.bind_of_ok ih).trans rfl

theorem removeEach_eq (t : Transaction α ω) (keys : List String) :
    (backend kind localId).removeEach keys t = .ok () (t.replaced (t.contents.eraseAll keys)) := by
  induction keys generalizing t with
  | nil => rfl
  | cons key rest ih => exact (Op.bind_of_ok (remove_unconditional _ _ t key)).trans (ih _)

/-- A record that is there is replaced by data or by a tombstone. -/
theorem replace_eq {t : Transaction α ω} {key : String} {existing : Record α}
    (hread : t.contents.records.find? key = some existing) (metadata : Metadata)
    (hdeleted : metadata.deleted = false) (payload : Option α) :
    (backend kind localId).replace key existing metadata payload t =
      .ok { metadata with deleted := payload.isNone }
        (t.replaced (t.contents.write key (.ofPayload payload)
          { metadata with deleted := payload.isNone })) := by
  cases payload with
  | some a =>
    have hsame : { metadata with deleted := (some a).isNone } = metadata := by
      rw [Option.isNone_some, ← hdeleted]
    rw [hsame]
    have hput := put_existing kind localId hread metadata a
    exact (Op.bind_of_ok hput).trans rfl
  | none =>
    -- the record is removed first, and the tombstone written where it was
    have hmark := markDeleted_eq kind localId
      (t.replaced (t.contents.erase key)) key { metadata with deleted := true }
    rw [Transaction.contents_replaced, write_erase] at hmark
    exact (Op.bind_of_ok (remove_existing _ _ hread)).trans ((Op.bind_of_ok hmark).trans rfl)

end Steps

/-! ## §2 Transactions of the store alone -/

section Transact

variable {β : Type} {body : Op (Transaction α ω) StoreError β} {m m' : Memory α}

/-- What a transaction that succeeds without queueing anything left is committed. -/
theorem transact_of_ok {b : β} (w : ω)
    (h : body { contents := m } = .ok b { contents := m' }) :
    ((backend kind localId).transact body).answer (m, w) = (.ok b, (m', w)) := by
  have hbody : body.within id ({ contents := m }, w) = .ok b ({ contents := m' }, w) :=
    Op.within_of_ok id w h
  exact Op.answer_of_ok (transaction_of_ok kind localId id hbody)

/-- A transaction that fails leaves the store as it was. -/
theorem transact_of_error {e : StoreError} {t : Transaction α ω} (w : ω)
    (h : body { contents := m } = .error e t) :
    ((backend kind localId).transact body).answer (m, w) = (.error e, (m, w)) := by
  have hbody : body.within id ({ contents := m }, w) = .error e (t, w) :=
    Op.within_of_error id w h
  exact Op.answer_of_error (transaction_of_error kind localId id hbody)

end Transact

/-! ## §3 The three local writes -/

theorem putLocal_of_marker (kind : ItemKind) (localId : String) {key : String} (payload : α)
    (max : Nat) {m : Memory α} {marker : Marker} (w : ω)
    (hmarker : (m.records.find? key).bind (·.marker?) = some marker) :
    ((backend kind localId).putLocal key payload max).answer (m, w) =
      (.error (.conflicted key marker.shadows), (m, w)) := by
  have hread := read_eq kind localId ({ contents := m } : Transaction α ω) key
  apply transact_of_error (t := { contents := m }) w
  refine (Op.bind_of_ok hread).trans (Op.bind_of_error ?_)
  exact refuse_of_marker _ key hmarker

/-- Where there is no marker, a local put is stored as a stamp of what was there. -/
theorem putLocal_of_free (kind : ItemKind) (localId : String) {key : String} (payload : α)
    (max : Nat) {m : Memory α} (w : ω)
    (hfree : (m.records.find? key).bind (·.marker?) = none) :
    ((backend kind localId).putLocal key payload max).answer (m, w) =
      (.ok (.stamp ((m.records.find? key).map (·.metadata)) localId m.versioned.lastVersion max),
        (m.versioned.write key (.data payload) (.stamp ((m.records.find? key).map (·.metadata))
          localId m.versioned.lastVersion max), w)) := by
  have hread := read_eq kind localId ({ contents := m } : Transaction α ω) key
  apply transact_of_ok w
  refine (Op.bind_of_ok hread).trans ((Op.bind_of_ok (refuse_of_free _ key hfree)).trans ?_)
  refine (Op.bind_of_ok (nextVersion_eq kind localId _)).trans ?_
  exact (Op.bind_of_ok (put_matching kind localId
    (({ contents := m } : Transaction α ω).replaced m.versioned) key _ payload)).trans rfl

/-- A local put is refused over a marker, and is written otherwise. -/
theorem putLocal_cases (kind : ItemKind) (localId key : String) (payload : α) (max : Nat)
    (m : Memory α) (w : ω) :
    (∃ error, ((backend kind localId).putLocal key payload max).answer (m, w) =
      (.error error, (m, w))) ∨
    ∃ metadata m', Written localId key (some payload) max m metadata m' ∧
      ((backend kind localId).putLocal key payload max).answer (m, w) =
        (.ok metadata, (m', w)) := by
  cases hfree : (m.records.find? key).bind (·.marker?) with
  | some marker => exact .inl ⟨_, putLocal_of_marker kind localId payload max w hfree⟩
  | none =>
    refine .inr ⟨_, _, .stamped hfree ?_, putLocal_of_free kind localId payload max w hfree⟩
    -- a stamp is that of a put already
    cases (m.records.find? key).map (·.metadata) <;> rfl

theorem deleteLocal_of_marker (kind : ItemKind) (localId : String) {key : String} (max : Nat)
    {m : Memory α} {marker : Marker} (w : ω)
    (hmarker : (m.records.find? key).bind (·.marker?) = some marker) :
    ((backend kind localId).deleteLocal key max).answer (m, w) =
      (.error (.conflicted key marker.shadows), (m, w)) := by
  obtain ⟨existing, hexisting, -⟩ := Option.bind_eq_some_iff.1 hmarker
  have hread := read_existing kind localId (t := ({ contents := m } : Transaction α ω)) hexisting
  rw [hexisting] at hmarker
  apply transact_of_error (t := { contents := m }) w
  refine (Op.bind_of_ok hread).trans (Op.bind_of_error ?_)
  exact refuse_of_marker _ key hmarker

/-- Where there is a record and no marker, a tombstone is stored under a stamp of the record. -/
theorem deleteLocal_of_free (kind : ItemKind) (localId : String) {key : String} (max : Nat)
    {m : Memory α} {existing : Record α} (w : ω) (hexisting : m.records.find? key = some existing)
    (hfree : existing.marker? = none) :
    ((backend kind localId).deleteLocal key max).answer (m, w) =
      (.ok (some { Metadata.stamp (some existing.metadata) localId m.versioned.lastVersion max with
        deleted := true }),
      (m.versioned.write key .tombstone { Metadata.stamp (some existing.metadata) localId
        m.versioned.lastVersion max with deleted := true }, w)) := by
  have hread := read_existing kind localId (t := ({ contents := m } : Transaction α ω)) hexisting
  have hrefuse : Backend.refuseConflicted key (some existing) ({ contents := m } : Transaction α ω) =
      .ok () { contents := m } := refuse_of_free _ key hfree
  apply transact_of_ok w
  refine (Op.bind_of_ok hread).trans ((Op.bind_of_ok hrefuse).trans ?_)
  refine (Op.bind_of_ok (nextVersion_eq kind localId _)).trans ?_
  have hreplace := replace_eq kind localId
    (t := ({ contents := m } : Transaction α ω).replaced m.versioned) hexisting
    (.stamp (some existing.metadata) localId m.versioned.lastVersion max) rfl none
  exact (Op.bind_of_ok hreplace).trans rfl

theorem deleteLocal_of_absent (kind : ItemKind) (localId : String) {key : String} (max : Nat)
    {m : Memory α} (w : ω) (habsent : m.records.find? key = none) :
    ((backend kind localId).deleteLocal key max).answer (m, w) = (.ok none, (m, w)) := by
  have hread := read_eq kind localId ({ contents := m } : Transaction α ω) key
  have hnone : (({ contents := m } : Transaction α ω).contents.records.find? key) = none := habsent
  rw [hnone] at hread
  exact transact_of_ok w ((Op.bind_of_ok hread).trans rfl)

/-- A local deletion does nothing to an absent key, is refused over a marker, and is written
otherwise. -/
theorem deleteLocal_cases (kind : ItemKind) (localId key : String) (max : Nat) (m : Memory α)
    (w : ω) :
    (m.records.find? key = none ∧
      ((backend kind localId).deleteLocal key max).answer (m, w) = (.ok none, (m, w))) ∨
    (∃ error, ((backend kind localId).deleteLocal key max).answer (m, w) =
      (.error error, (m, w))) ∨
    ∃ metadata m', Written localId key none max m metadata m' ∧
      ((backend kind localId).deleteLocal key max).answer (m, w) =
        (.ok (some metadata), (m', w)) := by
  cases hexisting : m.records.find? key with
  | none => exact .inl ⟨rfl, deleteLocal_of_absent kind localId max w hexisting⟩
  | some existing =>
    right
    cases hmarker : existing.marker? with
    | some marker =>
      have hconflict : (m.records.find? key).bind (·.marker?) = some marker := by
        rw [hexisting]
        exact hmarker
      exact .inl ⟨_, deleteLocal_of_marker kind localId max w hconflict⟩
    | none =>
      refine .inr ⟨_, _, .stamped (by simp [hexisting, hmarker]) ?_,
        deleteLocal_of_free kind localId max w hexisting hmarker⟩
      rw [hexisting]
      rfl

/-- A resolution over a marker succeeds: it is stored in place of the marker, and the sides are
removed. -/
theorem resolveLocal_of_marker (kind : ItemKind) (localId : String) {key : String}
    (payload : Option α) (max : Nat) {m : Memory α} {existing : Record α} {marker : Marker} (w : ω)
    (hexisting : m.records.find? key = some existing) (hmarker : existing.marker? = some marker) :
    ((backend kind localId).resolveLocal key payload max).answer (m, w) =
      (.ok { m.resolutionOf localId marker existing.metadata max with deleted := payload.isNone },
      ((m.versioned.write key (.ofPayload payload)
        { m.resolutionOf localId marker existing.metadata max with
          deleted := payload.isNone }).eraseAll marker.shadows, w)) := by
  have hread := read_eq kind localId ({ contents := m } : Transaction α ω) key
  have hpresent : (({ contents := m } : Transaction α ω).contents.records.find? key) =
      some existing := hexisting
  rw [hpresent] at hread
  refine transact_of_ok w ?_
  -- the sides are read before they are removed, and the version is taken in between
  refine (Op.bind_of_ok hread).trans ?_
  simp only [hmarker]
  refine (Op.bind_of_ok (readSides_eq kind localId _ marker.shadows)).trans ?_
  refine (Op.bind_of_ok (nextVersion_eq kind localId _)).trans ?_
  refine (Op.bind_of_ok (replace_eq kind localId
    (t := ({ contents := m } : Transaction α ω).replaced m.versioned) hexisting _ rfl
    payload)).trans ?_
  exact (Op.bind_of_ok (removeEach_eq kind localId _ marker.shadows)).trans rfl

/-- Without a marker there is nothing to resolve. -/
theorem resolveLocal_of_free (kind : ItemKind) (localId : String) {key : String}
    (payload : Option α) (max : Nat) {m : Memory α} (w : ω)
    (hfree : (m.records.find? key).bind (·.marker?) = none) :
    ((backend kind localId).resolveLocal key payload max).answer (m, w) =
      (.error (.notConflicted key), (m, w)) := by
  have hread := read_eq kind localId ({ contents := m } : Transaction α ω) key
  refine transact_of_error (t := { contents := m }) w ((Op.bind_of_ok hread).trans ?_)
  show _ = EStateM.Result.error _ _
  cases hexisting : m.records.find? key with
  | none => rfl
  | some existing =>
    rw [hexisting] at hfree
    have hmarker : existing.marker? = none := hfree
    simp only [hmarker]
    rfl

/-- A resolution is refused without a marker, and is written otherwise. -/
theorem resolveLocal_cases (kind : ItemKind) (localId key : String) (payload : Option α)
    (max : Nat) (m : Memory α) (w : ω) :
    (∃ error, ((backend kind localId).resolveLocal key payload max).answer (m, w) =
      (.error error, (m, w))) ∨
    ∃ metadata m', Written localId key payload max m metadata m' ∧
      ((backend kind localId).resolveLocal key payload max).answer (m, w) =
        (.ok metadata, (m', w)) := by
  cases hmarker : (m.records.find? key).bind (·.marker?) with
  | none => exact .inl ⟨_, resolveLocal_of_free kind localId payload max w hmarker⟩
  | some marker =>
    obtain ⟨existing, hexisting, hlisted⟩ := Option.bind_eq_some_iff.1 hmarker
    exact .inr ⟨_, _, .resolved hexisting (content_of_marker? hlisted) rfl,
      resolveLocal_of_marker kind localId payload max w hexisting hlisted⟩

end ReplicaIntake.Memory
