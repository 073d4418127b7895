import ReplicaIntake.Store.Memory

/-!
# Operations of an open transaction in memory

What each operation of the storage contract does to the contents of an open transaction of a store
in memory. An operation changes records by writing one key or erasing one key, so every fact about
the contents is read off from what a look-up sees after a write (`find?_write`) and after an
erasure (`find?_eraseAll`).

An etag condition that was read in the same transaction always holds, so with the record at hand
`put_existing` and `remove_existing` do not fail.
-/

namespace ReplicaIntake

/-! ## §1 Running operations -/

namespace Op

variable {σ ω ε ε' β γ : Type}

@[simp] theorem pure_apply (b : β) (s : σ) : (pure b : Op σ ε β) s = .ok b s := rfl

@[simp] theorem throw_apply (e : ε) (s : σ) : (throw e : Op σ ε β) s = .error e s := rfl

/-- An operation that answers hands its answer and its state on. -/
theorem bind_of_ok {x : Op σ ε β} {f : β → Op σ ε γ} {s s' : σ} {b : β} (h : x s = .ok b s') :
    (x >>= f) s = f b s' := by
  simp only [bind, EStateM.bind, h]

/-- An operation that fails ends the sequence. -/
theorem bind_of_error {x : Op σ ε β} {f : β → Op σ ε γ} {s s' : σ} {e : ε}
    (h : x s = .error e s') : (x >>= f) s = .error e s' := by
  simp only [bind, EStateM.bind, h]

theorem within_of_ok (wrap : ε → ε') {x : Op σ ε β} {s s' : σ} {b : β} (w : ω)
    (h : x s = .ok b s') : x.within wrap (s, w) = .ok b (s', w) := by
  simp only [within, h]

theorem within_of_error (wrap : ε → ε') {x : Op σ ε β} {s s' : σ} {e : ε} (w : ω)
    (h : x s = .error e s') : x.within wrap (s, w) = .error (wrap e) (s', w) := by
  simp only [within, h]

theorem answer_of_ok {x : Op σ ε β} {s s' : σ} {b : β} (h : x s = .ok b s') :
    x.answer s = (.ok b, s') := by
  simp only [answer, h]

theorem answer_of_error {x : Op σ ε β} {s s' : σ} {e : ε} (h : x s = .error e s') :
    x.answer s = (.error e, s') := by
  simp only [answer, h]

/-- What a sequence answers is what its rest answers after the first operation. -/
theorem answer_bind_of_ok {x : Op σ ε β} {f : β → Op σ ε γ} {s s' : σ} {b : β}
    (h : x s = .ok b s') : (x >>= f).answer s = (f b).answer s' := by
  simp only [answer, bind_of_ok h]

end Op

namespace Memory

variable {α ω : Type}

/-! ## §2 What a look-up sees -/

@[simp] theorem find?_write (m : Memory α) (key : String) (content : Content α)
    (metadata : Metadata) (q : String) :
    (m.write key content metadata).records.find? q =
      if q = key then some ⟨content, m.lastEtag.next, metadata⟩ else m.records.find? q :=
  KeyMap.find?_insert _ _ _ _

@[simp] theorem lastEtag_write (m : Memory α) (key : String) (content : Content α)
    (metadata : Metadata) : (m.write key content metadata).lastEtag = m.lastEtag.next := rfl

/-- The store without the records under the given keys. -/
def eraseAll (m : Memory α) (keys : List String) : Memory α := keys.foldl erase m

@[simp] theorem find?_eraseAll (keys : List String) (m : Memory α) (q : String) :
    (m.eraseAll keys).records.find? q = if q ∈ keys then none else m.records.find? q := by
  induction keys generalizing m with
  | nil => rfl
  | cons key rest ih =>
    have hstep : (m.eraseAll (key :: rest)).records.find? q =
        ((m.erase key).eraseAll rest).records.find? q := rfl
    rw [hstep, ih]
    simp only [erase, KeyMap.find?_erase, List.mem_cons]
    -- the first key is gone after its own step, and the others are left to the rest
    by_cases hq : q = key
    · simp [hq]
    · simp [hq]

/-- Erasing a key that is not there changes nothing. -/
theorem erase_of_absent {m : Memory α} {key : String} (h : m.records.find? key = none) :
    m.erase key = m := by
  -- maps are equal when every look-up is
  have hrecords : m.records.erase key = m.records := by
    apply KeyMap.ext_find?
    intro q
    rw [KeyMap.find?_erase]
    split
    · rename_i hq
      rw [hq, h]
    · rfl
  simp only [erase, hrecords]

/-- What is written over an erased key is written over the key. -/
theorem write_erase (m : Memory α) (key : String) (content : Content α) (metadata : Metadata) :
    (m.erase key).write key content metadata = m.write key content metadata := by
  have hrecords : ∀ r : Record α,
      (m.records.erase key).insert key r = m.records.insert key r := by
    intro r
    apply KeyMap.ext_find?
    intro q
    rw [KeyMap.find?_insert, KeyMap.find?_insert, KeyMap.find?_erase]
    split <;> rfl
  simp only [write, erase, hrecords]

/-! ## §3 The storage contract -/

/-- The storage of an intake that runs in an open transaction of a store in memory. -/
abbrev storage (kind : ItemKind) (localId : String) :
    Storage (Transaction α ω) α ω StoreError :=
  (backend kind localId).storage

/-- The transaction with other contents. -/
def Transaction.replaced (t : Transaction α ω) (m : Memory α) : Transaction α ω :=
  { t with contents := m }

@[simp] theorem Transaction.contents_replaced (t : Transaction α ω) (m : Memory α) :
    (t.replaced m).contents = m := rfl

@[simp] theorem Transaction.replaced_replaced (t : Transaction α ω) (m m' : Memory α) :
    (t.replaced m).replaced m' = t.replaced m' := rfl

@[simp] theorem Transaction.replaced_contents (t : Transaction α ω) :
    t.replaced t.contents = t := rfl

variable (kind : ItemKind) (localId : String)

theorem read_eq (t : Transaction α ω) (key : String) :
    (backend kind localId).read key t = .ok (t.contents.records.find? key) t := rfl

theorem read_existing {t : Transaction α ω} {key : String} {existing : Record α}
    (h : t.contents.records.find? key = some existing) :
    (backend kind localId).read key t = .ok (some existing) t := by
  rw [read_eq, h]

theorem checkEtag_existing (t : Transaction α ω) (key : String) (existing : Record α) :
    Backend.checkEtag key (some existing.etag) (some existing) t = .ok () t := by
  simp [Backend.checkEtag]

/-- Any other etag is refused. -/
theorem checkEtag_of_ne {t : Transaction α ω} {key : String} {etag : Etag}
    {current : Option (Record α)} (h : current.map (·.etag) ≠ some etag) :
    Backend.checkEtag key (some etag) current t =
      .error (.concurrency key etag (current.map (·.etag))) t := by
  simp only [Backend.checkEtag]
  rw [if_neg h]
  rfl

/-- Data is stored unconditionally when no etag is expected. -/
theorem put_unconditional (t : Transaction α ω) (key : String) (metadata : Metadata) (a : α) :
    (storage kind localId).put key none metadata a t =
      .ok t.contents.lastEtag.next (t.replaced (t.contents.write key (.data a) metadata)) := rfl

/-- The etag of the stored record is an etag that may be expected. -/
theorem put_existing {t : Transaction α ω} {key : String} {existing : Record α}
    (h : t.contents.records.find? key = some existing) (metadata : Metadata) (a : α) :
    (storage kind localId).put key (some existing.etag) metadata a t =
      .ok t.contents.lastEtag.next (t.replaced (t.contents.write key (.data a) metadata)) := by
  -- a put reads, checks the etag and stores
  refine (Op.bind_of_ok (read_existing kind localId h)).trans ?_
  exact Op.bind_of_ok (checkEtag_existing t key existing)

/-- What a look-up said of the etag may be expected, also that there is none. -/
theorem put_matching (t : Transaction α ω) (key : String) (metadata : Metadata) (a : α) :
    (storage kind localId).put key ((t.contents.records.find? key).map (·.etag)) metadata a t =
      .ok t.contents.lastEtag.next (t.replaced (t.contents.write key (.data a) metadata)) := by
  cases h : t.contents.records.find? key with
  | none => exact put_unconditional kind localId t key metadata a
  | some existing => exact put_existing kind localId h metadata a

/-- A key is removed unconditionally when no etag is expected, whether it is there or not. -/
theorem remove_unconditional (t : Transaction α ω) (key : String) :
    (storage kind localId).remove key none t =
      .ok () (t.replaced (t.contents.erase key)) := by
  refine (Op.bind_of_ok (read_eq kind localId t key)).trans ?_
  cases h : t.contents.records.find? key with
  | none =>
    -- nothing is erased where nothing is
    rw [erase_of_absent h]
    rfl
  | some existing => rfl

theorem remove_existing {t : Transaction α ω} {key : String} {existing : Record α}
    (h : t.contents.records.find? key = some existing) :
    (storage kind localId).remove key (some existing.etag) t =
      .ok () (t.replaced (t.contents.erase key)) := by
  refine (Op.bind_of_ok (read_existing kind localId h)).trans ?_
  exact Op.bind_of_ok (checkEtag_existing t key existing)

/-- A put either stores the data or is refused and changes nothing. -/
theorem put_cases (t : Transaction α ω) (key : String) (expected : Option Etag)
    (metadata : Metadata) (a : α) :
    (∃ etag, (storage kind localId).put key expected metadata a t =
      .ok etag (t.replaced (t.contents.write key (.data a) metadata))) ∨
    ∃ error, (storage kind localId).put key expected metadata a t = .error error t := by
  cases expected with
  | none => exact .inl ⟨_, put_unconditional kind localId t key metadata a⟩
  | some etag =>
    -- the etag of the record is matched against the one that is expected
    by_cases hetag : (t.contents.records.find? key).map (·.etag) = some etag
    · rw [← hetag]
      exact .inl ⟨_, put_matching kind localId t key metadata a⟩
    · have hread := read_eq kind localId t key
      exact .inr ⟨_, (Op.bind_of_ok hread).trans (Op.bind_of_error (checkEtag_of_ne hetag))⟩

/-- A removal either leaves no record under the key or is refused and changes nothing. -/
theorem remove_cases (t : Transaction α ω) (key : String) (expected : Option Etag) :
    (storage kind localId).remove key expected t = .ok () (t.replaced (t.contents.erase key)) ∨
    ∃ error, (storage kind localId).remove key expected t = .error error t := by
  cases expected with
  | none => exact .inl (remove_unconditional kind localId t key)
  | some etag =>
    by_cases hetag : (t.contents.records.find? key).map (·.etag) = some etag
    · obtain ⟨existing, hread, rfl⟩ := Option.map_eq_some_iff.1 hetag
      exact .inl (remove_existing kind localId hread)
    · have hread := read_eq kind localId t key
      exact .inr ⟨_, (Op.bind_of_ok hread).trans (Op.bind_of_error (checkEtag_of_ne hetag))⟩

theorem markDeleted_eq (t : Transaction α ω) (key : String) (metadata : Metadata) :
    (storage kind localId).markDeleted key metadata t =
      .ok t.contents.lastEtag.next
        (t.replaced (t.contents.write key .tombstone { metadata with deleted := true })) := rfl

theorem markDeleted_of_deleted (t : Transaction α ω) (key : String) {metadata : Metadata}
    (h : metadata.deleted = true) :
    (storage kind localId).markDeleted key metadata t =
      .ok t.contents.lastEtag.next (t.replaced (t.contents.write key .tombstone metadata)) := by
  rw [markDeleted_eq, ← h]

/-! ## §4 Conflicts -/

/-- The store with a marker of two shadows under `key`, and with the record that was there as the
first of them. -/
def withConflict (m : Memory α) (key newShadow existingShadow : String) (existing : Record α) :
    Memory α :=
  (m.write existingShadow existing.content existing.metadata.asConflictSide).write key
    (.marker (.pair existingShadow newShadow)) existing.metadata.conflictMarker

@[simp] theorem find?_withConflict (m : Memory α) (key newShadow existingShadow : String)
    (existing : Record α) (q : String) :
    (m.withConflict key newShadow existingShadow existing).records.find? q =
      if q = key then
        some ⟨.marker (.pair existingShadow newShadow), m.lastEtag.next.next,
          existing.metadata.conflictMarker⟩
      else if q = existingShadow then
        some ⟨existing.content, m.lastEtag.next, existing.metadata.asConflictSide⟩
      else m.records.find? q := by
  rw [withConflict, find?_write, find?_write, lastEtag_write]

theorem marker?_of_plain {existing : Record α} (h : existing.isMarker = false) :
    existing.marker? = none := by
  obtain ⟨content, etag, metadata⟩ := existing
  cases content with
  | data a => rfl
  | tombstone => rfl
  | marker m => simp [Record.isMarker] at h

/-- A record that holds no marker is moved to its shadow. -/
theorem createConflict_eq (t : Transaction α ω) (key newShadow existingShadow : String)
    {existing : Record α} (h : existing.marker? = none) :
    (storage kind localId).createConflict key newShadow existingShadow existing t =
      .ok ⟨t.contents.lastEtag.next.next, (Marker.pair existingShadow newShadow).shadows⟩
        (t.replaced (t.contents.withConflict key newShadow existingShadow existing)) := by
  obtain ⟨content, etag, metadata⟩ := existing
  cases content with
  | data a => rfl
  | tombstone => rfl
  | marker m => simp [Record.marker?] at h

/-- A record that holds a marker is in conflict already. -/
theorem createConflict_of_marker (t : Transaction α ω) (key newShadow existingShadow : String)
    {existing : Record α} {marker : Marker} (h : existing.marker? = some marker) :
    (storage kind localId).createConflict key newShadow existingShadow existing t =
      .error (.conflicted key marker.shadows) t := by
  obtain ⟨content, etag, metadata⟩ := existing
  cases content with
  | data a => simp [Record.marker?] at h
  | tombstone => simp [Record.marker?] at h
  | marker m =>
    obtain rfl : m = marker := by simpa [Record.marker?] using h
    rfl

/-- A shadow that the marker lists already is not listed again. -/
theorem extendConflict_of_listed (t : Transaction α ω) (key : String) {newShadow : String}
    {existing : Record α} {marker : Marker} (h : existing.marker? = some marker)
    (hlisted : marker.lists newShadow = true) :
    (storage kind localId).extendConflict key newShadow existing t =
      .ok ⟨existing.etag, marker.shadows⟩ t := by
  show (backend kind localId).extendConflict key newShadow existing t = _
  simp only [Backend.extendConflict, h, hlisted, if_true, Op.pure_apply]

/-- Another shadow becomes the last one of the marker. -/
theorem extendConflict_of_new (t : Transaction α ω) (key : String) {newShadow : String}
    {existing : Record α} {marker : Marker} (h : existing.marker? = some marker)
    (hnew : marker.lists newShadow = false) :
    (storage kind localId).extendConflict key newShadow existing t =
      .ok ⟨t.contents.lastEtag.next, marker.shadows ++ [newShadow]⟩
        (t.replaced (t.contents.write key (.marker ⟨marker.shadows ++ [newShadow]⟩)
          existing.metadata)) := by
  show (backend kind localId).extendConflict key newShadow existing t = _
  have hpush : marker.push newShadow = ⟨marker.shadows ++ [newShadow]⟩ := by
    simp [Marker.push, hnew]
  simp only [Backend.extendConflict, h, hnew, hpush, Bool.false_eq_true, if_false]
  rfl

/-- A record without a marker lists no shadows. -/
theorem extendConflict_of_no_marker (t : Transaction α ω) (key newShadow : String)
    {existing : Record α} (h : existing.marker? = none) :
    (storage kind localId).extendConflict key newShadow existing t =
      .error (.notConflicted key) t := by
  show (backend kind localId).extendConflict key newShadow existing t = _
  simp only [Backend.extendConflict, h, Op.throw_apply]

/-! ## §5 Transactions -/

section Transactions

variable {ε β : Type} (wrap : StoreError → ε) {body : Op (Transaction α ω × ω) ε β}
  {m : Memory α} {t : Transaction α ω} {w w' : ω}

/-- What a body that succeeds left is committed, and its queue is run. -/
theorem transaction_of_ok {b : β} (h : body ({ contents := m }, w) = .ok b (t, w')) :
    (backend kind localId).transaction wrap body (m, w) =
      .ok b (t.contents, t.pending.run w') := by
  simp only [Backend.transaction, backend, h]

/-- What a body that fails left is dropped, and its queue is not run. -/
theorem transaction_of_error {e : ε} (h : body ({ contents := m }, w) = .error e (t, w')) :
    (backend kind localId).transaction wrap body (m, w) = .error e (m, w') := by
  simp only [Backend.transaction, backend, h]

end Transactions

end Memory

end ReplicaIntake
