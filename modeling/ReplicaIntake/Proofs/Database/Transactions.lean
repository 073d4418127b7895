import ReplicaIntake.Proofs.Database.Rows
import ReplicaIntake.Proofs.Memory.Etags
import ReplicaIntake.Proofs.VersionCounts

/-!
# One transaction on a database

The stores on a database share its settings, and each has the rows of its kind. What one transaction
may do to all that is said in three steps. Every operation of a backend leaves the settings alone
and counts what it gives out (`Working`), so the transaction can be committed, and the counts are
read again as they were written (`Working.finish`). A store that also lists its changes
(`Backend.logged`) does the same, and what it lists gives the rows of its kind as they are then and
numbers the etags through (`logged_alike`). And the versions that are answered are those by which
the count has grown (`backend_counts`).

`sound_turn` puts this together for every transaction, committed or not, and whatever payloads it
brings: that a row can be read again does not matter here.
-/

namespace ReplicaIntake

open Op Database

/-! ## §1 Databases that can be worked on -/

namespace Settings

variable {localId : String} {settings : Settings}

/-- The settings hold the local id and can be written. -/
structure Usable (localId : String) (settings : Settings) : Prop where
  writable : settings.refusesVersion = false
  named : settings.values.find? localIdName = some localId

/-- The settings with the counts written back. -/
def counted (settings : Settings) (etag version : UInt64) : Settings :=
  let values := settings.values.insert lastEtagName (Decimal.ofNat etag.toNat)
  { settings with values := values.insert lastVersionName (Decimal.ofNat version.toNat) }

theorem Usable.counted (h : settings.Usable localId) (etag version : UInt64) :
    (settings.counted etag version).Usable localId where
  writable := h.writable
  named := by
    -- the local id has a name of its own
    rw [Settings.counted, KeyMap.find?_insert_of_ne _ _ (by decide),
      KeyMap.find?_insert_of_ne _ _ (by decide)]
    exact h.named

end Settings

namespace Database

variable {α ω : Type} {format : PayloadFormat α} {localId : String} {etags versions : Nat}

theorem lastEtag_counted {db : Database} {settings : Settings} {etag version : UInt64}
    (h : db.settings = some (settings.counted etag version)) :
    db.count lastEtagName .lastEtag = .ok etag := by
  have hother : lastEtagName ≠ lastVersionName := by decide
  simp [count, h, Settings.counted, KeyMap.find?_insert_of_ne _ _ hother, Decimal.word_toNat]

theorem lastVersion_counted {db : Database} {settings : Settings} {etag version : UInt64}
    (h : db.settings = some (settings.counted etag version)) :
    db.count lastVersionName .lastVersion = .ok version := by
  simp [count, h, Settings.counted, Decimal.word_toNat]

/-- The database has a local id and all tables, and `etags` etags and `versions` versions have been
given out. -/
structure Sound (localId : String) (etags versions : Nat) (db : Database) : Prop where
  settings : ∃ settings, db.settings = some settings ∧ settings.Usable localId
  items : ∃ items, db.items = some items
  lastEtag : db.count lastEtagName .lastEtag = .ok (.ofNat etags)
  lastVersion : db.count lastVersionName .lastVersion = .ok (.ofNat versions)

/-- A transaction that was opened on such a database has got so far. -/
structure Working (localId : String) (etags versions : Nat) (t : Transaction ω) : Prop where
  settings : ∃ settings, t.contents.settings = some settings ∧ settings.Usable localId
  items : ∃ items, t.contents.items = some items
  lastEtag : t.lastEtag = ⟨.ofNat etags⟩
  lastVersion : t.lastVersion = .ofNat versions

theorem start_of_sound {db : Database} (h : Sound localId etags versions db) :
    ∃ t : Transaction ω, start db = .ok t ∧ t.contents = db ∧ Working localId etags versions t := by
  refine ⟨⟨db, ⟨.ofNat etags⟩, .ofNat versions, {}⟩, ?_, rfl, h.settings, h.items, rfl, rfl⟩
  rw [start, h.lastEtag, h.lastVersion]
  rfl

namespace Working

variable {t : Transaction ω}

/-- A commit writes the counts back, and leaves the rows as they are. -/
theorem finish (h : Working localId etags versions t) :
    ∃ db, Database.finish t = .ok (db, t.pending) ∧ db.items = t.contents.items ∧
      Sound localId etags versions db := by
  obtain ⟨settings, hsettings, husable⟩ := h.settings
  refine ⟨{ t.contents with settings := some (settings.counted t.lastEtag.value t.lastVersion) },
    ?_, rfl, ⟨_, rfl, husable.counted _ _⟩, h.items, ?_, ?_⟩
  · simp [Database.finish, Database.set, hsettings, husable.writable, Settings.counted]
    rfl
  · rw [lastEtag_counted rfl, h.lastEtag]
  · rw [lastVersion_counted rfl, h.lastVersion]

/-- The next version is counted. -/
theorem nextVersion (h : Working localId etags versions t) :
    Working localId etags (versions + 1) { t with lastVersion := t.lastVersion + 1 } where
  settings := h.settings
  items := h.items
  lastEtag := h.lastEtag
  lastVersion := by
    rw [h.lastVersion, UInt64.ofNat_add]
    rfl

/-- The next etag is counted. -/
theorem nextEtag (h : Working localId etags versions t) :
    Working localId (etags + 1) versions { t with lastEtag := t.lastEtag.next } where
  settings := h.settings
  items := h.items
  lastEtag := by
    rw [h.lastEtag, UInt64.ofNat_add]
    rfl
  lastVersion := h.lastVersion

/-- Rows of some kind are replaced. -/
theorem setRows (h : Working localId etags versions t) (kind : ItemKind) (rows : KeyMap Row) :
    Working localId etags versions { t with contents := t.contents.setRows kind rows } where
  settings := h.settings
  items := by
    obtain ⟨items, hitems⟩ := h.items
    rw [Database.setRows, hitems]
    exact ⟨_, rfl⟩
  lastEtag := h.lastEtag
  lastVersion := h.lastVersion

theorem enqueue (h : Working localId etags versions t) (action : CommitAction ω) :
    Working localId etags versions { t with pending := t.pending.push action } :=
  ⟨h.settings, h.items, h.lastEtag, h.lastVersion⟩

end Working

/-! ## §2 Rows of one kind -/

theorem rows_setRows (db : Database) (kind other : ItemKind) (rows : KeyMap Row) :
    (db.setRows kind rows).rows other =
      if other = kind then (db.rows kind).map fun _ => rows else db.rows other := by
  obtain ⟨settings, _ | items⟩ := db
  · simp [setRows, Database.rows, Except.map]
  · by_cases hkind : other = kind <;> simp [setRows, Database.rows, Except.map, hkind]

theorem rows_of_items {db : Database} {items : ItemKind → KeyMap Row} (h : db.items = some items)
    (kind : ItemKind) : db.rows kind = .ok (items kind) := by
  rw [Database.rows, h]

/-- Carries one change of a record over to the rows. -/
def carryRow (format : PayloadFormat α) (rows : KeyMap Row) (change : Change α) : KeyMap Row :=
  match change.2 with
  | some record => rows.insert change.1 (rowOfRecord format record)
  | none => rows.erase change.1

/-- The rows of the kind have been changed as listed, and no others. -/
def RowsChanged (format : PayloadFormat α) (changes : List (Change α)) (before after : Database) :
    Prop :=
  ∀ kind, after.rows kind =
    if kind = format.kind then
      (before.rows kind).map fun rows => changes.foldl (carryRow format) rows
    else before.rows kind

theorem rowsChanged_nil (db : Database) : RowsChanged format [] db db := by
  intro kind
  cases hrows : db.rows kind <;> simp [Except.map]

/-- One more change of the rows of the kind. -/
theorem RowsChanged.changed {changes : List (Change α)} {before db : Database}
    {items : ItemKind → KeyMap Row} (h : RowsChanged format changes before db)
    (hitems : db.items = some items) (change : Change α) :
    RowsChanged format (changes ++ [change]) before
      (db.setRows format.kind (carryRow format (items format.kind) change)) := by
  intro kind
  rw [rows_setRows]
  by_cases hkind : kind = format.kind
  · subst hkind
    have hrows := h format.kind
    rw [if_pos rfl, rows_of_items hitems] at hrows
    rw [if_pos rfl, if_pos rfl, rows_of_items hitems]
    cases hbefore : before.rows format.kind with
    | error e =>
      rw [hbefore] at hrows
      cases hrows
    | ok rows =>
      rw [hbefore] at hrows
      have hfold : items format.kind = changes.foldl (carryRow format) rows := Except.ok.inj hrows
      simp [Except.map, hfold]
  · rw [if_neg hkind, if_neg hkind, h kind, if_neg hkind]

/-! ## §3 One transaction -/

/-- The etags of the writes among the changes. -/
def etagsOf (changes : List (Change α)) : List UInt64 :=
  (written changes).map fun entry => entry.2.etag.value

@[simp] theorem etagsOf_append (changes changes' : List (Change α)) :
    etagsOf (changes ++ changes') = etagsOf changes ++ etagsOf changes' := by
  simp [etagsOf]

/-- The listed changes have led from one database to another, and each write among them was given
the next etag after the first `etags`. -/
structure Led (format : PayloadFormat α) (etags : Nat) (before : Database)
    (changes : List (Change α)) (after : Database) : Prop where
  rows : RowsChanged format changes before after
  etags : etagsOf changes = numbersAfter etags (etagsOf changes).length

section Operations

variable {t : Transaction ω} {items : ItemKind → KeyMap Row}

theorem erase_of_items (hitems : t.contents.items = some items) (format : PayloadFormat α)
    (localId key : String) :
    (backend format localId).erase key t = .ok () { t with
      contents := t.contents.setRows format.kind
        (carryRow format (items format.kind) (key, none)) } :=
  changeRows_of_rows (rows_of_items hitems _) _

theorem write_of_items (hitems : t.contents.items = some items) (format : PayloadFormat α)
    (localId key : String) (content : Content α) (metadata : Metadata) :
    (backend format localId).write key content metadata t = .ok t.lastEtag.next { t with
      contents := t.contents.setRows format.kind (carryRow format (items format.kind)
        (key, some ⟨content, t.lastEtag.next, metadata⟩))
      lastEtag := t.lastEtag.next } :=
  write_of_rows (rows_of_items hitems _) key content metadata

/-- Reading leaves the transaction as it is. -/
theorem read_leaves (format : PayloadFormat α) (key : String) (t : Transaction ω) :
    (∃ r, Database.read format key t = .ok r t) ∨ ∃ e, Database.read format key t = .error e t := by
  unfold Database.read withRows
  split
  · exact .inl ⟨_, rfl⟩
  · exact .inr ⟨_, rfl⟩

end Operations

/-- A write is listed with the next etag. -/
theorem Led.written {before db : Database} {changes : List (Change α)}
    {items : ItemKind → KeyMap Row} (h : Led format etags before changes db)
    (hitems : db.items = some items) (key : String) (content : Content α) (metadata : Metadata)
    {etag : Etag} (hetag : etag = ⟨.ofNat (etags + (etagsOf changes).length + 1)⟩) :
    Led format etags before (changes ++ [(key, some ⟨content, etag, metadata⟩)])
      (db.setRows format.kind (carryRow format (items format.kind)
        (key, some ⟨content, etag, metadata⟩))) where
  rows := h.rows.changed hitems _
  etags := by
    have hnext : etagsOf [(key, some (⟨content, etag, metadata⟩ : Record α))] =
        numbersAfter (etags + (etagsOf changes).length) 1 :=
      congrArg (fun e : Etag => [e.value]) hetag
    rw [etagsOf_append, hnext, List.length_append, length_numbersAfter, ← numbersAfter_append,
      ← h.etags]

/-- A removal is listed, and has no etag. -/
theorem Led.erased {before db : Database} {changes : List (Change α)}
    {items : ItemKind → KeyMap Row} (h : Led format etags before changes db)
    (hitems : db.items = some items) (key : String) :
    Led format etags before (changes ++ [(key, none)])
      (db.setRows format.kind (carryRow format (items format.kind) (key, none))) where
  rows := h.rows.changed hitems _
  etags := by
    rw [etagsOf_append, show etagsOf [((key, none) : Change α)] = [] from rfl, List.append_nil]
    exact h.etags

/-- From a database on, the stores of one kind and those that list their changes do the same, and
the listed changes have led to the database as it is then. -/
theorem logged_alike (format : PayloadFormat α) (localId : String) (etags : Nat)
    (before : Database) :
    Backend.Alike (backend format localId : Backend Database (Transaction ω) α ω)
      (backend format localId).logged (fun _ => True)
      (fun db s => ∃ changes, s = (db, changes) ∧ Led format etags before changes db ∧
        ∃ versions, Sound localId (etags + (etagsOf changes).length) versions db)
      (fun t s => ∃ changes, s = (t, changes) ∧ Led format etags before changes t.contents ∧
        ∃ versions, Working localId (etags + (etagsOf changes).length) versions t) where
  kind := rfl
  localId := rfl
  start := by
    rintro db _ ⟨changes, rfl, hled, versions, hsound⟩
    obtain ⟨t, hstart, rfl, ht⟩ := start_of_sound (ω := ω) hsound
    exact ⟨t, (t, changes), hstart, Backend.start_logged hstart changes, changes, rfl, hled,
      versions, ht⟩
  finish := by
    rintro t _ ⟨changes, rfl, hled, versions, ht⟩
    obtain ⟨db, hfinish, hitems, hsound⟩ := ht.finish
    -- a commit only writes settings
    have hrows : ∀ kind, db.rows kind = t.contents.rows kind := fun kind => by
      rw [Database.rows, Database.rows, hitems]
    exact ⟨db, (db, changes), _, hfinish, Backend.finish_logged hfinish changes, changes, rfl,
      ⟨fun kind => (hrows kind).trans (hled.rows kind), hled.etags⟩, versions, hsound⟩
  read := by
    rintro key t _ ⟨changes, rfl, ht⟩
    simp only [Backend.logged, backend, within]
    obtain ⟨r, hread⟩ | ⟨e, hread⟩ := read_leaves format key t
    · rw [hread]
      exact .ok (fun r _ => r.fits_any) ⟨changes, rfl, ht⟩
    · rw [hread]
      exact .error ⟨changes, rfl, ht⟩
  write := by
    rintro key content metadata - t _ ⟨changes, rfl, hled, versions, ht⟩
    obtain ⟨items, hitems⟩ := ht.items
    have hwrite := write_of_items hitems format localId key content metadata
    have hled' := hled.written hitems key content metadata ht.nextEtag.lastEtag
    rw [hwrite, Backend.write_logged hwrite]
    refine .ok trivial ⟨_, rfl, hled', versions, ?_⟩
    rw [etagsOf_append, List.length_append]
    exact ht.nextEtag.setRows _ _
  erase := by
    rintro key t _ ⟨changes, rfl, hled, versions, ht⟩
    obtain ⟨items, hitems⟩ := ht.items
    have herase := erase_of_items hitems format localId key
    rw [herase, Backend.erase_logged herase]
    refine .ok trivial ⟨_, rfl, hled.erased hitems key, versions, ?_⟩
    rw [etagsOf_append, List.length_append]
    exact ht.setRows _ _
  nextVersion := by
    rintro t _ ⟨changes, rfl, hled, versions, ht⟩
    exact .ok trivial ⟨changes, rfl, hled, versions + 1, ht.nextVersion⟩
  enqueue := by
    rintro action t _ ⟨changes, rfl, hled, versions, ht⟩
    exact ⟨changes, rfl, hled, versions, ht.enqueue action⟩

/-- A store in a database counts its versions, for all stores in it. -/
theorem backend_counts (format : PayloadFormat α) (localId : String) :
    Backend.Counts (backend format localId : Backend Database (Transaction ω) α ω)
      (fun versions db => ∃ etags, Sound localId etags versions db)
      (fun versions t => ∃ etags, Working localId etags versions t) where
  start := by
    rintro versions db ⟨etags, hsound⟩
    obtain ⟨t, hstart, -, ht⟩ := start_of_sound hsound
    exact ⟨t, hstart, etags, ht⟩
  finish := by
    rintro versions t ⟨etags, ht⟩
    obtain ⟨db, hfinish, -, hsound⟩ := ht.finish
    exact ⟨db, _, hfinish, etags, hsound⟩
  read := by
    rintro versions key t ht
    show ∃ etags, Working localId etags versions ((Database.read format key).answer t).2
    obtain ⟨r, hread⟩ | ⟨e, hread⟩ := read_leaves format key t
    · rwa [answer_of_ok hread]
    · rwa [answer_of_error hread]
  write := by
    rintro versions key content metadata t ⟨etags, ht⟩
    obtain ⟨items, hitems⟩ := ht.items
    rw [answer_of_ok (write_of_items hitems format localId key content metadata)]
    exact ⟨etags + 1, ht.nextEtag.setRows _ _⟩
  erase := by
    rintro versions key t ⟨etags, ht⟩
    obtain ⟨items, hitems⟩ := ht.items
    rw [answer_of_ok (erase_of_items hitems format localId key)]
    exact ⟨etags, ht.setRows _ _⟩
  nextVersion := by
    rintro versions t ⟨etags, ht⟩
    have hversion : t.lastVersion + 1 = .ofNat (versions + 1) := ht.nextVersion.lastVersion
    rw [← hversion]
    exact ⟨_, rfl, etags, ht.nextVersion⟩
  enqueue := by
    rintro versions action t ⟨etags, ht⟩
    exact ⟨etags, ht.enqueue action⟩

/-- What a transaction on a store wrote and removed, if it was committed. -/
def committed (format : PayloadFormat α) (localId : String) (turn : Turn α ω) (s : Database × ω) :
    List (Change α) :=
  (turn.run (backend format localId).logged ((s.1, []), s.2)).2.1.2

/-- One transaction on a store, committed or not: the database stays sound, the etags of what was
written and the versions that were answered are the next ones, and no rows but those of the kind
have changed. -/
theorem sound_turn {db : Database} (h : Sound localId etags versions db) (format : PayloadFormat α)
    (turn : Turn α ω) (w : ω) :
    ∃ k, Led format etags db (committed format localId turn (db, w))
        (turn.run (backend format localId) (db, w)).2.1 ∧
      (turn.run (backend format localId) (db, w)).1.identities localId =
        (numbersAfter versions k).map (WriteId.mk localId) ∧
      Sound localId (etags + (etagsOf (committed format localId turn (db, w))).length)
        (versions + k) (turn.run (backend format localId) (db, w)).2.1 := by
  have halike := logged_alike (ω := ω) format localId etags db
  have huses : ∀ t ∈ [turn], t.Uses fun _ => True := fun t _ => t.uses_any
  have hbefore : ∃ changes, (db, ([] : List (Change α))) = (db, changes) ∧
      Led format etags db changes db ∧
      ∃ versions, Sound localId (etags + (etagsOf changes).length) versions db :=
    ⟨[], rfl, ⟨rowsChanged_nil db, rfl⟩, versions, h⟩
  -- the listing store tells the rows and the etags, the counting one the versions
  obtain ⟨-, ⟨changes, hchanges, hled, versions', hsound⟩, -⟩ := halike.runAll_eq huses hbefore w
  have hcommitted : committed format localId turn (db, w) = changes := congrArg Prod.snd hchanges
  have hcount : ∃ etags, Sound localId etags versions db := ⟨etags, h⟩
  obtain ⟨k, hids, etags', hcounted⟩ := (backend_counts format localId).run_turn turn hcount w
  rw [hcommitted]
  exact ⟨k, hled, hids, hsound.settings, hsound.items, hsound.lastEtag, hcounted.lastVersion⟩

end Database

end ReplicaIntake
