import ReplicaIntake.Proofs.Database.SharedFiles
import ReplicaIntake.Proofs.Database.StoredRecords
import ReplicaIntake.Proofs.LocalHistories
import ReplicaIntake.Proofs.Memory.Overlays

/-!
# Own writes on fresh stores

A fresh store, in memory or in a database, that only takes writes of its own node keeps the metadata
of the latest write of every key (`Memory.overlay_remembers`, `Database.backend_remembers`). In a
database the payload of a record may be one that cannot be read again, but then reading fails and
says so.

So whatever is put and deleted on such a store, the lineages of the writes of a key slide along them
(`own_lineages_slide`).
-/

namespace ReplicaIntake

open Op

variable {α ω : Type}

/-! ## §1 Finding records -/

namespace Held

variable {h : Held}

/-- Once something else is stored under a key, it is what is found there. -/
theorem finds_set {key q : String} {found new : Option (Record α)} (hfound : h.Finds q found)
    (hnew : new.bind (·.marker?) = none) :
    (h.set key (new.map (·.metadata))).Finds q (if q = key then new else found) := by
  by_cases hq : q = key
  · subst hq
    simpa [Finds, set] using hnew
  · simpa [Finds, set, hq] using hfound

end Held

theorem marker?_ofPayload (payload : Option α) (etag : Etag) (metadata : Metadata) :
    (⟨.ofPayload payload, etag, metadata⟩ : Record α).marker? = none := by
  cases payload <;> rfl

/-! ## §2 Stores in memory -/

namespace Memory

/-- The records under all keys are as they are held, and the count is. -/
structure HoldsRecords (h : Held) (read : String → Option (Record α)) (lastVersion : UInt64) :
    Prop where
  finds : ∀ key, h.Finds key (read key)
  lastVersion : lastVersion = .ofNat h.versions

theorem overlay_remembers (kind : ItemKind) (localId : String) :
    Backend.Remembers (overlayBackend kind localId : Backend (Memory α) (Staging α ω) α ω)
      (fun h m => HoldsRecords h m.records.find? m.lastVersion)
      (fun h t => HoldsRecords h t.read t.lastVersion) where
  start h m hm := ⟨_, rfl, hm⟩
  finish h t ht := ⟨_, _, rfl, fun key => t.find?_commit key ▸ ht.finds key, ht.lastVersion⟩
  read h key t ht := .inr ⟨_, rfl, ht.finds key⟩
  write h key payload metadata t ht := by
    refine ⟨_, _, rfl, fun q => ?_, ht.lastVersion⟩
    rw [Staging.read_write]
    exact Held.finds_set (ht.finds q) (marker?_ofPayload payload _ metadata)
  erase h key t ht := by
    refine ⟨_, rfl, fun q => ?_, ht.lastVersion⟩
    rw [Staging.read_erase]
    exact Held.finds_set (ht.finds q) rfl
  nextVersion h t ht := by
    have hcount : t.lastVersion + 1 = .ofNat (h.versions + 1) := by
      rw [ht.lastVersion, UInt64.ofNat_add]
      rfl
    refine ⟨{ t with lastVersion := t.lastVersion + 1 }, congrArg (EStateM.Result.ok · _) hcount,
      ⟨ht.finds, hcount⟩, ?_⟩
    rintro key found hread
    cases hread
    rfl

end Memory

/-! ## §3 Stores in a database -/

namespace Database

variable {format : PayloadFormat α} {h : Held}

/-- The rows are those of records as they are held. -/
def HoldsRows (format : PayloadFormat α) (h : Held) (db : Database) : Prop :=
  ∀ key, ∃ found : Option (Record α), h.Finds key found ∧
    db.row? format.kind key = found.map (rowOfRecord format)

/-- Metadata can always be read from its row. The payload may be unreadable, or turn out to be
another one. -/
theorem recordOf_of_unconflicted (format : PayloadFormat α) (key : String) {r : Record α}
    (hfree : r.marker? = none) :
    (∃ e, recordOf format key (rowOfRecord format r) = .error e) ∨
      ∃ r', recordOf format key (rowOfRecord format r) = .ok r' ∧ r'.metadata = r.metadata ∧
        r'.marker? = none := by
  obtain ⟨content, etag, metadata⟩ := r
  have hmetadata := Metadata.ofBytes?_write metadata
  cases content with
  | data a =>
    cases hpayload : format.decode (format.encode a) with
    | error e =>
      refine .inl ⟨.decode e, ?_⟩
      simp [rowOfRecord, rowOf, recordOf, contentOf, hmetadata, hpayload, Except.map]
    | ok a' =>
      refine .inr ⟨⟨.data a', etag, metadata⟩, ?_, rfl, rfl⟩
      simp [rowOfRecord, rowOf, recordOf, contentOf, hmetadata, hpayload, Except.map]
  | marker m => cases hfree
  | tombstone =>
    refine .inr ⟨⟨.tombstone, etag, metadata⟩, ?_, rfl, rfl⟩
    simp [rowOfRecord, rowOf, recordOf, contentOf, hmetadata]

/-- A change of a record changes the row under its key. -/
theorem row?_carried {db : Database} {items : ItemKind → KeyMap Row} (hitems : db.items = some items)
    (format : PayloadFormat α) (key : String) (new : Option (Record α)) (q : String) :
    (db.setRows format.kind (carryRow format (items format.kind) (key, new))).row? format.kind q =
      if q = key then new.map (rowOfRecord format) else db.row? format.kind q := by
  cases new with
  | none => simp [row?, setRows, hitems, carryRow, KeyMap.find?_erase]
  | some r => simp [row?, setRows, hitems, carryRow, KeyMap.find?_insert]

theorem HoldsRows.carried {db : Database} {items : ItemKind → KeyMap Row}
    (hrows : HoldsRows format h db) (hitems : db.items = some items) (key : String)
    (new : Option (Record α)) (hnew : new.bind (·.marker?) = none) :
    HoldsRows format (h.set key (new.map (·.metadata)))
      (db.setRows format.kind (carryRow format (items format.kind) (key, new))) := by
  intro q
  obtain ⟨found, hfound, hrow⟩ := hrows q
  refine ⟨if q = key then new else found, Held.finds_set hfound hnew, ?_⟩
  rw [row?_carried hitems, hrow]
  split <;> rfl

/-- Reading finds what is held under the key, unless the payload there cannot be read. -/
theorem HoldsRows.read {t : Transaction ω} {localId : String} {etags versions : Nat}
    (hrows : HoldsRows format h t.contents) (ht : Working localId etags versions t) (key : String) :
    (∃ e, Database.read format key t = .error e t) ∨
      ∃ found, Database.read format key t = .ok found t ∧ h.Finds key found := by
  obtain ⟨items, hitems⟩ := ht.items
  have hrow : t.contents.row? format.kind key = (items format.kind).find? key := by
    rw [row?, hitems]
    rfl
  obtain ⟨_ | r, ⟨hmetadata, hfree⟩, hfound⟩ := hrows key
  · refine .inr ⟨none, ?_, hmetadata, rfl⟩
    rw [hrow] at hfound
    simp [Database.read, withRows, rows_of_items hitems, Except.bind, hfound]
  · obtain ⟨e, herror⟩ | ⟨r', hrecord, hsame, hfree'⟩ := recordOf_of_unconflicted format key hfree
    · refine .inl ⟨e, ?_⟩
      rw [hrow] at hfound
      simp [Database.read, withRows, rows_of_items hitems, Except.bind, hfound, herror, Except.map]
    · refine .inr ⟨some r', read_row hfound hrecord, ?_, hfree'⟩
      rw [← hmetadata, Option.map_some, Option.map_some, hsame]

/-- Reading looks at the rows only. -/
theorem read_versioned {t : Transaction ω} {key : String} {found : Option (Record α)}
    (hread : Database.read format key t = .ok found t) (version : UInt64) :
    Database.read format key { t with lastVersion := version } =
      .ok found { t with lastVersion := version } := by
  unfold Database.read withRows at hread ⊢
  split at hread
  · rename_i found' hfound
    simp only [hfound]
    cases hread
    rfl
  · cases hread

theorem backend_remembers (format : PayloadFormat α) (localId : String) :
    Backend.Remembers (backend format localId : Backend Database (Transaction ω) α ω)
      (fun h db => (∃ etags, Sound localId etags h.versions db) ∧ HoldsRows format h db)
      (fun h t => (∃ etags, Working localId etags h.versions t) ∧
        HoldsRows format h t.contents) where
  start := by
    rintro h db ⟨⟨etags, hsound⟩, hrows⟩
    obtain ⟨t, hstart, rfl, ht⟩ := start_of_sound (ω := ω) hsound
    exact ⟨t, hstart, ⟨etags, ht⟩, hrows⟩
  finish := by
    rintro h t ⟨⟨etags, ht⟩, hrows⟩
    obtain ⟨db, hfinish, hitems, hsound⟩ := ht.finish
    refine ⟨db, _, hfinish, ⟨etags, hsound⟩, fun key => ?_⟩
    rw [row?, hitems]
    exact hrows key
  read := by
    rintro h key t ⟨⟨etags, ht⟩, hrows⟩
    exact hrows.read ht key
  write := by
    rintro h key payload metadata t ⟨⟨etags, ht⟩, hrows⟩
    obtain ⟨items, hitems⟩ := ht.items
    refine ⟨_, _, write_of_items hitems format localId key (.ofPayload payload) metadata,
      ⟨etags + 1, ht.nextEtag.setRows _ _⟩, ?_⟩
    exact hrows.carried hitems key (some ⟨.ofPayload payload, t.lastEtag.next, metadata⟩)
      (marker?_ofPayload payload _ metadata)
  erase := by
    rintro h key t ⟨⟨etags, ht⟩, hrows⟩
    obtain ⟨items, hitems⟩ := ht.items
    exact ⟨_, erase_of_items hitems format localId key, ⟨etags, ht.setRows _ _⟩,
      hrows.carried hitems key none rfl⟩
  nextVersion := by
    rintro h t ⟨⟨etags, ht⟩, hrows⟩
    have hnext := ht.nextVersion
    refine ⟨{ t with lastVersion := t.lastVersion + 1 },
      congrArg (EStateM.Result.ok · _) hnext.lastVersion, ⟨⟨etags, hnext⟩, hrows⟩, ?_⟩
    exact fun key found hread => read_versioned hread _

end Database

/-! ## §4 Local writes on fresh stores -/

/-- A store that nothing has been done with, in memory or in a new database, and its backend. -/
inductive FreshStore (k : ItemKind) (localId : String) :
    {σ τ : Type} → Backend σ τ k.Payload ω → σ → Prop
  | memory : FreshStore k localId (Memory.overlayBackend k localId) {}
  | database :
    FreshStore k localId (Database.backend (.ofKind k) localId) (Database.open {} localId).1

variable {σ τ : Type} {k : ItemKind} {localId : String} {b : Backend σ τ k.Payload ω} {s : σ}

/-- A fresh store remembers, and holds nothing. -/
theorem FreshStore.remembers (h : FreshStore k localId b s) : b.localId = localId ∧
    ∃ S I, b.Remembers S I ∧ S (.after ([] : List (Turn k.Payload ω × Reply k.Payload))) s := by
  cases h with
  | memory => exact ⟨rfl, _, _, Memory.overlay_remembers k localId, fun _ => ⟨rfl, rfl⟩, rfl⟩
  | database =>
    exact ⟨rfl, _, _, Database.backend_remembers (.ofKind k) localId,
      ⟨0, Database.sound_open localId⟩, fun _ => ⟨none, ⟨rfl, rfl⟩, rfl⟩⟩

/-- On a fresh store, let local puts and deletions with lineages of at most `max` entries be made
under any keys, with transactions that fail in between, and fewer than 2^64 writes in all. Then the
writes of each key have growing versions, each lists the last `max` of those before it, and two of
them are related exactly if they are at most `max` apart. The last of them is what is stored, and a
local put or deletion fails only if the record under its key cannot be read. -/
theorem own_lineages_slide (hfresh : FreshStore k localId b s) (max : Nat)
    (turns : List (Turn k.Payload ω)) (w : ω)
    (hrun : IsLocalRun max (Turn.history b turns (s, w))) :
    let after := (Turn.runAll b turns (s, w)).2
    (∀ key, Slides localId max (writesTo key (Turn.history b turns (s, w)))) ∧
    (∀ key found, ((b.get key).answer after).1 = .ok found →
      found.map (·.metadata) = (writesTo key (Turn.history b turns (s, w))).getLast?) ∧
    ∀ turn : Turn k.Payload ω, turn.isLocal max = true → (turn.run b after).1.isFailure = true →
      ∃ key e, turn.localKey? = some key ∧ ((b.get key).answer after).1 = .error e := by
  obtain ⟨rfl, S, I, hb, hs⟩ := hfresh.remembers
  intro after
  obtain ⟨hafter, hchained⟩ := hb.runAll ⟨hs, chained_nil b.localId max⟩ turns w hrun
  refine ⟨fun key => ?_, fun key found hget => ?_, fun turn hlocal hfailed => ?_⟩
  · obtain ⟨ids, hchain, -⟩ := hchained key
    exact hchain.slides
  · exact (hb.finds_of_get hafter after.2 hget).1
  · obtain ⟨key, e, hkey, hget⟩ := hb.unreadable_of_failure hafter after.2 hlocal hfailed
    exact ⟨key, e, hkey, congrArg Prod.fst hget⟩

/-- A file is put three times and deleted, with another file and an abandoned session in between. -/
def fileRewritten : List (Turn (ItemKind.file).Payload Unit) :=
  [.use (.putLocal "k" [1] 2), .use (.putLocal "l" [2] 2),
    .session [.call .nextVersion, .call (.put "k" none (.ofId "n" 3) [3])] false,
    .use (.putLocal "k" [4] 2), .use (.deleteLocal "k" 2), .use (.putLocal "k" [5] 2)]

/-- The last lineage no longer lists the first write. -/
theorem lineages_of_file_slide :
    let history := Turn.history (Database.backend (.ofKind .file) "n") fileRewritten
      ((Database.open {} "n").1, ())
    (writesTo "k" history).map (fun m => (m.version, m.lineage.map WriteId.version)) =
        [(some 1, []), (some 3, [1]), (some 4, [1, 3]), (some 5, [3, 4])] ∧
      IsLocalRun 2 history ∧ Slides "n" 2 (writesTo "k" history) := by
  intro history
  have hwrites : (writesTo "k" history).map (fun m => (m.version, m.lineage.map WriteId.version)) =
      [(some 1, []), (some 3, [1]), (some 4, [1, 3]), (some 5, [3, 4])] := by decide +kernel
  have hfresh : FreshStore .file "n"
      (Database.backend (.ofKind .file) "n" : Backend Database (Database.Transaction Unit) _ Unit)
      (Database.open {} "n").1 := .database
  have hrun : IsLocalRun 2 history := ⟨by decide +kernel, by decide +kernel⟩
  exact ⟨hwrites, hrun, (own_lineages_slide hfresh 2 fileRewritten () hrun).1 "k"⟩

end ReplicaIntake
