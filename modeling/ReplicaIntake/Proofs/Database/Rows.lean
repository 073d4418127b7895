import ReplicaIntake.Proofs.Documents
import ReplicaIntake.Proofs.Format.Binaries
import ReplicaIntake.Proofs.Lockstep
import ReplicaIntake.Proofs.WireForms
import ReplicaIntake.Store.Database

/-!
# Records in rows

A payload that can be stored is read back from its stored form (`PayloadFormat.recovers_ofKind`),
and metadata and markers always are. So a row gives back the record that it was made of
(`recordOf_rowOfRecord`), and a table of such rows behaves as the map of the records does: looking
up, inserting and removing go through (`Tabulates`).
-/

namespace ReplicaIntake

/-! ## §1 Stored payloads -/

/-- The payload can be stored and read again. For documents that is a matter of their numbers and of
how deeply they are nested, for counters and files of sizes that no machine exceeds. -/
def ItemKind.Storable : (k : ItemKind) → k.Payload → Prop
  | .document => Document.Storable
  | .counter => Counter.Storable
  | .file => fun content : Bytes => content.length < UInt64.size

namespace PayloadFormat

variable {α : Type}

/-- Payloads in use are read back from their stored form. -/
def Recovers (format : PayloadFormat α) (P : α → Prop) : Prop :=
  ∀ a, P a → format.decode (format.encode a) = .ok a

theorem kind_ofKind (k : ItemKind) : (ofKind k).kind = k := by
  cases k <;> rfl

theorem recovers_document : document.Recovers Document.Storable := by
  intro d hd
  simp only [document, Document.decode?_encode hd]

theorem recovers_counter : counter.Recovers Counter.Storable := by
  intro c hc
  have hread := Counter.decode_encode_append hc []
  rw [List.append_nil] at hread
  simp only [counter, hread, Except.mapError]

theorem recovers_file : file.Recovers fun content => content.length < UInt64.size := by
  intro content hlength
  have hread := Binary.readBytes_writeBytes hlength []
  rw [List.append_nil] at hread
  simp only [file, hread]

/-- Every kind recovers the payloads that can be stored. -/
theorem recovers_ofKind : (k : ItemKind) → (ofKind k).Recovers k.Storable
  | .document => recovers_document
  | .counter => recovers_counter
  | .file => recovers_file

end PayloadFormat

/-! ## §2 Maps of records -/

namespace KeyMap

variable {α β : Type}

/-- The map with a function of each value. -/
def mapValues (f : α → β) (m : KeyMap α) : KeyMap β where
  entries := m.entries.map fun e => (e.1, f e.2)
  ascending := List.pairwise_map.2 m.ascending

@[simp] theorem keys_mapValues (f : α → β) (m : KeyMap α) : (m.mapValues f).keys = m.keys := by
  simp [keys, mapValues]

@[simp] theorem find?_mapValues (f : α → β) (m : KeyMap α) (k : String) :
    (m.mapValues f).find? k = (m.find? k).map f := by
  obtain ⟨entries, hascending⟩ := m
  show (entries.map fun e => (e.1, f e.2)).lookup k = (entries.lookup k).map f
  clear hascending
  induction entries with
  | nil => rfl
  | cons e rest ih =>
    rw [List.map_cons, lookup_cons_ite, lookup_cons_ite, ih]
    split <;> rfl

theorem mapValues_insert (f : α → β) (m : KeyMap α) (k : String) (v : α) :
    (m.insert k v).mapValues f = (m.mapValues f).insert k (f v) := by
  refine ext_find? fun q => ?_
  rw [find?_mapValues, find?_insert, find?_insert, find?_mapValues]
  split <;> rfl

theorem mapValues_erase (f : α → β) (m : KeyMap α) (k : String) :
    (m.erase k).mapValues f = (m.mapValues f).erase k := by
  refine ext_find? fun q => ?_
  rw [find?_mapValues, find?_erase, find?_erase, find?_mapValues]
  split <;> rfl

end KeyMap

namespace Database

open Op

variable {α : Type} {format : PayloadFormat α} {P : α → Prop}

/-! ## §3 Rows -/

/-- The row of a record. -/
def rowOfRecord (format : PayloadFormat α) (r : Record α) : Row :=
  rowOf format r.content r.metadata r.etag

/-- A row gives back the record that it was made of. -/
theorem recordOf_rowOfRecord (hformat : format.Recovers P) (key : String) {r : Record α}
    (hr : r.Fits P) : recordOf format key (rowOfRecord format r) = .ok r := by
  obtain ⟨content, etag, metadata⟩ := r
  have hmetadata := Metadata.ofBytes?_write metadata
  cases content with
  | data a =>
    -- only here does it matter which payloads are in use
    have hpayload : format.decode (format.encode a) = .ok a := hformat a hr
    simp [rowOfRecord, rowOf, recordOf, contentOf, hmetadata, hpayload, Except.map]
  | marker m =>
    simp [rowOfRecord, rowOf, recordOf, contentOf, hmetadata, Marker.ofBytes?_write m]
  | tombstone => simp [rowOfRecord, rowOf, recordOf, contentOf, hmetadata]

section Operations

variable {ω : Type} {t : Transaction ω} {rows : KeyMap Row}

/-- Rows that are there can be replaced by a function of them. -/
theorem changeRows_of_rows {kind : ItemKind} (h : t.contents.rows kind = .ok rows)
    (change : KeyMap Row → KeyMap Row) :
    changeRows kind change t =
      .ok () { t with contents := t.contents.setRows kind (change rows) } := by
  rw [changeRows, h]

/-- The etag is counted up before the row is written. -/
theorem write_of_rows (h : t.contents.rows format.kind = .ok rows) (key : String)
    (content : Content α) (metadata : Metadata) :
    Database.write format key content metadata t = .ok t.lastEtag.next { t with
      contents := t.contents.setRows format.kind
        (rows.insert key (rowOfRecord format ⟨content, t.lastEtag.next, metadata⟩))
      lastEtag := t.lastEtag.next } := by
  let counted : Transaction ω := { t with lastEtag := t.lastEtag.next }
  rw [Database.write, bind_of_ok (x := modify _) rfl, bind_of_ok (x := get) rfl,
    bind_of_ok (changeRows_of_rows (t := counted) h _)]
  rfl

end Operations

/-- The rows of the database are those of the records, whose payloads are in use, and its settings
can be written. -/
structure Tabulates (format : PayloadFormat α) (P : α → Prop) (db : Database)
    (records : KeyMap (Record α)) : Prop where
  settings : ∃ settings, db.settings = some settings ∧ settings.refusesVersion = false
  rows : db.rows format.kind = .ok (records.mapValues (rowOfRecord format))
  fits : ∀ key r, records.find? key = some r → r.Fits P

namespace Tabulates

variable {db : Database} {records : KeyMap (Record α)}

theorem rows_setRows (h : Tabulates format P db records) (rows : KeyMap Row) :
    (db.setRows format.kind rows).rows format.kind = .ok rows := by
  -- rows are there, so the table is
  have hrows := h.rows
  unfold Database.rows at hrows
  unfold setRows Database.rows
  cases hitems : db.items with
  | none => rw [hitems] at hrows; cases hrows
  | some items => simp

theorem insert (h : Tabulates format P db records) (key : String) {r : Record α} (hr : r.Fits P) :
    Tabulates format P
      (db.setRows format.kind
        ((records.mapValues (rowOfRecord format)).insert key (rowOfRecord format r)))
      (records.insert key r) where
  settings := h.settings
  rows := by rw [h.rows_setRows, KeyMap.mapValues_insert]
  fits q r' hfound := by
    rw [KeyMap.find?_insert] at hfound
    split at hfound
    · exact Option.some.inj hfound ▸ hr
    · exact h.fits q r' hfound

theorem erase (h : Tabulates format P db records) (key : String) :
    Tabulates format P
      (db.setRows format.kind ((records.mapValues (rowOfRecord format)).erase key))
      (records.erase key) where
  settings := h.settings
  rows := by rw [h.rows_setRows, KeyMap.mapValues_erase]
  fits q r hfound := by
    rw [KeyMap.find?_erase] at hfound
    split at hfound
    · cases hfound
    · exact h.fits q r hfound

/-- A count can be recorded. It is read back then, while the other counts and the rows are as
before. -/
theorem set (h : Tabulates format P db records) (name : String) (n : UInt64) :
    ∃ db', db.set name (Decimal.ofNat n.toNat) = .ok db' ∧ Tabulates format P db' records ∧
      (∀ wrap, db'.count name wrap = .ok n) ∧
      ∀ other, other ≠ name → ∀ wrap, db'.count other wrap = db.count other wrap := by
  obtain ⟨settings, hsettings, hwritable⟩ := h.settings
  refine ⟨{ db with settings := some { settings with
    values := settings.values.insert name (Decimal.ofNat n.toNat) } }, ?_, ?_, ?_, ?_⟩
  · simp [Database.set, hsettings, hwritable]
  · exact ⟨⟨_, rfl, hwritable⟩, h.rows, h.fits⟩
  · intro wrap
    simp [count, Decimal.word_toNat]
  · intro other hother wrap
    simp [count, hsettings, KeyMap.find?_insert_of_ne _ _ hother]

end Tabulates

end Database

end ReplicaIntake
