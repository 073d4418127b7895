import ReplicaIntake.Proofs.Database.Transactions
import ReplicaIntake.Proofs.Json.WrittenTexts

/-!
# Records that a database keeps

A database keeps metadata, markers and documents as JSON. Metadata and markers are read as what was
written, whatever their texts and numbers are. A document is too, as long as it nests at most
`Document.maxDepth` arrays and objects; a deeper one is written all the same, and then every reader
refuses it (`decode_document`).

A record that was written into a row is read by every transaction that finds the row (`read_row`),
be it the one that wrote it or one that is opened after the commit, on whatever else has been written
since. The result is `stored_json_reads_back`.
-/

namespace ReplicaIntake

/-! ## §1 Texts -/

/-- Metadata is read from its text. -/
theorem Metadata.ofString?_text (m : Metadata) :
    (Json.ofString? m.toJson.text).bind ofJson? = some m := by
  rw [Json.ofString?, Json.utf8_text m.plain_toJson, m.ofBytes?_write]

/-- A plain document is read from its stored form unless it is nested too deeply. -/
theorem PayloadFormat.decode_document {d : Document} (h : d.Plain) :
    document.decode (document.encode d) =
      if d.toJson.depth ≤ Document.maxDepth then .ok d else .error .document := by
  have hread : Document.decode? d.encode =
      if d.toJson.depth ≤ Document.maxDepth then some d else none := by
    rw [Document.decode?, Document.encode, Json.ofBytes?_write h.toJson]
    simp only [h.ofJson?_toJson]
  by_cases hdepth : d.toJson.depth ≤ Document.maxDepth
  · rw [if_pos hdepth] at hread
    simp only [document, hread, if_pos hdepth]
  · rw [if_neg hdepth] at hread
    simp only [document, hread, if_neg hdepth]

namespace Database

variable {α ω : Type} {format : PayloadFormat α} {P : α → Prop}

/-! ## §2 Rows -/

/-- The row of a kind under a key. -/
def row? (db : Database) (kind : ItemKind) (key : String) : Option Row :=
  db.items.bind fun items => (items kind).find? key

/-- The row that is found is the one that is read. -/
theorem read_row {u : Transaction ω} {key : String} {row : Row} {r : Record α}
    (hrow : u.contents.row? format.kind key = some row) (hrecord : recordOf format key row = .ok r) :
    Database.read format key u = .ok (some r) u := by
  obtain ⟨items, hitems, hfound⟩ := Option.bind_eq_some_iff.1 hrow
  unfold Database.read withRows
  rw [rows_of_items hitems]
  simp only [Except.bind, hfound, hrecord, Except.map]

/-- A write leaves the row of its record, with the next etag. -/
theorem row?_written {t : Transaction ω} {items : ItemKind → KeyMap Row}
    (hitems : t.contents.items = some items) (format : PayloadFormat α) (key : String)
    (content : Content α) (metadata : Metadata) :
    ∃ t', Database.write format key content metadata t = .ok t.lastEtag.next t' ∧
      t'.contents.row? format.kind key =
        some (rowOfRecord format ⟨content, t.lastEtag.next, metadata⟩) := by
  refine ⟨_, write_of_items hitems format "" key content metadata, ?_⟩
  simp [row?, setRows, hitems, carryRow]

/-! ## §3 Reading after writing -/

/-- Metadata, markers and documents that are stored as JSON are read back. Metadata and markers are
stored as texts and read from them without exception. Documents whose numbers are 64-bit integers are
read back if they nest at most 127 arrays and objects, and are refused if they nest more. And where
the table of items is there, a record that is written with a payload that can be stored is what every
transaction reads that finds its row. -/
theorem stored_json_reads_back :
    (∀ m : Metadata, utf8 m.toJson.text = m.toJson.write ∧
      (Json.ofString? m.toJson.text).bind Metadata.ofJson? = some m) ∧
    (∀ m : Marker, (Json.ofBytes? m.toJson.write).bind Marker.ofJson? = some m) ∧
    (∀ d : Document, d.Plain → PayloadFormat.document.decode (PayloadFormat.document.encode d) =
      if d.toJson.depth ≤ 127 then .ok d else .error .document) ∧
    ∀ (k : ItemKind) (key : String) (content : Content k.Payload) (metadata : Metadata)
      (t : Transaction ω), t.contents.items.isSome → content.Fits k.Storable →
      ∃ t', write (.ofKind k) key content metadata t = .ok t.lastEtag.next t' ∧
        ∀ u : Transaction ω, u.contents.row? k key = t'.contents.row? k key →
          read (.ofKind k) key u = .ok (some ⟨content, t.lastEtag.next, metadata⟩) u := by
  refine ⟨fun m => ⟨Json.utf8_text m.plain_toJson, m.ofString?_text⟩, Marker.ofBytes?_write,
    fun d hd => PayloadFormat.decode_document hd, fun k key content metadata t htable hcontent => ?_⟩
  obtain ⟨items, hitems⟩ := Option.isSome_iff_exists.1 htable
  obtain ⟨t', hwrite, hrow⟩ := row?_written hitems (.ofKind k) key content metadata
  have hrecord := recordOf_rowOfRecord (PayloadFormat.recovers_ofKind k) key
    (r := ⟨content, t.lastEtag.next, metadata⟩) hcontent
  refine ⟨t', hwrite, fun u hu => read_row ?_ hrecord⟩
  rw [PayloadFormat.kind_ofKind] at hrow ⊢
  rw [hu, hrow]

end Database

/-! ## §4 At the depth limit -/

/-- Lists in one another, `n` of them. -/
def Document.nested : Nat → Document
  | 0 => .null
  | n + 1 => .list [nested n]

theorem Document.plain_nested (n : Nat) : (nested n).Plain := by
  induction n with
  | zero => exact .null
  | succ n ih => exact .list (by simpa using ih)

theorem Document.depth_nested (n : Nat) : (nested n).toJson.depth = n := by
  induction n with
  | zero => rfl
  | succ n ih => simp [nested, toJson, toItems, Json.depth, Json.depthItems, ih]

namespace Database

open Document

/-- A new transaction writes 127 lists in one another and reads them back. One more is refused. -/
theorem nested_lists_read_back :
    let t : Transaction Unit :=
      { contents := (Database.open {} "n").1, lastEtag := ⟨0⟩, lastVersion := 0 }
    (∃ t', write (.ofKind .document) "k" (.data (nested 127)) {} t = .ok ⟨1⟩ t' ∧
      read (.ofKind .document) "k" t' = .ok (some ⟨.data (nested 127), ⟨1⟩, {}⟩) t') ∧
    PayloadFormat.document.decode (PayloadFormat.document.encode (nested 128)) =
      .error .document := by
  intro t
  obtain ⟨-, -, hdocument, hwritten⟩ := stored_json_reads_back (ω := Unit)
  have hstorable : (nested 127).Storable := ⟨plain_nested 127, (depth_nested 127).le⟩
  obtain ⟨t', hwrite, hread⟩ := hwritten .document "k" (.data (nested 127)) {} t rfl hstorable
  have hdeep := hdocument (nested 128) (plain_nested 128)
  rw [depth_nested, if_neg (by decide)] at hdeep
  exact ⟨⟨t', hwrite, hread t' rfl⟩, hdeep⟩

end Database

end ReplicaIntake
