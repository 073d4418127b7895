import ReplicaIntake.Wire
import ReplicaIntake.Store.Backend
import ReplicaIntake.Store.Format

/-!
# Stores in a database

A database has two tables. The settings hold the local id, the last etag and the last version as
text; they are shared by the stores of all kinds in the database. The items hold one row for each
kind and key, with a number that tells data, markers and tombstones apart, the stored form of the
payload, the JSON text of the metadata, and the etag.

A transaction reads both counts when it is opened and writes them back when it is committed. What
is stored is read with care: a table may be gone, and a row may hold anything.
-/

namespace ReplicaIntake

/-! ## §1 Tables -/

/-- The metadata column of a row. -/
inductive MetadataCell where
  /-- A text, as it should be. -/
  | text (bytes : Bytes)
  /-- Bytes that are no text. -/
  | blob
  deriving DecidableEq

/-- A row of the items. -/
structure Row where
  /-- Which of data, marker and tombstone the row holds. -/
  state : Int
  /-- The stored payload or marker. -/
  data : Option Bytes
  metadata : MetadataCell
  etag : Etag
  deriving DecidableEq

/-- The settings of a database. -/
structure Settings where
  /-- The values under their names. -/
  values : KeyMap String := .empty
  /-- Writing the last version fails. -/
  refusesVersion : Bool := false
  deriving DecidableEq

/-- A database, each table missing or there. -/
structure Database where
  settings : Option Settings := none
  /-- The rows of each kind, under their keys. -/
  items : Option (ItemKind → KeyMap Row) := none

namespace Database

/-- The setting that names the store. -/
def localIdName : String := "local_id"

/-- The setting that counts etags. -/
def lastEtagName : String := "last_etag"

/-- The setting that counts local versions. -/
def lastVersionName : String := "last_version"

/-! ## §2 Opening -/

/-- The settings with the given local id, unless they have one. -/
def Settings.named (s : Settings) (preferred : String) : Settings × String :=
  match s.values.find? localIdName with
  | some localId => (s, localId)
  | none => ({ s with values := s.values.insert localIdName preferred }, preferred)

/-- Creates the tables that are missing, and answers the local id: the recorded one, or else the
preferred one, which is recorded.

Looking for the id and recording it are one step here. Two connections that open a fresh file at the
same time, and both look before either records, are not modelled: the second would replace the id
that the first has answered. -/
def «open» (db : Database) (preferred : String) : Database × String :=
  let (settings, localId) := Settings.named (db.settings.getD {}) preferred
  ({ settings := some settings, items := some (db.items.getD fun _ => .empty) }, localId)

/-- Whether opening the database changes nothing in it. -/
def isComplete (db : Database) : Bool :=
  db.items.isSome && db.settings.any fun s => s.values.contains localIdName

theorem open_of_isComplete {db : Database} (h : db.isComplete) (preferred : String) :
    (db.open preferred).1 = db := by
  obtain ⟨_ | settings, _ | items⟩ := db
  all_goals simp [isComplete, KeyMap.contains] at h
  obtain ⟨localId, found⟩ := Option.isSome_iff_exists.1 h
  simp [«open», Settings.named, found]

/-! ## §3 Counts -/

/-- The count of the given name, zero when it is not recorded. -/
def count (db : Database) (name : String) (wrap : Decimal.Fault → DecodeError) :
    Except StoreError UInt64 :=
  match db.settings with
  | none => .error .database
  | some settings =>
    match settings.values.find? name with
    | none => .ok 0
    | some text =>
      match Decimal.word text with
      | .ok n => .ok n
      | .error fault => .error (.decode (wrap fault))

/-- Records a setting. -/
def set (db : Database) (name value : String) : Except StoreError Database :=
  match db.settings with
  | none => .error .database
  | some settings =>
    if settings.refusesVersion && name == lastVersionName then .error .database
    else .ok { db with settings := some { settings with values := settings.values.insert name value } }

/-! ## §4 Rows -/

/-- The row that stores a content. -/
def rowOf {α : Type} (format : PayloadFormat α) (content : Content α) (metadata : Metadata)
    (etag : Etag) : Row :=
  let text := metadata.toJson.write
  match content with
  | .data a => ⟨0, some (format.encode a), .text text, etag⟩
  | .marker m => ⟨1, some m.toJson.write, .text text, etag⟩
  | .tombstone => ⟨2, none, .text text, etag⟩

/-- The content that a row of the given state stores. A missing payload is read as no bytes. -/
def contentOf {α : Type} (format : PayloadFormat α) (key : String) (state : Int) (data : Bytes) :
    Except DecodeError (Content α) :=
  if state = 0 then (format.decode data).map .data
  else if state = 1 then
    match (Json.ofBytes? data).bind Marker.ofJson? with
    | some m => .ok (.marker m)
    | none => .error .marker
  else if state = 2 then .ok .tombstone
  else .error (.state state key)

/-- The record that a row stores. -/
def recordOf {α : Type} (format : PayloadFormat α) (key : String) (row : Row) :
    Except StoreError (Record α) :=
  match row.metadata with
  | .blob => .error .database
  | .text text =>
    match (Json.ofBytes? text).bind Metadata.ofJson? with
    | none => .error (.decode .metadata)
    | some metadata =>
      match contentOf format key row.state (row.data.getD []) with
      | .ok content => .ok ⟨content, row.etag, metadata⟩
      | .error e => .error (.decode e)

/-- The rows of one kind, if the table is there. -/
def rows (db : Database) (kind : ItemKind) : Except StoreError (KeyMap Row) :=
  match db.items with
  | none => .error .database
  | some items => .ok (items kind)

/-- Replaces the rows of one kind. -/
def setRows (db : Database) (kind : ItemKind) (rows : KeyMap Row) : Database :=
  { db with items := db.items.map fun items k => if k = kind then rows else items k }

/-! ## §5 Transactions -/

/-- An open transaction: the database as it would be committed but for the counts, the counts, and
what waits for the commit. -/
structure Transaction (ω : Type) where
  /-- The database with the changes so far. -/
  contents : Database
  /-- The etag of the latest write. -/
  lastEtag : Etag
  /-- The version of the latest write made on this node. -/
  lastVersion : UInt64
  pending : PostCommit ω := {}

variable {α ω : Type}

/-- Opens a transaction. -/
def start (db : Database) : Except StoreError (Transaction ω) := do
  let etag ← db.count lastEtagName .lastEtag
  let version ← db.count lastVersionName .lastVersion
  pure { contents := db, lastEtag := ⟨etag⟩, lastVersion := version }

/-- Writes the counts back. -/
def finish (t : Transaction ω) : Except StoreError (Database × PostCommit ω) := do
  let db ← t.contents.set lastEtagName (Decimal.ofNat t.lastEtag.value.toNat)
  let db ← db.set lastVersionName (Decimal.ofNat t.lastVersion.toNat)
  pure (db, t.pending)

/-- Answers from the rows of one kind. -/
def withRows {β : Type} (kind : ItemKind) (answer : KeyMap Row → Except StoreError β) :
    Op (Transaction ω) StoreError β := fun t =>
  match (t.contents.rows kind).bind answer with
  | .ok b => .ok b t
  | .error e => .error e t

/-- Replaces the rows of one kind by a function of them. -/
def changeRows (kind : ItemKind) (change : KeyMap Row → KeyMap Row) :
    Op (Transaction ω) StoreError Unit := fun t =>
  match t.contents.rows kind with
  | .ok rows => .ok () { t with contents := t.contents.setRows kind (change rows) }
  | .error e => .error e t

/-- The record under a key. -/
def read (format : PayloadFormat α) (key : String) :
    Op (Transaction ω) StoreError (Option (Record α)) :=
  withRows format.kind fun rows =>
    match rows.find? key with
    | none => .ok none
    | some row => (recordOf format key row).map some

/-- Stores a record with the next etag, which is used up even if there is no table. -/
def write (format : PayloadFormat α) (key : String) (content : Content α) (metadata : Metadata) :
    Op (Transaction ω) StoreError Etag := do
  modify fun t => { t with lastEtag := t.lastEtag.next }
  let etag := (← get).lastEtag
  changeRows format.kind fun rows => rows.insert key (rowOf format content metadata etag)
  pure etag

/-- The backend of one kind of store in a database. -/
def backend (format : PayloadFormat α) (localId : String) :
    Backend Database (Transaction ω) α ω where
  kind := format.kind
  localId := localId
  start := start
  finish := finish
  read := read format
  write := write format
  erase key := changeRows format.kind fun rows => rows.erase key
  nextVersion := fun t =>
    let version := t.lastVersion + 1
    .ok version { t with lastVersion := version }
  enqueue action t := { t with pending := t.pending.push action }
  keys db := (db.rows format.kind).map KeyMap.keys

/-- The backend over a database that cannot be written, because its journal cannot be. What would
change nothing still succeeds, which most transactions that only read do: they find the counts that
they write back. -/
def readOnlyBackend (format : PayloadFormat α) (localId : String) :
    Backend Database (Transaction ω) α ω :=
  { backend format localId with
    finish := fun t => do
      let (db, queue) ← finish t
      if db.settings = t.contents.settings then pure (db, queue) else throw .database
    write := fun _ _ _ => do
      modify fun t => { t with lastEtag := t.lastEtag.next }
      throw .database
    erase := fun _ => throw .database }

/-! ## §6 Damage

Changes made behind the back of the stores, to see how they bear it. -/

/-- Changes the row under a key, and answers how many rows there were to change. -/
def damageRow (db : Database) (kind : ItemKind) (key : String) (change : Row → Row) :
    Except StoreError (Database × Nat) := do
  let rows ← db.rows kind
  match rows.find? key with
  | none => pure (db, 0)
  | some row => pure (db.setRows kind (rows.insert key (change row)), 1)

/-- Drops the items. -/
def dropItems (db : Database) : Database := { db with items := none }

/-- Drops the settings. -/
def dropSettings (db : Database) : Database := { db with settings := none }

/-- Lets every commit fail, or work again. -/
def refuseVersion (db : Database) (refuses : Bool) : Database :=
  { db with settings := db.settings.map fun s => { s with refusesVersion := refuses } }

end Database

end ReplicaIntake
