import ReplicaIntake.Format.Quoted
import ReplicaIntake.Store.Overlay
import ReplicaIntake.Disk

/-!
# Nodes

A node is a store of one kind in some place: in memory, in a database of its own that lives as long
as it is open, or in a database file that several nodes may share. What can be done with a store is
the same for each (`Node.run`).

A file may keep its journal ahead of the database, which is a property of the file; the other two ways
are up to each node. A node learns of the property when it next uses the file, and from then on takes
part in the journal until it is closed. While some node takes part, the file cannot go back to another
way. A file whose name leaves no room for that of a journal beside it can only be written by nodes that
have their journal in memory.
-/

namespace ReplicaIntake

/-! ## §1 Nodes -/

/-- Where the records of a node are, for payloads `α`. -/
inductive Place (α : Type) where
  | memory (contents : Memory α)
  /-- In a database of its own. -/
  | scratch (database : Database)
  /-- In the database file of a name, which a path led to when the node was opened. -/
  | file (path name : String)

/-- A store that is open. -/
structure Node where
  kind : ItemKind
  /-- Its name, as it was when it was opened. -/
  localId : String
  /-- The name for it if its database has none. -/
  preferredId : String
  /-- How it was asked to keep its journal. -/
  journal : Journal
  /-- It takes part in the journal that its file keeps ahead of the database. -/
  isAhead : Bool := false
  /-- Where its records are. -/
  place : Place kind.Payload

namespace Node

/-- A node in memory. -/
def inMemory (kind : ItemKind) (localId : String) : Node :=
  { kind, localId, preferredId := localId, journal := .memory, place := .memory {} }

/-- A node in a database of its own. -/
def inScratch (kind : ItemKind) (preferredId : String) (journal : Journal) : Node :=
  let (database, localId) := Database.open {} preferredId
  { kind, localId, preferredId, journal, place := .scratch database }

/-- Whether a node that keeps its journal in such a way can write the database at a path. -/
def canWrite (journal : Journal) (path : String) : Bool :=
  journal = .memory || hasJournalRoom path

/-- Opens a node in the database file at a path, which is made if it is not there. A file that keeps its
journal ahead of the database can be opened in another way, which ends that, unless some node takes
part in it. -/
def inFile (disk : Disk) (kind : ItemKind) (preferredId : String) (journal : Journal)
    (path : String) : Except StoreError (Node × Disk) :=
  match disk.locate? path with
  | none => .error .database
  | some name =>
    let file := (disk.find? name).getD {}
    let isAhead : Bool := journal = .writeAhead
    let isUnchanged := isAhead = file.writeAhead && file.database.isComplete
    if file.writeAhead && file.participants ≠ 0 && !isAhead then .error .database
    else if !isUnchanged && !canWrite journal path then .error .database
    else
      let (database, localId) := file.database.open preferredId
      .ok ({ kind, localId, preferredId, journal, isAhead, place := .file path name },
        disk.insert name ⟨database, isAhead, file.participants + isAhead.toNat⟩)

/-- Closes a node. -/
def close (n : Node) (disk : Disk) : Disk :=
  match n.place with
  | .file _ name =>
    match disk.find? name with
    | some file => disk.insert name { file with participants := file.participants - n.isAhead.toNat }
    | none => disk
  | _ => disk

/-- Closes a node and opens it again with other options. Only a file keeps what was in it. -/
def reopen (n : Node) (disk : Disk) (preferredId : String) (journal : Journal) :
    Except StoreError (Node × Disk) :=
  match n.place with
  | .memory _ => .ok (inMemory n.kind preferredId, disk)
  | .scratch _ => .ok (inScratch n.kind preferredId journal, disk)
  | .file path _ => inFile (n.close disk) n.kind preferredId journal path

/-! ## §2 Using a node -/

/-- Lets a node take part in the journal of its file, if that is kept ahead of the database. -/
def join (n : Node) (file : DatabaseFile) : Node × DatabaseFile :=
  if file.writeAhead && !n.isAhead then
    ({ n with isAhead := true }, { file with participants := file.participants + 1 })
  else (n, file)

/-- Uses the store of a node. -/
def run {ω β : Type} (n : Node) (disk : Disk) (w : ω)
    (use : {σ τ : Type} → Backend σ τ n.kind.Payload ω → σ × ω → β × (σ × ω)) :
    β × Node × Disk × ω :=
  match n.place with
  | .memory contents =>
    let (b, contents, w) := use (Memory.overlayBackend n.kind n.localId) (contents, w)
    (b, { n with place := .memory contents }, disk, w)
  | .scratch database =>
    let (b, database, w) := use (Database.backend (.ofKind n.kind) n.localId) (database, w)
    (b, { n with place := .scratch database }, disk, w)
  | .file path name =>
    let file := (disk.find? name).getD {}
    let backend : Backend Database (Database.Transaction ω) n.kind.Payload ω :=
      if canWrite n.journal path then Database.backend (.ofKind n.kind) n.localId
      else Database.readOnlyBackend (.ofKind n.kind) n.localId
    let (b, database, w) := use backend (file.database, w)
    let (n, file) := n.join file
    (b, n, disk.insert name { file with database }, w)

/-- Changes the database file of a node behind its back, with a journal in a file. -/
def damage {β : Type} (n : Node) (disk : Disk)
    (change : Database → Except StoreError (Database × β)) : Except StoreError (β × Disk) :=
  match n.place with
  | .file path _ =>
    match disk.locate? path with
    | some name =>
      let file := (disk.find? name).getD {}
      if canWrite .deleted path then
        (change file.database).map fun (database, b) =>
          (b, disk.insert name { file with database })
      else .error .database
    | none => .error .database
  | _ => .error .database

/-- How the journal is kept as far as the node knows, for a node in a database. A database of its own
has it in memory. -/
def journalName? (n : Node) : Option String :=
  match n.place with
  | .memory _ => none
  | .scratch _ => some Journal.memory.name
  | .file _ _ => some (if n.isAhead then Journal.writeAhead.name else n.journal.name)

/-- How many records a node in memory holds. -/
def size? (n : Node) : Option Nat :=
  match n.place with
  | .memory contents => some contents.records.size
  | _ => none

/-! ## §3 Nodes in words -/

/-- A node in words. -/
def describe (n : Node) : String :=
  let front := " \x7b local_id: " ++ Quoted.text n.localId ++ ", kind: " ++ n.kind.title
  match n.size? with
  | some size => "MemoryStore" ++ front ++ ", records: Some(" ++ Decimal.ofNat size ++ ") \x7d"
  | none => "SqliteStore" ++ front ++ ", .. \x7d"

end Node

end ReplicaIntake
