import ReplicaIntake.Store.Database

/-!
# Database files

A disk is one directory and the database files in it. A file is asked for by a path from that
directory, and several paths may lead to one file: a path is followed part by part
(`Directory.enter?`), and the file it leads to is known by one name (`Disk.locate?`), which is the
path itself when that is a plain name (`Disk.locate?_of_not_mem`).

Between the slashes of a path, nothing and a dot stay where they are and two dots go one directory
up. Any other part goes down into a directory. There are files in the directory of the disk but no
directories, so a path has to leave again what it went into; the last part, whatever it is, names the
file.
-/

namespace ReplicaIntake

/-! ## §1 Journals and files -/

/-- How a database keeps its journal. -/
inductive Journal where
  /-- Ahead of the database. -/
  | writeAhead
  /-- In a file that is deleted after each transaction. -/
  | deleted
  | memory
  deriving DecidableEq

namespace Journal

/-- The name of a way to keep the journal. -/
def name : Journal → String
  | .writeAhead => "wal"
  | .deleted => "delete"
  | .memory => "memory"

/-- The way of a name. -/
def ofName? : String → Option Journal
  | "wal" => some .writeAhead
  | "delete" => some .deleted
  | "memory" => some .memory
  | _ => none

end Journal

/-- A database file. -/
structure DatabaseFile where
  /-- What is in it. -/
  database : Database := {}
  /-- The journal is kept ahead of the database. -/
  writeAhead : Bool := false
  /-- How many nodes take part in the journal ahead. -/
  participants : Nat := 0

/-- The database files, under their names. -/
abbrev Disk := KeyMap DatabaseFile

/-! ## §2 Names of files -/

/-- How many bytes a name of a file or directory has at most. -/
def maxNameBytes : Nat := 255

/-- The ending of a database file. -/
def databaseEnding : String := ".db"

/-- The ending of a journal in a file of its own, beside the database. -/
def journalEnding : String := ".db-journal"

/-- What the files that a database is kept in end on. The journal ahead of the database and its index
are there while some node takes part in it; another journal is gone after each transaction. -/
def DatabaseFile.endings (file : DatabaseFile) : List String :=
  if file.participants = 0 then [databaseEnding] else [databaseEnding, ".db-wal", ".db-shm"]

/-- Whether a file of that name is on the disk. -/
def Disk.hasFile (disk : Disk) (name : String) : Bool :=
  disk.entries.any fun (base, file) => file.endings.any fun ending => base ++ ending = name

/-! ## §3 Paths -/

/-- What stands between the slashes of a path. -/
def pathParts : List Char → List (List Char)
  | [] => [[]]
  | c :: rest =>
    if c = '/' then [] :: pathParts rest
    else
      match pathParts rest with
      | [] => [[c]]
      | part :: parts => (c :: part) :: parts

theorem pathParts_of_not_mem {path : List Char} (h : '/' ∉ path) : pathParts path = [path] := by
  induction path with
  | nil => rfl
  | cons c rest ih =>
    have hc : c ≠ '/' := fun e => h (e ▸ List.mem_cons_self)
    simp [pathParts, hc, ih fun m => h (List.mem_cons_of_mem _ m)]

/-- The last part of a path. -/
def lastPart (path : String) : String :=
  String.ofList ((pathParts path.toList).getLast?.getD [])

theorem lastPart_of_not_mem {name : String} (h : '/' ∉ name.toList) : lastPart name = name := by
  simp [lastPart, pathParts_of_not_mem h]

/-- Whether the database at a path can have a journal in a file of its own. -/
def hasJournalRoom (path : String) : Bool :=
  (lastPart path ++ journalEnding).utf8ByteSize ≤ maxNameBytes

/-- A directory, as the way to it from the directory of the disk: first up, then down. -/
structure Directory where
  /-- How many directories the way goes up. -/
  up : Nat := 0
  /-- The directories that the way goes down into, the last one first. -/
  down : List String := []
  deriving DecidableEq

namespace Directory

/-- How many bytes a way down has at most, with a slash for each name. -/
def maxBytes : Nat := 496

/-- How many bytes the way down has. -/
def bytes (d : Directory) : Nat := d.down.foldr (fun name n => name.utf8ByteSize + 1 + n) 0

/-- Whether the directory exists: that of the disk does, and those above it. -/
def isThere (d : Directory) : Bool := d.down.isEmpty

/-- A name in the directory that the way reaches before it goes down, as seen from the disk. -/
def nameAbove (d : Directory) (name : String) : String :=
  (List.replicate d.up "../").foldr (· ++ ·) name

/-- The directory around this one. -/
def leave (d : Directory) : Directory :=
  match d.down with
  | [] => { d with up := d.up + 1 }
  | _ :: down => { d with down }

/-- Whether a name can be looked for in the directory, be it there or not: a directory that exists
wants a name that is not too long, and what is looked into must not be a file. -/
def canSeek (disk : Disk) (d : Directory) (name : String) : Bool :=
  match d.down with
  | [] => name.utf8ByteSize ≤ maxNameBytes
  | [outer] => !disk.hasFile (d.nameAbove outer)
  | _ => true

/-- Follows one part of a path. A directory that is not there can be gone into, because the path may
leave it again. -/
def enter? (disk : Disk) (d : Directory) (part : String) : Option Directory :=
  if part = "" || part = "." then some d
  else if part = ".." then some d.leave
  else
    let inner : Directory := { d with down := part :: d.down }
    if inner.bytes ≤ maxBytes && canSeek disk d part then some inner else none

end Directory

/-- The name of the file that a path leads to: the shortest path to it. No path has a NUL or starts
at another directory than that of the disk. -/
def Disk.locate? (disk : Disk) (path : String) : Option String :=
  let chars := path.toList
  if chars.contains '\x00' || chars.head? = some '/' then none
  else
    match ((pathParts chars).dropLast.map String.ofList).foldlM (Directory.enter? disk) {} with
    | some d =>
      let name := lastPart path
      if d.isThere && (name ++ databaseEnding).utf8ByteSize ≤ maxNameBytes then
        some (d.nameAbove name)
      else none
    | none => none

/-- A name without a slash leads to the file of that name. -/
theorem Disk.locate?_of_not_mem {disk : Disk} {name : String} (slash : '/' ∉ name.toList)
    (nul : '\x00' ∉ name.toList)
    (fits : (name ++ databaseEnding).utf8ByteSize ≤ maxNameBytes) :
    disk.locate? name = some name := by
  have head : name.toList.head? ≠ some '/' := fun h => slash (List.mem_of_mem_head? h)
  rw [String.utf8ByteSize_append] at fits
  simp [Disk.locate?, pathParts_of_not_mem slash, lastPart_of_not_mem slash, nul, head, fits,
    Directory.isThere, Directory.nameAbove]

end ReplicaIntake
