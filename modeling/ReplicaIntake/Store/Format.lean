import ReplicaIntake.Document
import ReplicaIntake.Counter
import ReplicaIntake.Store.Error

/-!
# Stored forms of payloads

Each kind of item has payloads of its own and a stored form for them: the compact JSON text of a
document, the binary form of a counter, and the bytes of a file after their number.
-/

namespace ReplicaIntake

/-- The payloads of each kind of item. -/
abbrev ItemKind.Payload : ItemKind → Type
  | .document => Document
  | .counter => Counter
  | .file => Bytes

/-- How the payloads `α` of one kind of item are stored. -/
structure PayloadFormat (α : Type) where
  kind : ItemKind
  encode : α → Bytes
  /-- The payload of a stored form. -/
  decode : Bytes → Except DecodeError α

namespace PayloadFormat

/-- Documents as compact JSON texts. -/
def document : PayloadFormat Document where
  kind := .document
  encode := Document.encode
  decode bs :=
    match Document.decode? bs with
    | some d => .ok d
    | none => .error .document

/-- Counters in binary. -/
def counter : PayloadFormat Counter where
  kind := .counter
  encode := Counter.encode
  decode bs := (Counter.decode bs).mapError .counter

/-- Files as their bytes after the number of them. What follows is of no account. -/
def file : PayloadFormat Bytes where
  kind := .file
  encode := Binary.writeBytes
  decode bs :=
    match Binary.readBytes bs with
    | .ok (content, _) => .ok content
    | .error fault => .error (.file fault)

/-- The stored form of each kind. -/
def ofKind : (k : ItemKind) → PayloadFormat k.Payload
  | .document => document
  | .counter => counter
  | .file => file

end PayloadFormat

end ReplicaIntake
