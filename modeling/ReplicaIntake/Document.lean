import ReplicaIntake.KeyMap
import ReplicaIntake.Json.Numeral
import ReplicaIntake.Json.Text

/-!
# Documents

A document is a JSON value as a value: the members of a map have different keys and come in the
order of their keys, integers are exact, and every text is a text. A number with a fraction or an
exponent, or outside the 64-bit integers, is kept as it was written.

The stored form is the compact JSON text. Reading it back takes any JSON text that nests at most
`Document.maxDepth` arrays and objects and whose numbers are finite in double precision; of two
members with one key the later counts.
-/

namespace ReplicaIntake

/-- A document. -/
inductive Document where
  | null
  | bool (b : Bool)
  | integer (n : Int)
  /-- Any other number. -/
  | decimal (n : Json.Numeral)
  | text (s : String)
  | list (items : List Document)
  /-- A map, in ascending order of its keys. -/
  | map (members : List (String × Document))

namespace Document

instance : Inhabited Document := ⟨.null⟩

/-- How many arrays and objects may be open at once in a stored document. -/
def maxDepth : Nat := 127

/-! ## §1 Numbers -/

/-- The integer of a number, if it is written as one and is a 64-bit integer, signed or unsigned. Minus
zero is none. -/
def integerOf? (n : Json.Numeral) : Option Int :=
  let m : Int := if n.negative then -n.whole else n.whole
  if n.isWhole ∧ -Decimal.signedLimit ≤ m ∧ m < UInt64.size ∧ ¬ (n.negative ∧ n.whole = 0) then some m
  else none

/-- The document of a number, if it is finite. -/
def ofNumeral? (n : Json.Numeral) : Option Document :=
  match integerOf? n with
  | some m => some (.integer m)
  | none => if n.isFinite then some (.decimal n) else none

/-! ## §2 Documents and JSON -/

mutual

/-- The document of a JSON value, if its texts are texts and its numbers finite. -/
def ofJson? : Json → Option Document
  | .null => some .null
  | .bool b => some (.bool b)
  | .number n => ofNumeral? n
  | .string s => s.map .text
  | .array items => (ofItems? items).map .list
  | .object members => (ofMembers? [] members).map .map
termination_by structural j => j

/-- The documents of the items of an array. -/
def ofItems? : List Json → Option (List Document)
  | [] => some []
  | j :: rest =>
    match ofJson? j, ofItems? rest with
    | some d, some ds => some (d :: ds)
    | _, _ => none
termination_by structural l => l

/-- The documents of the members of an object, added to those already read. -/
def ofMembers? (read : List (String × Document)) :
    List (Option String × Json) → Option (List (String × Document))
  | [] => some read
  | (k, j) :: rest =>
    match k, ofJson? j with
    | some k, some d => ofMembers? (insertEntry k d read) rest
    | _, _ => none
termination_by structural l => l

end

mutual

/-- The JSON value of a document. -/
def toJson : Document → Json
  | .null => .null
  | .bool b => .bool b
  | .integer n => Json.ofInt n
  | .decimal n => .number n
  | .text s => Json.ofText s
  | .list items => .array (toItems items)
  | .map members => .object (toMembers members)
termination_by structural d => d

/-- The JSON values of the items of a list. -/
def toItems : List Document → List Json
  | [] => []
  | d :: rest => toJson d :: toItems rest
termination_by structural l => l

/-- The JSON members of a map. -/
def toMembers : List (String × Document) → List (Option String × Json)
  | [] => []
  | (k, d) :: rest => (some k, toJson d) :: toMembers rest
termination_by structural l => l

end

/-! ## §3 Stored form -/

/-- The compact text of a document. -/
def encode (d : Document) : Bytes := d.toJson.write

/-- The document of a text. -/
def decode? (bs : Bytes) : Option Document :=
  match Json.ofBytes? bs with
  | none => none
  | some j => if j.depth ≤ maxDepth then ofJson? j else none

end Document

end ReplicaIntake
