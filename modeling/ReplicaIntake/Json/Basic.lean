import ReplicaIntake.Format.Decimal

/-!
# JSON values as they are written

`Json` is a JSON text with the blanks taken out: members stay in the order in which they are
written, a key may come more than once, and a number keeps its notation. What a value means is
decided where it is used: a field reader may refuse a repeated key, a document keeps the last one.

A string literal can be grammatical and still name no text, when an escape is half of a surrogate
pair or when its bytes are no UTF-8. Such a literal is kept as `none`: it only matters where the
string is read.
-/

namespace ReplicaIntake

/-- A number as it is written. -/
structure Json.Numeral where
  negative : Bool
  whole : Nat
  /-- The digits after the point. Without digits there is no point. -/
  fraction : List Nat := []
  /-- The power of ten, if there is one. -/
  exponent : Option Int := none
  deriving DecidableEq

/-- A JSON value in the order and notation in which it is written. -/
inductive Json where
  | null
  | bool (b : Bool)
  | number (n : Json.Numeral)
  /-- A string literal, `none` when it names no text. -/
  | string (s : Option String)
  | array (items : List Json)
  /-- An object, its members in the order of the text. -/
  | object (members : List (Option String × Json))

namespace Json

instance : Inhabited Json := ⟨.null⟩

/-! ## §1 Making values -/

/-- The string literal of a text. -/
def ofText (s : String) : Json := .string (some s)

/-- The number of a natural number. -/
def ofNat (n : Nat) : Json := .number ⟨false, n, [], none⟩

/-- The number of an integer. -/
def ofInt (n : Int) : Json := .number ⟨n < 0, n.natAbs, [], none⟩

/-- The object with the given members. -/
def ofMembers (members : List (String × Json)) : Json :=
  .object (members.map fun m => (some m.1, m.2))

/-- The array of the given texts. -/
def ofTexts (l : List String) : Json := .array (l.map ofText)

/-- `null` or the given value. -/
def ofOption {α : Type} (f : α → Json) : Option α → Json
  | none => .null
  | some a => f a

/-! ## §2 Nesting -/

mutual

/-- How deeply arrays and objects are nested: 0 for a scalar. -/
def depth : Json → Nat
  | .array items => depthItems items + 1
  | .object members => depthMembers members + 1
  | .null => 0
  | .bool _ => 0
  | .number _ => 0
  | .string _ => 0
termination_by structural j => j

/-- The greatest depth of the items of an array. -/
def depthItems : List Json → Nat
  | [] => 0
  | j :: rest => max (depth j) (depthItems rest)
termination_by structural l => l

/-- The greatest depth of the members of an object. -/
def depthMembers : List (Option String × Json) → Nat
  | [] => 0
  | (_, j) :: rest => max (depth j) (depthMembers rest)
termination_by structural l => l

end

end Json

end ReplicaIntake
