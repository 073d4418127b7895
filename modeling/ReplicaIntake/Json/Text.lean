import ReplicaIntake.Json.Token

/-!
# JSON texts

Writing is compact: no blanks, members in their order. Reading folds the tokens of a text through
a machine whose state says what may come next and which arrays and objects are still open, so it
takes one step a token and is total without further argument.
-/

namespace ReplicaIntake.Json

/-! ## §1 Writing -/

/-- The digits after the point of a number, with the point. -/
def writeFraction : List Nat → Bytes
  | [] => []
  | ds => 0x2e :: ds.map fun d => 48 + d.toUInt8

/-- The exponent of a number, with its letter. -/
def writeExponent : Option Int → Bytes
  | none => []
  | some e => 0x65 :: ((if e < 0 then [0x2d] else []) ++ Decimal.bytes e.natAbs)

/-- A number in its notation. -/
def Numeral.write (n : Numeral) : Bytes :=
  (if n.negative then [0x2d] else []) ++ Decimal.bytes n.whole ++ writeFraction n.fraction ++
    writeExponent n.exponent

/-- A string literal. One that names no text is written as half of a surrogate pair. -/
def writeString : Option String → Bytes
  | some s => quoted s
  | none => 0x22 :: (utf8 "\\ud800" ++ [0x22])

mutual

/-- The compact text of a value. -/
def write : Json → Bytes
  | .null => utf8 "null"
  | .bool true => utf8 "true"
  | .bool false => utf8 "false"
  | .number n => n.write
  | .string s => writeString s
  | .array items => 0x5b :: (writeItems items ++ [0x5d])
  | .object members => 0x7b :: (writeMembers members ++ [0x7d])
termination_by structural j => j

/-- The items of an array, with commas between them. -/
def writeItems : List Json → Bytes
  | [] => []
  | [j] => write j
  | j :: rest => write j ++ 0x2c :: writeItems rest
termination_by structural l => l

/-- The members of an object, with commas between them. -/
def writeMembers : List (Option String × Json) → Bytes
  | [] => []
  | [(k, j)] => writeString k ++ 0x3a :: write j
  | (k, j) :: rest => writeString k ++ 0x3a :: (write j ++ 0x2c :: writeMembers rest)
termination_by structural l => l

end

/-! ## §2 Reading -/

/-- An array or object that is still open, with what has been read of it, latest first. -/
inductive Open where
  /-- An array and its items. -/
  | array (items : List Json)
  /-- An object, its members, and the key whose value comes next. -/
  | object (members : List (Option String × Json)) (key : Option String)

/-- What has been read of a text, innermost open value first, and so what may come next. -/
inductive Reading where
  /-- A value has to come. -/
  | value (outer : List Open)
  /-- An array has just been opened: an item or its end has to come. -/
  | firstItem (outer : List Open)
  /-- An object has just been opened: a key or its end has to come. -/
  | firstKey (outer : List Open)
  /-- A key of the object has to come. -/
  | key (members : List (Option String × Json)) (outer : List Open)
  /-- The colon after a key has to come. -/
  | colon (members : List (Option String × Json)) (key : Option String) (outer : List Open)
  /-- A value has ended. -/
  | ended (j : Json) (outer : List Open)

/-- The reading after a token at which a value has to start. -/
def Reading.start (outer : List Open) : Token → Option Reading
  | .scalar j => some (.ended j outer)
  | .openArray => some (.firstItem outer)
  | .openObject => some (.firstKey outer)
  | _ => none

/-- The reading after one more token, if the token may come. -/
def Reading.step : Reading → Token → Option Reading
  | .value outer, t => Reading.start outer t
  | .firstItem outer, .closeArray => some (.ended (.array []) outer)
  | .firstItem outer, t => Reading.start (.array [] :: outer) t
  | .firstKey outer, .closeObject => some (.ended (.object []) outer)
  | .firstKey outer, .scalar (.string k) => some (.colon [] k outer)
  | .key members outer, .scalar (.string k) => some (.colon members k outer)
  | .colon members k outer, .colon => some (.value (.object members k :: outer))
  | .ended j (.array items :: outer), .comma => some (.value (.array (j :: items) :: outer))
  | .ended j (.array items :: outer), .closeArray =>
    some (.ended (.array (j :: items).reverse) outer)
  | .ended j (.object members k :: outer), .comma => some (.key ((k, j) :: members) outer)
  | .ended j (.object members k :: outer), .closeObject =>
    some (.ended (.object ((k, j) :: members).reverse) outer)
  | _, _ => none

/-- The value of a list of tokens, if it is exactly one value. -/
def ofTokens? (ts : List Token) : Option Json :=
  match ts.foldlM Reading.step (.value []) with
  | some (.ended j []) => some j
  | _ => none

/-- The value of a text. Nesting is not limited here. -/
def ofBytes? (bs : Bytes) : Option Json := (tokens? bs).bind ofTokens?

/-- The value of a text. -/
def ofString? (s : String) : Option Json := ofBytes? (utf8 s)

/-- The compact text of a value. What is written is UTF-8. -/
def text (j : Json) : String := (ofUtf8? j.write).getD ""

end ReplicaIntake.Json
