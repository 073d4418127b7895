import ReplicaIntake.KeyMap
import ReplicaIntake.Json.Basic

/-!
# Reading typed values out of JSON

Readers for the shapes that stored and transmitted values have: words, texts, lists, maps, records
and plain alternatives. A record is an object with known fields, of which none may come twice while
unknown ones are passed over, or an array of the field values in their order.
-/

namespace ReplicaIntake.Json

variable {α : Type}

/-! ## §1 Scalars -/

/-- A truth value. -/
def asBool? : Json → Option Bool
  | .bool b => some b
  | _ => none

/-- A text. -/
def asText? : Json → Option String
  | .string s => s
  | _ => none

/-- A natural number below 2^64, written without sign, fraction and exponent. -/
def asNat? : Json → Option Nat
  | .number ⟨false, n, [], none⟩ => if n < UInt64.size then some n else none
  | _ => none

/-- An unsigned 64-bit word. -/
def asWord? (j : Json) : Option UInt64 := j.asNat?.map UInt64.ofNat

/-- A byte. -/
def asByte? (j : Json) : Option UInt8 :=
  match j.asNat? with
  | some n => if n < 256 then some (UInt8.ofNat n) else none
  | none => none

/-- An integer written without fraction and exponent. -/
def asInt? : Json → Option Int
  | .number ⟨negative, n, [], none⟩ => some (if negative then -n else n)
  | _ => none

/-! ## §2 Structures -/

/-- `null`, or a value that `read` takes. -/
def asOption? (read : Json → Option α) : Json → Option (Option α)
  | .null => some none
  | j => (read j).map some

/-- An array of values that `read` takes. -/
def asList? (read : Json → Option α) : Json → Option (List α)
  | .array items => items.mapM read
  | _ => none

/-- Adds one member to a map. -/
def addMember? (read : Json → Option α) (m : KeyMap α) (member : Option String × Json) :
    Option (KeyMap α) :=
  match member.1, read member.2 with
  | some k, some a => some (m.insert k a)
  | _, _ => none

/-- An object as a map of values that `read` takes. Of two members with one key the later
counts. -/
def asMap? (read : Json → Option α) : Json → Option (KeyMap α)
  | .object members => members.foldlM (addMember? read) .empty
  | _ => none

/-- The alternatives of a type without further content: their name as a text, or as the only key
of an object, with value `null`. -/
def asName? : Json → Option String
  | .string s => s
  | .object [(some s, .null)] => some s
  | _ => none

/-! ## §3 Records -/

/-- The value of the field `name` in the members of an object, when it comes at most once. -/
def field? (members : List (Option String × Json)) (name : String) : Option (Option Json) :=
  match members.filter fun m => m.1 == some name with
  | [] => some none
  | [m] => some (some m.2)
  | _ => none

/-- The values of the named fields of a record, each missing or there. Keys have to be texts. -/
def fields? (names : List String) : Json → Option (List (Option Json))
  | .object members =>
    if members.all fun m => m.1.isSome then names.mapM (field? members) else none
  | .array items =>
    if items.length ≤ names.length then
      some (items.map some ++ List.replicate (names.length - items.length) none)
    else none
  | _ => none

/-- A field that has to be there. -/
def required? (read : Json → Option α) (j : Option Json) : Option α := j.bind read

/-- A field that has a value of its own when it is missing. -/
def optional? (default : α) (read : Json → Option α) : Option Json → Option α
  | none => some default
  | some j => read j

/-! ## §4 Members by name -/

/-- The value of the first member of an object with the given key. -/
def get? (j : Json) (key : String) : Option Json :=
  match j with
  | .object members => (members.find? fun m => m.1 == some key).map (·.2)
  | _ => none

end ReplicaIntake.Json
