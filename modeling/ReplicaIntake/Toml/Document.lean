import ReplicaIntake.Toml.Number

/-!
# Configuration texts

A text is a sequence of lines: blank ones, assignments of a value to a key, and headers that open
a table or one more table of an array. An assignment adds to the table that was opened last. Values
may spread over several lines inside the brackets of an array, and only there.

Every step takes at least one character away, so the length of the text bounds the steps.
-/

namespace ReplicaIntake.Toml

/-! ## §1 Values -/

mutual

/-- A value, in which arrays and tables are nested at most `nesting` deep. -/
def value? : (fuel nesting : Nat) → Scan Value
  | 0, _, _ => none
  | fuel + 1, nesting, cs =>
    match cs with
    | '[' :: rest => if nesting = 0 then none else items? fuel (nesting - 1) [] rest
    | '\x7b' :: rest =>
      if nesting = 0 then none
      else
        match skipBlanks rest with
        | '\x7d' :: rest => some (.table .inline [], rest)
        | rest => members? fuel (nesting - 1) [] rest
    | '"' :: _ => (string? cs).map fun (s, rest) => (.text s, rest)
    | '\'' :: _ => (string? cs).map fun (s, rest) => (.text s, rest)
    | 't' :: 'r' :: 'u' :: 'e' :: rest => some (.boolean true, rest)
    | 'f' :: 'a' :: 'l' :: 's' :: 'e' :: rest => some (.boolean false, rest)
    | cs => number? cs

/-- The rest of an array after the given items, latest first, and a comma if there are any. -/
def items? : (fuel nesting : Nat) → (read : List Value) → Scan Value
  | 0, _, _, _ => none
  | fuel + 1, nesting, read, cs =>
    match skipLines cs.length cs with
    | ']' :: rest => some (.array read.reverse, rest)
    | cs =>
      match value? fuel nesting cs with
      | none => none
      | some (v, rest) =>
        match skipLines rest.length rest with
        | ']' :: rest => some (.array (v :: read).reverse, rest)
        | ',' :: rest => items? fuel nesting (v :: read) rest
        | _ => none

/-- The rest of a table in braces after the given members. -/
def members? : (fuel nesting : Nat) → (read : Members) → Scan Value
  | 0, _, _, _ => none
  | fuel + 1, nesting, read, cs =>
    match key? cs with
    | some (key, '=' :: rest) =>
      match value? fuel nesting (skipBlanks rest) with
      | none => none
      | some (v, rest) =>
        match addKey key v .inline read with
        | none => none
        | some read =>
          match skipBlanks rest with
          | '\x7d' :: rest => some (.table .inline read, rest)
          | ',' :: rest => members? fuel nesting read rest
          | _ => none
    | _ => none

end

/-! ## §2 Lines -/

/-- What has been read: the outermost table, and the header of the table that was opened last. -/
structure Reading where
  /-- The members of the outermost table. -/
  members : Members := []
  header : List String := []

/-- Reads a header after its first bracket. -/
def header? (r : Reading) : Scan Reading
  | '[' :: rest =>
    match key? rest with
    | some (header, ']' :: ']' :: rest) =>
      (openElement header r.members).map fun members => (⟨members, header⟩, rest)
    | _ => none
  | cs =>
    match key? cs with
    | some (header, ']' :: rest) =>
      (openTable header r.members).map fun members => (⟨members, header⟩, rest)
    | _ => none

/-- Reads the assignment of a value to a key. -/
def assignment? (r : Reading) (cs : List Char) : Option (Reading × List Char) :=
  match key? cs with
  | some (key, '=' :: rest) =>
    match value? (rest.length + 1) maxNesting (skipBlanks rest) with
    | none => none
    | some (v, rest) =>
      (descend false (addKey key v) r.header .header r.members).map fun members =>
        ({ r with members }, rest)
  | _ => none

/-- Reads the lines of a text, of which there are at most `fuel`. -/
def readLines : (fuel : Nat) → Reading → List Char → Option Members
  | 0, _, _ => none
  | fuel + 1, r, cs =>
    match lineEnd? cs with
    | some [] => some r.members
    | some rest => readLines fuel r rest
    | none =>
      let read := match skipBlanks cs with
        | '[' :: rest => header? r rest
        | cs => assignment? r cs
      match read with
      | none => none
      | some (r, rest) =>
        match lineEnd? rest with
        | some rest => readLines fuel r rest
        | none => none

/-- The outermost table of a text, if it is well-formed. A byte order mark in front is passed
over. -/
def parse? (text : String) : Option Members :=
  let cs := match text.toList with
    | '\ufeff' :: rest => rest
    | cs => cs
  readLines (cs.length + 1) {} cs

end ReplicaIntake.Toml
