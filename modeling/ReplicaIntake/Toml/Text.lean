/-!
# Blanks, keys and strings of a configuration text

A scanner takes what it is about from the front of a text and hands back what follows. Strings come
in four forms: with or without escapes, on one line or on several. Control characters stand in none
of them, nor in comments.
-/

namespace ReplicaIntake.Toml

/-- A scanner: what it took from the front of a text, and what follows. -/
abbrev Scan (α : Type) := List Char → Option (α × List Char)

/-! ## §1 Blanks, comments and line ends -/

/-- A blank within a line. -/
def isBlank (c : Char) : Bool := c = ' ' || c = '\t'

/-- A character that may stand in a comment or string. -/
def isPlain (c : Char) : Bool := c = '\t' || (' ' ≤ c && c ≠ '\x7f')

/-- What follows the blanks. -/
def skipBlanks (cs : List Char) : List Char := cs.dropWhile isBlank

/-- What follows a comment, if there is one. -/
def skipComment : List Char → List Char
  | '#' :: rest => rest.dropWhile isPlain
  | cs => cs

/-- What follows a line break. -/
def lineBreak? : List Char → Option (List Char)
  | '\n' :: rest => some rest
  | '\r' :: '\n' :: rest => some rest
  | _ => none

/-- What follows blanks, a comment and a line break or the end of the text. -/
def lineEnd? (cs : List Char) : Option (List Char) :=
  match skipComment (skipBlanks cs) with
  | [] => some []
  | cs => lineBreak? cs

/-- What follows blanks and line breaks. -/
def skipSpace : List Char → List Char
  | ' ' :: rest => skipSpace rest
  | '\t' :: rest => skipSpace rest
  | '\n' :: rest => skipSpace rest
  | '\r' :: '\n' :: rest => skipSpace rest
  | cs => cs

/-- What follows blanks, line breaks and comments, of which there are at most `fuel`. -/
def skipLines : (fuel : Nat) → List Char → List Char
  | 0, cs => cs
  | fuel + 1, cs =>
    match skipSpace cs with
    | '#' :: rest => skipLines fuel (skipComment ('#' :: rest))
    | cs => cs

/-! ## §2 Escapes -/

/-- The value of a hexadecimal digit. -/
def hexDigit? (c : Char) : Option Nat :=
  if '0' ≤ c ∧ c ≤ '9' then some (c.toNat - 48)
  else if 'a' ≤ c ∧ c ≤ 'f' then some (c.toNat - 87)
  else if 'A' ≤ c ∧ c ≤ 'F' then some (c.toNat - 55)
  else none

/-- The character of a number. Halves of surrogate pairs are none. -/
def scalar? (n : Nat) : Option Char := if n.isValidChar then some (Char.ofNat n) else none

/-- The character of `count` hexadecimal digits. -/
def hexEscape? (count : Nat) (cs : List Char) : Option (Char × List Char) :=
  let digits := cs.take count
  if digits.length < count then none
  else
    match digits.mapM hexDigit? with
    | none => none
    | some ds => (scalar? (ds.foldl (fun n d => 16 * n + d) 0)).map fun c => (c, cs.drop count)

/-- The character of an escape, without its backslash. -/
def escape? : Scan Char
  | 'b' :: rest => some ('\x08', rest)
  | 't' :: rest => some ('\t', rest)
  | 'n' :: rest => some ('\n', rest)
  | 'f' :: rest => some ('\x0c', rest)
  | 'r' :: rest => some ('\r', rest)
  | '"' :: rest => some ('"', rest)
  | '\\' :: rest => some ('\\', rest)
  | 'u' :: rest => hexEscape? 4 rest
  | 'U' :: rest => hexEscape? 8 rest
  | _ => none

/-! ## §3 Strings -/

/-- Puts characters in front of what a scanner took. -/
def prepend (front : List Char) : Option (List Char × List Char) → Option (List Char × List Char) :=
  Option.map fun (cs, rest) => (front ++ cs, rest)

/-- The rest of a string on one line, after its opening quote. There are at most `fuel` characters. -/
def line (quote : Char) (escapes : Bool) : (fuel : Nat) → Scan (List Char)
  | 0, _ => none
  | _ + 1, [] => none
  | fuel + 1, c :: rest =>
    if c = quote then some ([], rest)
    else if escapes && c == '\\' then
      match escape? rest with
      | some (e, rest) => prepend [e] (line quote escapes fuel rest)
      | none => none
    else if isPlain c then prepend [c] (line quote escapes fuel rest)
    else none

/-- The rest of a string on several lines, after its opening quotes. One or two quotes may stand
anywhere in it, also right before the closing three. -/
def lines (quote : Char) (escapes : Bool) : (fuel : Nat) → Scan (List Char)
  | 0, _ => none
  | _ + 1, [] => none
  | fuel + 1, c :: rest =>
    if c = quote then
      let quotes := (c :: rest).takeWhile (· = quote)
      let rest := (c :: rest).dropWhile (· = quote)
      if quotes.length < 3 then prepend quotes (lines quote escapes fuel rest)
      else if quotes.length ≤ 5 then some (quotes.drop 3, rest)
      else none
    else if escapes && c == '\\' then
      match lineBreak? (skipBlanks rest) with
      -- a backslash at the end of a line takes all blanks up to the next character away
      | some rest => lines quote escapes fuel (skipSpace rest)
      | none =>
        match escape? rest with
        | some (e, rest) => prepend [e] (lines quote escapes fuel rest)
        | none => none
    else
      match lineBreak? (c :: rest) with
      | some rest => prepend ['\n'] (lines quote escapes fuel rest)
      | none => if isPlain c then prepend [c] (lines quote escapes fuel rest) else none

/-- A string on one line, after its opening quote. -/
def lineString (quote : Char) (cs : List Char) : Option (String × List Char) :=
  (line quote (quote = '"') (cs.length + 1) cs).map fun (s, rest) => (String.ofList s, rest)

/-- A string of any form. A line break right after three opening quotes is no part of it. -/
def string? (cs : List Char) : Option (String × List Char) :=
  match cs with
  | a :: b :: c :: rest =>
    if (a = '"' ∨ a = '\'') ∧ a = b ∧ b = c then
      let body := (lineBreak? rest).getD rest
      (lines a (a = '"') (body.length + 1) body).map fun (s, rest) => (String.ofList s, rest)
    else lineString a (b :: c :: rest)
  | a :: rest => lineString a rest
  | [] => none

/-! ## §4 Keys -/

/-- A character of a key without quotes. -/
def isBare (c : Char) : Bool := c.isAlphanum || c = '_' || c = '-'

/-- One part of a key. -/
def keyPart? : Scan String
  | '"' :: rest => lineString '"' rest
  | '\'' :: rest => lineString '\'' rest
  | cs =>
    let bare := cs.takeWhile isBare
    if bare.isEmpty then none else some (String.ofList bare, cs.dropWhile isBare)

/-- The parts of a key, with blanks around each and points between them. -/
def keyParts : (fuel : Nat) → Scan (List String)
  | 0, _ => none
  | fuel + 1, cs =>
    match keyPart? (skipBlanks cs) with
    | none => none
    | some (part, rest) =>
      match skipBlanks rest with
      | '.' :: rest => (keyParts fuel rest).map fun (parts, rest) => (part :: parts, rest)
      | rest => some ([part], rest)

/-- How many parts a key may have, and how deeply values may be nested. -/
def maxNesting : Nat := 79

/-- A key. -/
def key? (cs : List Char) : Option (List String × List Char) := keyParts maxNesting cs

end ReplicaIntake.Toml
