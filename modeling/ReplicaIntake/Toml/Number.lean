import ReplicaIntake.Format.Double
import ReplicaIntake.Toml.Text
import ReplicaIntake.Toml.Value

/-!
# Numbers, dates and times of a configuration text

Integers are signed 64-bit numbers, in decimal without leading zeros, or without sign in one of
three other bases. Single underscores may stand between digits. A number with a fraction or an
exponent has to be below infinity. Dates have to be in the calendar.
-/

namespace ReplicaIntake.Toml

/-! ## §1 Digits -/

/-- The digits that continue a number, and what follows. -/
def moreDigits (digit? : Char → Option Nat) : List Char → List Nat × List Char
  | [] => ([], [])
  | '_' :: c :: rest =>
    match digit? c with
    | some d => let (ds, rest) := moreDigits digit? rest; (d :: ds, rest)
    | none => ([], '_' :: c :: rest)
  | c :: rest =>
    match digit? c with
    | some d => let (ds, rest) := moreDigits digit? rest; (d :: ds, rest)
    | none => ([], c :: rest)

/-- At least one digit. -/
def digits? (digit? : Char → Option Nat) : Scan (List Nat)
  | [] => none
  | c :: rest =>
    (digit? c).map fun d => let (ds, rest) := moreDigits digit? rest; (d :: ds, rest)

/-- The value of a digit below `base`. -/
def digitBelow? (base : Nat) (c : Char) : Option Nat :=
  match hexDigit? c with
  | some d => if d < base then some d else none
  | none => none

/-- The number that digits denote. -/
def denote (base : Nat) (ds : List Nat) : Nat := ds.foldl (fun n d => base * n + d) 0

/-- Whether a minus sign stands in front, and what follows the sign, if there is one. -/
def sign : List Char → Bool × List Char
  | '-' :: rest => (true, rest)
  | '+' :: rest => (false, rest)
  | cs => (false, cs)

/-- A whole number in decimal without leading zeros: whether it is negative, and its digits. -/
def whole? (cs : List Char) : Option ((Bool × List Nat) × List Char) :=
  match sign cs with
  | (negative, '0' :: rest) => some ((negative, [0]), rest)
  | (negative, rest) =>
    (digits? Decimal.digit? rest).map fun (ds, rest) => ((negative, ds), rest)

/-! ## §2 Integers -/

/-- An integer, if it is a signed 64-bit number. -/
def inRange? (n : Int) : Option Int := if Decimal.isSigned n then some n else none

/-- The integer of the digits of another base. -/
def based? (base : Nat) (cs : List Char) : Option (Value × List Char) :=
  match digits? (digitBelow? base) cs with
  | none => none
  | some (ds, rest) => (inRange? (denote base ds)).map fun n => (.integer n, rest)

/-- An integer. -/
def integer? : Scan Value
  | '0' :: 'x' :: rest => based? 16 rest
  | '0' :: 'o' :: rest => based? 8 rest
  | '0' :: 'b' :: rest => based? 2 rest
  | cs =>
    match whole? cs with
    | none => none
    | some ((negative, ds), rest) =>
      let n : Int := denote 10 ds
      (inRange? (if negative then -n else n)).map fun n => (.integer n, rest)

/-! ## §3 Fractions -/

/-- The power of ten of an exponent. -/
def exponent? : Scan Int
  | c :: rest =>
    if c = 'e' ∨ c = 'E' then
      let (negative, rest) := sign rest
      (digits? Decimal.digit? rest).map fun (ds, rest) =>
        let n : Int := denote 10 ds
        (if negative then -n else n, rest)
    else none
  | [] => none

/-- What follows the whole part of a number: the digits of its fraction and its power of ten. -/
def scale? : Scan (List Nat × Int)
  | '.' :: rest =>
    match digits? Decimal.digit? rest with
    | none => none
    | some (ds, rest) =>
      match exponent? rest with
      | some (e, rest) => some ((ds, e), rest)
      | none => some ((ds, 0), rest)
  | cs => (exponent? cs).map fun (e, rest) => (([], e), rest)

/-- A number with a fraction or an exponent. A positive one has to be finite. -/
def scaled? (cs : List Char) : Option (Value × List Char) :=
  match whole? cs with
  | none => none
  | some ((negative, whole), rest) =>
    match scale? rest with
    | none => none
    | some ((part, e), rest) =>
      if negative || Double.isFinite (denote 10 (whole ++ part)) (e - part.length) then
        some (.fraction, rest)
      else none

/-- Infinity and what is no number, with or without sign. -/
def special? (cs : List Char) : Option (Value × List Char) :=
  match (sign cs).2 with
  | 'i' :: 'n' :: 'f' :: rest => some (.fraction, rest)
  | 'n' :: 'a' :: 'n' :: rest => some (.fraction, rest)
  | _ => none

/-! ## §4 Dates and times -/

/-- A number of exactly `count` digits between two bounds. -/
def field? (count low high : Nat) (cs : List Char) : Option (Nat × List Char) :=
  let front := cs.take count
  if front.length < count then none
  else
    match front.mapM Decimal.digit? with
    | none => none
    | some ds =>
      let n := denote 10 ds
      if low ≤ n ∧ n ≤ high then some (n, cs.drop count) else none

/-- What follows the given character. -/
def after? (c : Char) : List Char → Option (List Char)
  | c' :: rest => if c = c' then some rest else none
  | [] => none

/-- How many days a month has. -/
def daysOf (year month : Nat) : Nat :=
  if month = 2 then
    if year % 4 = 0 ∧ (year % 100 ≠ 0 ∨ year % 400 = 0) then 29 else 28
  else if month = 4 ∨ month = 6 ∨ month = 9 ∨ month = 11 then 30
  else 31

/-- What follows a date. -/
def date? (cs : List Char) : Option (List Char) := do
  let (year, cs) ← field? 4 0 9999 cs
  let cs ← after? '-' cs
  let (month, cs) ← field? 2 1 12 cs
  let cs ← after? '-' cs
  let (_, cs) ← field? 2 1 (daysOf year month) cs
  some cs

/-- What follows the digits after a point, if there is a point. -/
def secondFraction? : List Char → Option (List Char)
  | '.' :: rest =>
    let digits := rest.takeWhile Char.isDigit
    if digits.isEmpty then none else some (rest.dropWhile Char.isDigit)
  | cs => some cs

/-- What follows a time of day. -/
def time? (cs : List Char) : Option (List Char) := do
  let (_, cs) ← field? 2 0 23 cs
  let cs ← after? ':' cs
  let (_, cs) ← field? 2 0 59 cs
  let cs ← after? ':' cs
  let (_, cs) ← field? 2 0 60 cs
  secondFraction? cs

/-- What follows an offset, if there is one. -/
def offset? : List Char → Option (List Char)
  | c :: rest =>
    if c = 'Z' ∨ c = 'z' then some rest
    else if c = '+' ∨ c = '-' then do
      let (_, rest) ← field? 2 0 23 rest
      let rest ← after? ':' rest
      let (_, rest) ← field? 2 0 59 rest
      some rest
    else some (c :: rest)
  | [] => some []

/-- What follows the time that may stand after a date. -/
def timeAfterDate? : List Char → Option (List Char)
  | c :: rest => if c = 'T' ∨ c = 't' ∨ c = ' ' then (time? rest).bind offset? else none
  | [] => none

/-- A date, a time, or both. -/
def moment? (cs : List Char) : Option (Value × List Char) :=
  match date? cs with
  | some rest => some (.moment, (timeAfterDate? rest).getD rest)
  | none => (time? cs).map fun rest => (.moment, rest)

/-- A value that starts like a number. -/
def number? (cs : List Char) : Option (Value × List Char) :=
  moment? cs <|> scaled? cs <|> special? cs <|> integer? cs

end ReplicaIntake.Toml
