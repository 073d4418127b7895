import ReplicaIntake.Format.Utf8

/-!
# Decimal numbers

The digits of a natural number, their text, and the two readers of whole numbers: one for unsigned
64-bit words, which says why it refuses, and one for signed 64-bit numbers. Digits are ASCII digits
only; no other script's digits, blanks or separators are read.
-/

namespace ReplicaIntake.Decimal

/-! ## §1 Digits -/

/-- The decimal digits of a number, highest first, without leading zeros. -/
def digits (n : Nat) : List Nat :=
  if n < 10 then [n] else digits (n / 10) ++ [n % 10]
termination_by n
decreasing_by omega

/-- The number that a list of digits denotes. -/
def ofDigits (ds : List Nat) : Nat := ds.foldl (fun acc d => 10 * acc + d) 0

theorem ofDigits_append_singleton (ds : List Nat) (d : Nat) :
    ofDigits (ds ++ [d]) = 10 * ofDigits ds + d := by
  simp [ofDigits, List.foldl_append]

theorem ofDigits_digits (n : Nat) : ofDigits (digits n) = n := by
  induction n using Nat.strongRecOn with
  | ind n ih =>
    rw [digits]
    split
    · simp [ofDigits]
    · rw [ofDigits_append_singleton, ih (n / 10) (by omega)]; omega

/-- The digit character of a number below ten. -/
def digitChar (d : Nat) : Char := Char.ofNat (48 + d)

/-- The value of an ASCII digit. -/
def digit? (c : Char) : Option Nat :=
  if '0' ≤ c ∧ c ≤ '9' then some (c.toNat - 48) else none

/-! ## §2 Texts -/

/-- A natural number in decimal. -/
def ofNat (n : Nat) : String := String.ofList ((digits n).map digitChar)

/-- An integer in decimal, with a minus sign when it is negative. -/
def ofInt : Int → String
  | .ofNat n => ofNat n
  | .negSucc n => "-" ++ ofNat (n + 1)

/-- A natural number in decimal, filled up with zeros in front to `width` digits. -/
def padded (width n : Nat) : String :=
  let ds := digits n
  String.ofList ((List.replicate (width - ds.length) 0 ++ ds).map digitChar)

/-- A natural number in decimal, as bytes. -/
def bytes (n : Nat) : Bytes := (digits n).map fun d => 48 + d.toUInt8

/-! ## §3 Reading -/

/-- Why a text is no unsigned 64-bit number. -/
inductive Fault where
  /-- There is no text. -/
  | empty
  /-- A character is no digit, or there is only a sign. -/
  | invalidDigit
  /-- The digits read so far exceed the largest word. -/
  | tooLarge
  deriving DecidableEq

/-- A fault in words. -/
def Fault.message : Fault → String
  | .empty => "cannot parse integer from empty string"
  | .invalidDigit => "invalid digit found in string"
  | .tooLarge => "number too large to fit in target type"

/-- Reads digits after those that make `acc`. The first character that is no digit, or that takes
the number above the largest word, decides the fault. -/
def readWord (acc : Nat) : List Char → Except Fault UInt64
  | [] => .ok (UInt64.ofNat acc)
  | c :: rest =>
    match digit? c with
    | none => .error .invalidDigit
    | some d => if UInt64.size ≤ 10 * acc + d then .error .tooLarge else readWord (10 * acc + d) rest

/-- An unsigned 64-bit number: at most one plus sign, then at least one digit. -/
def word (s : String) : Except Fault UInt64 :=
  match s.toList with
  | [] => .error .empty
  | ['+'] => .error .invalidDigit
  | '+' :: rest => readWord 0 rest
  | cs => readWord 0 cs

/-- The least positive number that is no signed 64-bit number. -/
def signedLimit : Int := 9223372036854775808

/-- Whether an integer is a signed 64-bit number. -/
def isSigned (n : Int) : Bool := -signedLimit ≤ n && n < signedLimit

/-- The number that a non-empty list of digit characters denotes. -/
def magnitude? (cs : List Char) : Option Nat :=
  if cs.isEmpty then none else (cs.mapM digit?).map ofDigits

/-- A signed 64-bit number: at most one sign, then at least one digit. -/
def signed? (s : String) : Option Int :=
  let read (negative : Bool) (cs : List Char) : Option Int :=
    match magnitude? cs with
    | none => none
    | some n =>
      let v : Int := if negative then -n else n
      if isSigned v then some v else none
  match s.toList with
  | '-' :: rest => read true rest
  | '+' :: rest => read false rest
  | cs => read false cs

end ReplicaIntake.Decimal
