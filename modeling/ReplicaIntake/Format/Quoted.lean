import ReplicaIntake.Format.Graphic

/-!
# Text in quotes

A text is printed between double quotes in a form that shows every character: the quote, the
backslash and four control characters have a letter of their own after a backslash, and any other
character that does not show by itself is given as its number.
-/

namespace ReplicaIntake.Quoted

/-- A character as its number in lower-case hexadecimal digits. -/
def number (c : Char) : String :=
  "\\u\x7b" ++ String.ofList (Nat.toDigits 16 c.toNat) ++ "\x7d"

/-- A character inside quotes. -/
def char (c : Char) : String :=
  if c = '"' then "\\\""
  else if c = '\\' then "\\\\"
  else if c = '\n' then "\\n"
  else if c = '\r' then "\\r"
  else if c = '\t' then "\\t"
  else if c = '\x00' then "\\0"
  else if Graphic.shows c then String.singleton c
  else number c

/-- A mark would otherwise combine with the letter before it, or with the quote. -/
example : char '\u0301' = "\\u\x7b301\x7d" ∧ char 'é' = "é" := by decide +kernel

/-- A text in quotes. -/
def text (s : String) : String := "\"" ++ String.join (s.toList.map char) ++ "\""

end ReplicaIntake.Quoted
