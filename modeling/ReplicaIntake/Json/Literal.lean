import ReplicaIntake.Format.Utf8

/-!
# String literals of JSON

Writing escapes the quote, the backslash and the control bytes, and leaves every other byte of the
UTF-8 form as it is. Reading takes a literal apart into plain bytes and 16-bit units, the values of
its `\u` escapes; the units are put together to code points afterwards, and only then do the bytes
have to be UTF-8.
-/

namespace ReplicaIntake.Json

/-! ## §1 Writing -/

/-- The digit of a number below sixteen, in lower case, as a byte. -/
def hexByte (n : UInt8) : UInt8 := if n < 10 then 48 + n else 87 + n

/-- A byte inside a literal. -/
def escapeByte (b : UInt8) : Bytes :=
  if b = 0x22 then [0x5c, 0x22]
  else if b = 0x5c then [0x5c, 0x5c]
  else if b = 0x08 then [0x5c, 0x62]
  else if b = 0x09 then [0x5c, 0x74]
  else if b = 0x0a then [0x5c, 0x6e]
  else if b = 0x0c then [0x5c, 0x66]
  else if b = 0x0d then [0x5c, 0x72]
  else if b < 0x20 then [0x5c, 0x75, 0x30, 0x30, hexByte (b / 16), hexByte (b % 16)]
  else [b]

/-- The literal of a text, quotes included. -/
def quoted (s : String) : Bytes := 0x22 :: ((utf8 s).flatMap escapeByte ++ [0x22])

/-! ## §2 Reading -/

/-- A part of a literal: a byte of text, or the 16-bit unit of a `\u` escape. -/
inductive Piece where
  | byte (b : UInt8)
  /-- The value of four hexadecimal digits. -/
  | unit (u : Nat)
  deriving DecidableEq

/-- The value of a hexadecimal digit of either case. -/
def hexValue? (b : UInt8) : Option Nat :=
  if 0x30 ≤ b ∧ b ≤ 0x39 then some (b.toNat - 0x30)
  else if 0x61 ≤ b ∧ b ≤ 0x66 then some (b.toNat - 0x57)
  else if 0x41 ≤ b ∧ b ≤ 0x46 then some (b.toNat - 0x37)
  else none

/-- The value of four hexadecimal digits. -/
def hexUnit? (a b c d : UInt8) : Option Nat :=
  match hexValue? a, hexValue? b, hexValue? c, hexValue? d with
  | some w, some x, some y, some z => some (((w * 16 + x) * 16 + y) * 16 + z)
  | _, _, _, _ => none

/-- The byte that a backslash and a letter stand for. -/
def escaped? (b : UInt8) : Option UInt8 :=
  if b = 0x22 ∨ b = 0x5c ∨ b = 0x2f then some b
  else if b = 0x62 then some 0x08
  else if b = 0x66 then some 0x0c
  else if b = 0x6e then some 0x0a
  else if b = 0x72 then some 0x0d
  else if b = 0x74 then some 0x09
  else none

/-- The parts of a literal after its opening quote, and what follows its closing quote. Control
bytes have to be escaped. -/
def pieces? : Bytes → Option (List Piece × Bytes)
  | [] => none
  -- the closing quote
  | 0x22 :: rest => some ([], rest)
  -- backslash, u, four digits
  | 0x5c :: 0x75 :: a :: b :: c :: d :: rest =>
    match hexUnit? a b c d, pieces? rest with
    | some u, some (ps, rest) => some (.unit u :: ps, rest)
    | _, _ => none
  -- backslash and one letter
  | 0x5c :: e :: rest =>
    match escaped? e, pieces? rest with
    | some b, some (ps, rest) => some (.byte b :: ps, rest)
    | _, _ => none
  | b :: rest =>
    if b < 0x20 then none
    else
      match pieces? rest with
      | some (ps, rest) => some (.byte b :: ps, rest)
      | none => none

/-- Whether a unit is the first half of a surrogate pair. -/
def isHighSurrogate (u : Nat) : Bool := 0xd800 ≤ u && u < 0xdc00

/-- Whether a unit is the second half of a surrogate pair. -/
def isLowSurrogate (u : Nat) : Bool := 0xdc00 ≤ u && u < 0xe000

/-- The UTF-8 form of a code point. -/
def codePoint (n : Nat) : Bytes := String.utf8EncodeChar (Char.ofNat n)

/-- The bytes of the parts of a literal. A half of a surrogate pair has to stand beside the other
half. -/
def join? : List Piece → Option Bytes
  | [] => some []
  | .byte b :: rest => (join? rest).map (b :: ·)
  | .unit high :: .unit low :: rest =>
    if isHighSurrogate high then
      if isLowSurrogate low then
        (join? rest).map (codePoint (0x10000 + (high - 0xd800) * 0x400 + (low - 0xdc00)) ++ ·)
      else none
    else if isLowSurrogate high then none
    else (join? (.unit low :: rest)).map (codePoint high ++ ·)
  | .unit u :: rest =>
    if isHighSurrogate u || isLowSurrogate u then none
    else (join? rest).map (codePoint u ++ ·)

/-- The text that the parts of a literal name, if they name one. -/
def textOf? (ps : List Piece) : Option String := (join? ps).bind ofUtf8?

end ReplicaIntake.Json
