import ReplicaIntake.Format.Utf8

/-!
# Binary numbers, texts and sequences of unknown length

A number is written in groups of seven bits, lowest group first; every byte but the last has its
high bit set. A text or a sequence is its length as such a number, followed by its content. What is
written this way says itself where it ends, so a reader returns what it read and the bytes that
follow.

A number takes at most ten bytes, and the tenth may only add the last bit of a 64-bit word. Within
that, forms longer than necessary are read too.
-/

namespace ReplicaIntake.Binary

/-- Why bytes are no binary form. -/
inductive Fault where
  /-- The bytes end inside the form. -/
  | endOfBuffer
  /-- A number does not end within the bits of a word. -/
  | unterminated
  /-- The bytes of a text are no UTF-8. -/
  | notText
  deriving DecidableEq

/-- A fault in words. -/
def Fault.message : Fault → String
  | .endOfBuffer => "Hit the end of buffer, expected more data"
  | .unterminated => "Found a varint that didn't terminate. Is the usize too big for this platform?"
  | .notText => "Tried to parse invalid utf-8"

/-- A reader: what it read and the bytes that follow, or why it could not read. -/
abbrev Reader (α : Type) := Bytes → Except Fault (α × Bytes)

/-! ## §1 Numbers -/

/-- A number in groups of seven bits, lowest first. -/
def writeNat (n : Nat) : Bytes :=
  if n < 128 then [n.toUInt8] else (n % 128 + 128).toUInt8 :: writeNat (n / 128)
termination_by n
decreasing_by omega

/-- Reads a number of at most `left` bytes, the tenth of which may only be 0 or 1. -/
def readGroups : (left : Nat) → Reader Nat
  | 0, _ => .error .unterminated
  | _ + 1, [] => .error .endOfBuffer
  | left + 1, b :: rest =>
    if b.toNat < 128 then
      if left = 0 ∧ 1 < b.toNat then .error .unterminated else .ok (b.toNat, rest)
    else
      match readGroups left rest with
      | .ok (n, rest) => .ok (b.toNat - 128 + 128 * n, rest)
      | .error e => .error e

/-- Reads a number below 2^64. -/
def readNat : Reader Nat := readGroups 10

/-! ## §2 Lengths before content -/

/-- A byte string after its length. -/
def writeBytes (bs : Bytes) : Bytes := writeNat bs.length ++ bs

/-- Reads a length and as many bytes. -/
def readBytes : Reader Bytes := fun input =>
  match readNat input with
  | .error e => .error e
  | .ok (n, rest) => if rest.length < n then .error .endOfBuffer else .ok (rest.splitAt n)

/-- A text as its bytes after their number. -/
def writeText (s : String) : Bytes := writeBytes (utf8 s)

/-- Reads a text. -/
def readText : Reader String := fun input =>
  match readBytes input with
  | .error e => .error e
  | .ok (bs, rest) =>
    match ofUtf8? bs with
    | some s => .ok (s, rest)
    | none => .error .notText

end ReplicaIntake.Binary
