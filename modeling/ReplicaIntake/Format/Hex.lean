import ReplicaIntake.Format.Utf8

/-!
# Bytes in hexadecimal

Two lower-case digits a byte. Reading takes digits of either case.
-/

namespace ReplicaIntake.Hex

/-- The digit of a number below sixteen, in lower case. -/
def digit (n : Nat) : Char := Char.ofNat (if n < 10 then 48 + n else 87 + n)

/-- The value of a hexadecimal digit of either case. -/
def value? (c : Char) : Option Nat :=
  if '0' ≤ c ∧ c ≤ '9' then some (c.toNat - 48)
  else if 'a' ≤ c ∧ c ≤ 'f' then some (c.toNat - 87)
  else if 'A' ≤ c ∧ c ≤ 'F' then some (c.toNat - 55)
  else none

/-- The two digits of a byte. -/
def byte (b : UInt8) : List Char := [digit (b.toNat / 16), digit (b.toNat % 16)]

/-- Bytes as text, two digits each. -/
def encode (bs : Bytes) : String := String.ofList (bs.flatMap byte)

/-- The bytes of pairs of digits. -/
def pairs? : List Char → Option Bytes
  | [] => some []
  | [_] => none
  | a :: b :: rest =>
    match value? a, value? b, pairs? rest with
    | some x, some y, some bs => some (UInt8.ofNat (16 * x + y) :: bs)
    | _, _, _ => none

/-- The bytes of a text of digits, two for each byte. -/
def decode? (s : String) : Option Bytes := pairs? s.toList

end ReplicaIntake.Hex
