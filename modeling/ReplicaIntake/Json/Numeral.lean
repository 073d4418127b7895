import ReplicaIntake.Format.Double
import ReplicaIntake.Json.Basic

/-!
# How large a written number is

A number of any length is read as a 64-bit significand and a power of ten. Digits enter the
significand as long as it stays below 2^64; of the others only the place counts, and digits after the
point are taken up again when those before it did not fit. The two factors are then multiplied in
double precision, which settles whether the number is finite.
-/

namespace ReplicaIntake.Json.Numeral

/-- Whether the number is written without point and exponent. -/
def isWhole (n : Numeral) : Bool := n.fraction.isEmpty && n.exponent.isNone

/-- Appends digits to a significand up to the first one with which it would reach 2^64. Answers the
significand and the digits that are left. -/
def fill (significand : Nat) : List Nat → Nat × List Nat
  | [] => (significand, [])
  | d :: rest =>
    if 10 * significand + d < UInt64.size then fill (10 * significand + d) rest
    else (significand, d :: rest)

/-- The significand stays a 64-bit word. -/
theorem fill_lt {significand : Nat} (h : significand < UInt64.size) (ds : List Nat) :
    (fill significand ds).1 < UInt64.size := by
  fun_induction fill significand ds with
  | case1 => exact h
  | case2 _ _ _ hlt ih => exact ih hlt
  | case3 => exact h

/-- The number without its sign as a significand and the power of ten that scales it. A digit before
the point that is left scales the significand up, and one after the point that is taken scales it
down. -/
def scaled (n : Numeral) : Nat × Int :=
  let (whole, left) := fill 0 (Decimal.digits n.whole)
  let (significand, ignored) := fill whole n.fraction
  let taken := n.fraction.length - ignored.length
  (significand, n.exponent.getD 0 + left.length - taken)

/-- Whether the number is finite in double precision. -/
def isFinite (n : Numeral) : Bool := Double.isFiniteProduct n.scaled.1 n.scaled.2

end ReplicaIntake.Json.Numeral
