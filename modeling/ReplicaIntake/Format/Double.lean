import ReplicaIntake.Format.Decimal

/-!
# Overflow in double precision

A number in double precision has a significand of 53 bits. Nothing is computed in double precision
here: what matters of a decimal is whether it is still finite, and naturals decide that exactly.

There are two ways to round a decimal. Rounded once (`isFinite`), only its value counts. Rounded as a
product (`isFiniteProduct`), the significand and the power of ten are rounded first, so a decimal
close to the limit may fall on the other side of it.
-/

namespace ReplicaIntake.Double

/-- The least number that is not finite: it lies halfway between the greatest finite number and the
power of two above it. -/
def limit : Nat := Nat.pow 2 1024 - Nat.pow 2 970

/-! ## §1 Rounded once -/

/-- Whether `mantissa` times ten to the power of `exponent` is finite. The number of digits decides
all but the numbers of 309 digits, so that no large power is taken. -/
def isFinite (mantissa : Nat) (exponent : Int) : Bool :=
  let places : Int := (Decimal.digits mantissa).length + exponent
  if mantissa = 0 then true
  else if places < 309 then true
  else if 309 < places then false
  else if 0 ≤ exponent then mantissa * Nat.pow 10 exponent.toNat < limit
  else mantissa < limit * Nat.pow 10 (-exponent).toNat

/-! ## §2 Rounded as a product -/

/-- The nearest number with a significand of 53 bits. Of two that are equally near it is the one with
the even significand. -/
def nearest (n : Nat) : Nat :=
  let unit := Nat.pow 2 (n.log2 - 52)
  let below := n / unit
  let rest := n % unit
  let significand :=
    if 2 * rest < unit then below
    else if unit < 2 * rest then below + 1
    else below + below % 2
  significand * unit

/-- A number of at most 53 bits is exact. -/
theorem nearest_of_log2_le {n : Nat} (h : n.log2 ≤ 52) : nearest n = n := by
  simp [nearest, Nat.sub_eq_zero_of_le h, Nat.mod_one]

/-- The greatest exponent of a finite power of ten. -/
def maxPower : Int := 308

/-- Whether `significand` times ten to the power of `exponent` is finite when both factors are
rounded before the product is. With a negative exponent the significand is divided, which keeps it
finite. -/
def isFiniteProduct (significand : Nat) (exponent : Int) : Bool :=
  significand = 0 ||
    exponent ≤ maxPower &&
      nearest significand * nearest (Nat.pow 10 exponent.toNat) < limit

end ReplicaIntake.Double
