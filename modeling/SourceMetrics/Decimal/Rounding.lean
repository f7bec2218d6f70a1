/-
# The nearest integer

A float is rounded by its bits: the number without its sign goes to the
nearest natural number, a half up, and then has its sign back, so that a
half goes away from zero.  What is out of the range of 64 bits goes to its
end, and what is no number to zero.
-/
import SourceMetrics.Decimal.Shortest

namespace SourceMetrics.Decimal

/-- The nearest natural number, a half up. -/
def Binary.nearest (b : Binary) : Nat :=
  let up := twoTo b.exponent.toNat
  let down := twoTo (-b.exponent).toNat
  (2 * (b.mantissa * up) + down) / (2 * down)

/-- The integer of 64 bits that is nearest. -/
def clamped (n : Int) : Int :=
  if n < -0x8000000000000000 then -0x8000000000000000
  else if n < 0x8000000000000000 then n
  else 0x7fffffffffffffff

/-- The nearest integer of 64 bits to a float. -/
def nearestInt (x : Float) : Int :=
  let bits := x.toBits.toNat
  let magnitude := bits % twoTo 63
  let n : Int := (Binary.ofBits magnitude).nearest
  if 0x7ff0000000000000 < magnitude then 0
  else clamped (if bits / twoTo 63 = 1 then -n else n)

end SourceMetrics.Decimal
