/-
# `Shortest` — the fewest digits that read back

A floating-point number stands for an interval of reals: those that round
to it.  Of all decimals within that interval the one with the fewest digits
is written, and of several such the nearest; a tie goes to the even digit.

All arithmetic is exact, on natural numbers.  On the grid of multiples of
`10 ^ e` only the two neighbours of the number need a look: if any point of
the grid lies in the interval, so does one of them.
-/
namespace SourceMetrics.Decimal

/-- A positive number `mantissa * 2 ^ exponent`, as floating point holds it. -/
structure Binary where
  mantissa : Nat
  exponent : Int
  /-- Whether the next lower number is only half as far away as the next
  higher. -/
  isNarrowBelow : Bool
deriving DecidableEq, Repr

/-- A decimal `digits * 10 ^ exponent`. -/
structure Digits where
  digits : Nat
  exponent : Int
deriving DecidableEq, Repr

/-- A power of two. -/
def twoTo (n : Nat) : Nat := Nat.pow 2 n

/-- A power of ten. -/
def tenTo (n : Nat) : Nat := Nat.pow 10 n

namespace Binary

/-- The number without its sign that the bits of a finite, non-zero float
stand for. -/
def ofBits (bits : Nat) : Binary :=
  let field := bits / twoTo 52 % twoTo 11
  let fraction := bits % twoTo 52
  if field = 0 then ⟨fraction, -1074, false⟩
  else ⟨twoTo 52 + fraction, (field : Int) - 1075, fraction = 0 && 1 < field⟩

/-- Multiples of `2 ^ (exponent - 2)` as fractions: what a multiple is to be
multiplied and divided by. -/
def scale (b : Binary) : Nat × Nat :=
  let u := b.exponent - 2
  (twoTo u.toNat, twoTo (-u).toNat)

/-- The lower end of the interval, in quarters of the last place. -/
def low (b : Binary) : Nat := 4 * b.mantissa - (if b.isNarrowBelow then 1 else 2)

/-- The upper end of the interval, in quarters of the last place. -/
def high (b : Binary) : Nat := 4 * b.mantissa + 2

/-- Whether the ends belong to the interval. -/
def isClosed (b : Binary) : Bool := b.mantissa % 2 = 0

/-- A fraction of natural numbers for `n * 10 ^ e`. -/
def tenfold (n : Nat) (e : Int) : Nat × Nat := (n * tenTo e.toNat, tenTo (-e).toNat)

/-- How `quarters` quarters of the last place compare with `n * 10 ^ e`. -/
def compareQuarters (b : Binary) (quarters n : Nat) (e : Int) : Ordering :=
  let (up, down) := b.scale
  let (num, den) := tenfold n e
  compare (quarters * up * den) (num * down)

/-- Whether `n * 10 ^ e` lies in the interval. -/
def holds (b : Binary) (n : Nat) (e : Int) : Bool :=
  let below := b.compareQuarters b.low n e
  let above := b.compareQuarters b.high n e
  (below == .lt || (b.isClosed && below == .eq)) &&
    (above == .gt || (b.isClosed && above == .eq))

/-- The largest `n` with `n * 10 ^ e` not above the number. -/
def floorAt (b : Binary) (e : Int) : Nat :=
  let (up, down) := b.scale
  let (num, den) := tenfold 1 e
  (4 * b.mantissa * up * den) / (down * num)

/-- The better of two neighbours on a grid that both lie in the interval. -/
def nearer (b : Binary) (n : Nat) (e : Int) : Nat :=
  let (up, down) := b.scale
  let (num, den) := tenfold (2 * n + 1) e
  match compare (2 * (4 * b.mantissa * up * den)) (num * down) with
  | .lt => n
  | .gt => n + 1
  | .eq => if n % 2 = 0 then n else n + 1

/-- The decimal on the grid of `10 ^ e` that lies in the interval. -/
def onGrid (b : Binary) (e : Int) : Option Digits :=
  let n := b.floorAt e
  match n ≠ 0 && b.holds n e, b.holds (n + 1) e with
  | true, true => some ⟨b.nearer n e, e⟩
  | true, false => some ⟨n, e⟩
  | false, true => some ⟨n + 1, e⟩
  | false, false => none

/-- The exponent of the first power of ten above the number. -/
def decade (b : Binary) : Int :=
  (Nat.toDigits 10 (b.floorAt (-330))).length - 330

/-- The shortest decimal that reads back as the number. -/
def shortest (b : Binary) : Digits :=
  let top := b.decade
  let found := (List.range 18).findSome? fun (k : Nat) => b.onGrid (top - (k : Int))
  found.getD ⟨b.floorAt (top - 18), top - 18⟩

end Binary
end SourceMetrics.Decimal
