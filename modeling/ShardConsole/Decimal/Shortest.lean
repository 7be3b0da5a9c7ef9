import ShardConsole.Decimal.Double

/-!
# Shortest Decimals

The decimal with the fewest digits that identifies a double.

The real numbers that round to a double form an interval: it reaches halfway to
the neighbour on either side, and its ends belong to it exactly if the mantissa is
even. Among the decimals in that interval, those with the fewest digits are
wanted, and among these the one nearest to the double. On the grid of decimals
with a given number of digits only the two neighbours of the double need to be
tried, because if any point of a grid lies in the interval, so does one of them.

## Main definitions

* `Scientific`: A decimal as a coefficient and a power of ten.
* `Interval`: A value between the ends of its rounding interval.
* `Interval.onGrid?`: The best decimal of a grid inside the interval.
* `shortest`: The shortest decimal of a mantissa and an exponent.
-/

namespace ShardConsole

namespace Decimal

/-- The number `coefficient * 10 ^ exponent`. -/
structure Scientific where
  coefficient : Nat
  exponent : Int
deriving DecidableEq

/-- Which of two equally near decimals is taken. -/
inductive Tie
  | up
  | toEven
deriving DecidableEq

/-- A value and the ends of the interval of reals that round to it, all over one
    denominator. -/
structure Interval where
  low : Nat
  value : Nat
  high : Nat
  denominator : Nat
  closed : Bool

/-- The rounding interval of `mantissa * 2 ^ exponent`. The neighbour below a power
    of two is only half as far away as the one above, except among the smallest
    numbers. -/
def Interval.ofParts (mantissa : Nat) (exponent : Int) : Interval :=
  let gapBelow := if mantissa = Double.exponentBit ∧ exponent ≠ -1074 then 1 else 2
  let unit := Nat.pow 2 exponent.toNat
  { low := (4 * mantissa - gapBelow) * unit
    value := 4 * mantissa * unit
    high := (4 * mantissa + 2) * unit
    denominator := 4 * Nat.pow 2 (-exponent).toNat
    closed := mantissa % 2 = 0 }

/-- Numerators of `coefficient * 10 ^ grid` and of `n / denominator` over one
    denominator. -/
def Interval.align (i : Interval) (coefficient n : Nat) (grid : Int) : Nat × Nat :=
  (coefficient * Nat.pow 10 grid.toNat * i.denominator, n * Nat.pow 10 (-grid).toNat)

/-- Whether `coefficient * 10 ^ grid` lies in the interval. -/
def Interval.holds (i : Interval) (coefficient : Nat) (grid : Int) : Bool :=
  let (l, low) := i.align coefficient i.low grid
  let (h, high) := i.align coefficient i.high grid
  if i.closed then low ≤ l && h ≤ high else low < l && h < high

/-- The largest multiple of `10 ^ grid` that is not above the value, as its
    coefficient. -/
def Interval.floorOn (i : Interval) (grid : Int) : Nat :=
  i.value * Nat.pow 10 (-grid).toNat / (i.denominator * Nat.pow 10 grid.toNat)

/-- Whether the upper of two neighbouring grid points is taken, of which both lie in
    the interval: it is nearer, or equally near and preferred. -/
def Interval.prefersUpper (i : Interval) (tie : Tie) (lower : Nat) (grid : Int) : Bool :=
  let (sum, twice) := i.align (2 * lower + 1) (2 * i.value) grid
  sum < twice || (sum = twice && (tie = .up || lower % 2 = 1))

/-- The best multiple of `10 ^ grid` inside the interval, if there is one. -/
def Interval.onGrid? (i : Interval) (tie : Tie) (grid : Int) : Option Scientific :=
  let lower := i.floorOn grid
  let coefficient? :=
    match i.holds lower grid, i.holds (lower + 1) grid with
    | true, true => some (if i.prefersUpper tie lower grid then lower + 1 else lower)
    | true, false => some lower
    | false, true => some (lower + 1)
    | false, false => none
  coefficient?.map fun c => ⟨c, grid⟩

/-- The least `k` with `mantissa * 2 ^ exponent < 10 ^ k`, for a positive mantissa:
    the binary logarithm leaves a few candidates. -/
def magnitude (mantissa : Nat) (exponent : Int) : Int :=
  let estimate := ((mantissa.log2 : Int) + exponent) * 30103 / 100000
  let below (k : Int) : Bool :=
    mantissa * Nat.pow 2 exponent.toNat * Nat.pow 10 (-k).toNat <
      Nat.pow 10 k.toNat * Nat.pow 2 (-exponent).toNat
  ([estimate, estimate + 1].find? below).getD (estimate + 2)

/-- Moves trailing zeros of the coefficient into the exponent; `fuel` bounds their
    number. -/
def Scientific.strip (fuel : Nat) (s : Scientific) : Scientific :=
  match fuel with
  | 0 => s
  | fuel + 1 =>
    if s.coefficient ≠ 0 ∧ s.coefficient % 10 = 0 then
      strip fuel ⟨s.coefficient / 10, s.exponent + 1⟩
    else s

/-- The decimal that is exactly `mantissa * 2 ^ exponent`. -/
def exact (mantissa : Nat) (exponent : Int) : Scientific :=
  ⟨mantissa * Nat.pow 2 exponent.toNat * Nat.pow 5 (-exponent).toNat, min exponent 0⟩

/-- The shortest decimal that rounds to `mantissa * 2 ^ exponent`, and the nearest
    of those. Seventeen digits always suffice. -/
def shortest (tie : Tie) (mantissa : Nat) (exponent : Int) : Scientific :=
  if mantissa = 0 then ⟨0, 0⟩
  else
    let interval := Interval.ofParts mantissa exponent
    let k := magnitude mantissa exponent
    let found := (List.range 17).findSome? fun (n : Nat) => interval.onGrid? tie (k - (n + 1))
    (found.getD (exact mantissa exponent)).strip 17

end Decimal

end ShardConsole
