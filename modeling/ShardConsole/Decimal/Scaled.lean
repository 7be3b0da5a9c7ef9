import ShardConsole.Decimal.Double

/-!
# Scaled Significands

A decimal turned into a double in floating-point arithmetic: the significand is
rounded to a double, and so is the power of ten, and their product or quotient is
rounded again.

The powers of ten up to `10 ^ 308` have a double. A larger power cannot multiply
anything but zero without overflowing; a division by one is carried out in several
steps.

## Main definitions

* `Double.times`, `Double.dividedBy`: Products and quotients of finite doubles.
* `scaled?`: A significand times a power of ten.
-/

namespace ShardConsole

namespace Double

/-- The double nearest to a natural number. -/
def ofNat (n : Nat) : Double :=
  ofRatio false n 1

/-- The product of two doubles that are finite and not negative. -/
def times (x y : Double) : Double :=
  match x.toRatio?, y.toRatio? with
  | some (a, b), some (c, d) => ofRatio false (a * c) (b * d)
  | _, _ => x

/-- The quotient of two doubles that are finite and not negative, the second of
    them not zero. -/
def dividedBy (x y : Double) : Double :=
  match x.toRatio?, y.toRatio? with
  | some (a, b), some (c, d) => ofRatio false (a * d) (b * c)
  | _, _ => x

/-- The same magnitude with a given sign. -/
def withSign (x : Double) (negative : Bool) : Double :=
  ⟨UInt64.ofNat (x.bits.toNat % signBit + if negative then signBit else 0)⟩

end Double

namespace Decimal

/-- The greatest power of ten that has a double. -/
def greatestPower : Nat := 308

/-- Divides by a power of ten, in steps of the greatest one; `fuel` bounds the steps,
    and four take every double to zero. -/
def divideByPower (fuel : Nat) (x : Double) (power : Nat) : Double :=
  match fuel with
  | 0 => x
  | fuel + 1 =>
    if power ≤ greatestPower then x.dividedBy (Double.ofNat (Nat.pow 10 power))
    else if x.isZero then x
    else divideByPower fuel (x.dividedBy (Double.ofNat (Nat.pow 10 greatestPower))) (power - greatestPower)

/-- A significand times a power of ten, or nothing if that is infinite. -/
def scaled? (significand : Nat) (power : Int) : Option Double :=
  let x := Double.ofNat significand
  if power < 0 then some (divideByPower 4 x power.natAbs)
  else if x.isZero then some x
  else if power.natAbs ≤ greatestPower then
    let product := x.times (Double.ofNat (Nat.pow 10 power.natAbs))
    if product.isInfinite then none else some product
  else none

end Decimal

end ShardConsole
