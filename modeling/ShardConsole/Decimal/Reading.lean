import ShardConsole.Decimal.Double

/-!
# Reading Decimals

The double nearest to a decimal, by exact arithmetic.

A decimal far above the greatest double is infinite and one far below the least is
zero; both are told apart by the place of the leading digit, so that no huge power
of ten is ever formed.

## Main definitions

* `Double.ofDecimal`: The double nearest to a coefficient times a power of ten.
-/

namespace ShardConsole

namespace Double

/-- Infinity. -/
def infinity (negative : Bool) : Double :=
  ofRatio negative (Nat.pow 2 1024) 1

/-- The double nearest to `coefficient * 10 ^ exponent`, where the coefficient has at
    most `length` digits. -/
def ofDecimal (negative : Bool) (coefficient length : Nat) (exponent : Int) : Double :=
  if coefficient = 0 ∨ exponent + length < -330 then ofRatio negative 0 1
  else if 330 < exponent then infinity negative
  else ofRatio negative (coefficient * Nat.pow 10 exponent.toNat) (Nat.pow 10 (-exponent).toNat)

end Double

end ShardConsole
