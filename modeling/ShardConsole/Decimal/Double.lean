/-!
# Double-Precision Numbers

The binary floating-point numbers of 64 bits, held as their bits so that every
fact about them is a fact about natural numbers.

A word consists of a sign, an exponent field of eleven bits and a fraction of 52
bits. With the exponent field full it is an infinity or, with a fraction, not a
number at all; otherwise it stands for a whole number times a power of two.

## Main definitions

* `Double`: A double, as its bits.
* `Double.parts`: What the bits stand for, apart from the sign.
* `Double.ofRatio`: The double nearest to a quotient of naturals.
* `Double.same`: Equality of numbers, under which zeros are equal and a NaN is
  equal to nothing.
-/

namespace ShardConsole

/-- A double-precision number, as its bits. -/
structure Double where
  bits : UInt64
deriving DecidableEq, Inhabited

namespace Double

/-- What a double stands for, apart from its sign. -/
inductive Parts
  | nan
  | infinite
  /-- The number `mantissa * 2 ^ exponent`. -/
  | finite (mantissa : Nat) (exponent : Int)
deriving DecidableEq

/-- Positive zero. -/
def zero : Double := ⟨0⟩

/-- What the sign bit counts for in a word. -/
def signBit : Nat := 0x8000000000000000

/-- What the last bit of the exponent field counts for in a word, which is also the
    number of fractions. -/
def exponentBit : Nat := 0x10000000000000

/-- Whether the sign bit is set. -/
def isNegative (x : Double) : Bool :=
  signBit ≤ x.bits.toNat

/-- The eleven bits of the exponent. -/
def exponentField (x : Double) : Nat :=
  x.bits.toNat / exponentBit % 2048

/-- The 52 bits of the fraction. -/
def fraction (x : Double) : Nat :=
  x.bits.toNat % exponentBit

/-- What a double stands for, apart from its sign. -/
def parts (x : Double) : Parts :=
  if x.exponentField = 2047 then
    if x.fraction = 0 then .infinite else .nan
  else if x.exponentField = 0 then .finite x.fraction (-1074)
  else .finite (exponentBit + x.fraction) (x.exponentField - 1075)

/-- Whether a double is not a number. -/
def isNan (x : Double) : Bool :=
  x.parts = .nan

/-- Whether a double is infinite. -/
def isInfinite (x : Double) : Bool :=
  x.parts = .infinite

/-- Whether a double is one of the two zeros. -/
def isZero (x : Double) : Bool :=
  x.bits.toNat % signBit = 0

/-- Equality of numbers: a NaN is equal to nothing, and the two zeros are equal. -/
def same (x y : Double) : Bool :=
  !x.isNan && !y.isNan && (x = y || (x.isZero && y.isZero))

/-- The whole number nearest to a quotient; a half goes to the even neighbour. -/
def roundHalfEven (num den : Nat) : Nat :=
  let floor := num / den
  let twice := 2 * (num % den)
  if twice < den then floor
  else if den < twice then floor + 1
  else if floor % 2 = 0 then floor else floor + 1

/-- `num / den * 2 ^ shift` as a numerator and a denominator. -/
def scaleBy (num den : Nat) (shift : Int) : Nat × Nat :=
  (num * Nat.pow 2 shift.toNat, den * Nat.pow 2 (-shift).toNat)

/-- The double with the given sign nearest to a quotient whose denominator is not
    zero: the mantissa has 53 bits unless that would take the exponent below
    -1074, a half goes to the even neighbour, and what rounds past the largest
    finite double is infinite. The exponent field and the fraction are added, so
    that a mantissa rounded up to 54 bits carries into the exponent. -/
def ofRatio (negative : Bool) (num den : Nat) : Double :=
  if num = 0 then ⟨if negative then 0x8000000000000000 else 0⟩
  else
    let guess : Int := (num.log2 : Int) - den.log2 - 53
    let atGuess := scaleBy num den (-guess)
    let normal := if atGuess.1 / atGuess.2 < 2 * exponentBit then guess else guess + 1
    let exponent := max normal (-1074)
    let scaled := scaleBy num den (-exponent)
    let mantissa := roundHalfEven scaled.1 scaled.2
    let magnitude := min ((exponent + 1074).toNat * exponentBit + mantissa) (2047 * exponentBit)
    ⟨UInt64.ofNat (magnitude + if negative then signBit else 0)⟩

/-- The quotient of naturals that a finite double is, apart from its sign. -/
def toRatio? (x : Double) : Option (Nat × Nat) :=
  match x.parts with
  | .finite m q => some (scaleBy m 1 q)
  | _ => none

end Double

end ShardConsole
