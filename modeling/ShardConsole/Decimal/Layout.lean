import ShardConsole.Decimal.Shortest

/-!
# Layout of Decimals

How the digits of a double are laid out as text.

The digits are always the shortest ones that identify the double. What remains to
be decided is a record: between which positions of the leading digit a number is
written out in full, whether a whole number shows a fraction, and which of two
equally near decimals is taken.

## Main definitions

* `Layout`: The decisions of a number format.
* `Layout.text`: The text of a double.
-/

namespace ShardConsole

namespace Decimal

/-- The decisions of a number format. -/
structure Layout where
  /-- The least and the greatest power of ten of the leading digit for which a
      number is written out in full; with no bounds every number is. -/
  inFull : Option (Int × Int)
  /-- Whether a whole number that is written out in full ends in `.0`. -/
  showFraction : Bool
  tie : Tie

/-- A run of zeros. -/
def zeros (n : Nat) : List Char :=
  List.replicate n '0'

/-- A number written out in full. -/
def Layout.full (l : Layout) (s : Scientific) : List Char :=
  let digits := Nat.toDigits 10 s.coefficient
  if 0 ≤ s.exponent then
    digits ++ zeros s.exponent.toNat ++ (if l.showFraction then ['.', '0'] else [])
  else
    let places := (-s.exponent).toNat
    if places < digits.length then
      digits.take (digits.length - places) ++ '.' :: digits.drop (digits.length - places)
    else '0' :: '.' :: zeros (places - digits.length) ++ digits

/-- A number written as one digit before the point and a signed power of ten. -/
def withPower (digits : List Char) (power : Int) : List Char :=
  let fraction := if digits.length ≤ 1 then [] else '.' :: digits.drop 1
  let sign := if power < 0 then '-' else '+'
  digits.take 1 ++ fraction ++ 'e' :: sign :: Nat.toDigits 10 power.natAbs

/-- The digits of a decimal laid out. -/
def Layout.body (l : Layout) (s : Scientific) : List Char :=
  let digits := Nat.toDigits 10 s.coefficient
  let power := s.exponent + digits.length - 1
  match l.inFull with
  | none => l.full s
  | some (least, greatest) =>
    if least ≤ power ∧ power ≤ greatest then l.full s else withPower digits power

/-- The text of a double. A minus sign shows the sign bit, also that of a zero, but
    not that of a NaN. -/
def Layout.text (l : Layout) (x : Double) : String :=
  let sign := if x.isNegative then ['-'] else []
  match x.parts with
  | .nan => "NaN"
  | .infinite => String.ofList (sign ++ ['i', 'n', 'f'])
  | .finite m q => String.ofList (sign ++ l.body (shortest l.tie m q))

end Decimal

end ShardConsole
