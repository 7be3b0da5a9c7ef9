import ShardConsole.Decimal.Layout
import ShardConsole.Decimal.Scaled
import ShardConsole.Text.Scanning

/-!
# JSON Numerals

How numbers are spelled in JSON: an optional minus sign, a whole part without
leading zeros, an optional fraction and an optional power of ten.

A numeral is a whole number only if it has neither fraction nor power, and `-0` is
not one either, because it carries a sign that no whole number has. Read as a
double, a numeral has the significand made of its leading digits, as many as fit in
64 bits, times the power of ten that puts the point in its place.

## Main definitions

* `Numeral`: The parts of a spelled number.
* `Numeral.scan?`: A numeral at the start of a text.
* `Numeral.toInt?`, `Numeral.toDouble?`: What a numeral stands for.
* `Numeral.ofInt`, `Numeral.ofDouble?`: The canonical spellings.
-/

namespace ShardConsole

namespace Json

/-- The parts of a spelled number. -/
structure Numeral where
  negative : Bool
  whole : List Char
  /-- The digits after the point. -/
  fraction : Option (List Char)
  /-- Whether the power of ten is negative, and its digits. -/
  power : Option (Bool × List Char)
deriving DecidableEq

/-- The digits at the start of a text, and the rest. -/
def digits (s : List Char) : List Char × List Char :=
  (s.takeWhile Char.isDigit, s.dropWhile Char.isDigit)

/-- The digits at the start of a text, of which there has to be one. -/
def someDigits? (s : List Char) : Option (List Char × List Char) :=
  if (digits s).1 = [] then none else some (digits s)

namespace Numeral

/-- The whole part: a single zero, or digits that begin with another one. -/
def scanWhole? (s : List Char) : Option (List Char × List Char) :=
  match s with
  | '0' :: rest => some (['0'], rest)
  | _ => someDigits? s

/-- The fraction, if there is a point. -/
def scanFraction? (s : List Char) : Option (Option (List Char) × List Char) :=
  match s with
  | '.' :: rest => (someDigits? rest).map fun (ds, rest) => (some ds, rest)
  | _ => some (none, s)

/-- The digits of a power of ten after its optional sign. -/
def scanSigned? (s : List Char) : Option ((Bool × List Char) × List Char) :=
  match s with
  | '-' :: rest => (someDigits? rest).map fun (ds, rest) => ((true, ds), rest)
  | '+' :: rest => (someDigits? rest).map fun (ds, rest) => ((false, ds), rest)
  | _ => (someDigits? s).map fun (ds, rest) => ((false, ds), rest)

/-- The power of ten, if there is the letter for it. -/
def scanPower? (s : List Char) : Option (Option (Bool × List Char) × List Char) :=
  match s with
  | 'e' :: rest | 'E' :: rest => (scanSigned? rest).map fun (p, rest) => (some p, rest)
  | _ => some (none, s)

/-- A numeral at the start of a text, and the rest. -/
def scan? (s : List Char) : Option (Numeral × List Char) := do
  let (negative, s) := match s with
    | '-' :: rest => (true, rest)
    | _ => (false, s)
  let (whole, s) ← scanWhole? s
  let (fraction, s) ← scanFraction? s
  let (power, s) ← scanPower? s
  return (⟨negative, whole, fraction, power⟩, s)

/-- The spelling of a numeral. -/
def text (n : Numeral) : List Char :=
  (if n.negative then ['-'] else []) ++ n.whole ++
    (match n.fraction with
      | none => []
      | some ds => '.' :: ds) ++
    (match n.power with
      | none => []
      | some (negative, ds) => 'e' :: (if negative then '-' else '+') :: ds)

/-- The whole number that a numeral stands for, if it is one. -/
def toInt? (n : Numeral) : Option Int :=
  if n.fraction.isSome ∨ n.power.isSome then none
  else
    let value := Text.number 10 n.whole
    if n.negative then (if value = 0 then none else some (-value)) else some value

/-- Takes digits into a significand for as long as it fits in 64 bits, and counts
    those that were taken. -/
def absorb (significand : Nat) : List Char → Nat × Nat
  | [] => (significand, 0)
  | d :: ds =>
    let next := 10 * significand + (Text.digitValue? d).getD 0
    if next < UInt64.size then ((absorb next ds).1, (absorb next ds).2 + 1) else (significand, 0)

/-- The double that a numeral stands for, or nothing if it is infinite. Digits of
    the whole part that do not fit in the significand still count for the power. -/
def toDouble? (n : Numeral) : Option Double :=
  let (significand, taken) := absorb 0 n.whole
  let (significand, places) := absorb significand (n.fraction.getD [])
  let power : Int := match n.power with
    | none => 0
    | some (negative, ds) =>
      if negative then -(Text.number 10 ds : Int) else Text.number 10 ds
  let shift := power + (n.whole.length - taken : Nat) - places
  (Decimal.scaled? significand shift).map (·.withSign n.negative)

/-- The numeral of a whole number. -/
def ofInt (i : Int) : Numeral :=
  ⟨i < 0, Nat.toDigits 10 i.natAbs, none, none⟩

/-- Numbers with a fraction are written out in full while the leading digit stands
    for a power of ten between -5 and 15, and always show a fraction there; of two
    equally near shortest forms the even one is taken. -/
def layout : Decimal.Layout :=
  ⟨some (-5, 15), true, .toEven⟩

/-- The numeral of a double, unless it is infinite or not a number. -/
def ofDouble? (x : Double) : Option Numeral :=
  match x.parts with
  | .finite _ _ => (scan? (layout.text x).toList).map (·.1)
  | _ => none

end Numeral

end Json

end ShardConsole
