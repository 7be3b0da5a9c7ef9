import ShardConsole.Decimal.Reading
import ShardConsole.Text.Scanning
import ShardConsole.Toml.Node

/-!
# TOML Numbers and Moments

Integers, decimals, dates and times.

Digits may be grouped by single underscores between them. A decimal integer has no
leading zeros; after `0x`, `0o` and `0b` any digits of that base may stand, but no
sign. Integers have 64 bits. A decimal needs digits on both sides of its point; one
that is so great that it would be infinite is refused, unless it is negative.
A date has to exist in the calendar; a minute may have a leap second.

## Main definitions

* `scanInteger?`, `scanDecimal?`: The two kinds of number.
* `scanMoment?`: A date, a time or both.
* `scanNumber?`: Whatever begins with a sign or a digit.
-/

namespace ShardConsole

namespace Toml

/-- The digits that may follow a first one: each on its own or behind an
    underscore. -/
def moreDigits? (isOk : Char → Bool) : List Char → Option (List Char × List Char)
  | [] => some ([], [])
  | '_' :: [] => none
  | '_' :: d :: rest =>
    if isOk d then (moreDigits? isOk rest).map fun (ds, rest) => (d :: ds, rest) else none
  | d :: rest =>
    if isOk d then (moreDigits? isOk rest).map fun (ds, rest) => (d :: ds, rest)
    else some ([], d :: rest)

/-- One or more digits. -/
def scanDigits? (isOk : Char → Bool) (s : List Char) : Option (List Char × List Char) :=
  match s with
  | [] => none
  | d :: rest =>
    if isOk d then (moreDigits? isOk rest).map fun (ds, rest) => (d :: ds, rest) else none

/-- A sign, and the rest of the text. -/
def scanSign (s : List Char) : Bool × List Char :=
  match s with
  | '-' :: rest => (true, rest)
  | '+' :: rest => (false, rest)
  | _ => (false, s)

/-- Decimal digits without a leading zero, unless there is only that one. -/
def scanWhole? (s : List Char) : Option (List Char × List Char) :=
  match s with
  | '0' :: rest => some (['0'], rest)
  | _ => scanDigits? Char.isDigit s

/-- An integer, if it has 64 bits. -/
def integer? (negative : Bool) (value : Nat) : Option Node :=
  let i : Int := if negative then -value else value
  if Int64.minValue.toInt ≤ i ∧ i ≤ Int64.maxValue.toInt then some (.integer i) else none

/-- An integer in a base other than ten, after its mark. -/
def scanInBase? (base : Nat) (isOk : Char → Bool) (s : List Char) : Option (Node × List Char) := do
  let (ds, rest) ← scanDigits? isOk s
  return (← integer? false (Text.number base ds), rest)

/-- An integer at the start of a text. -/
def scanInteger? (s : List Char) : Option (Node × List Char) :=
  match s with
  | '0' :: 'x' :: rest => scanInBase? 16 (fun c => (Text.digitValue? c).isSome) rest
  | '0' :: 'o' :: rest => scanInBase? 8 (fun c => '0' ≤ c && c ≤ '7') rest
  | '0' :: 'b' :: rest => scanInBase? 2 (fun c => c = '0' || c = '1') rest
  | _ => do
    let (negative, s) := scanSign s
    let (ds, rest) ← scanWhole? s
    return (← integer? negative (Text.number 10 ds), rest)

/-- The power of ten after its letter. -/
def scanPower? (s : List Char) : Option (Int × List Char) := do
  let (negative, s) := scanSign s
  let (ds, rest) ← scanDigits? Char.isDigit s
  let value : Int := Text.number 10 ds
  return (if negative then -value else value, rest)

/-- The fraction and the power of ten after a whole part, of which there has to be at
    least one. -/
def scanTail? (s : List Char) : Option ((List Char × Int) × List Char) :=
  match s with
  | 'e' :: rest | 'E' :: rest => (scanPower? rest).map fun (power, rest) => (([], power), rest)
  | '.' :: rest => do
    let (fraction, rest) ← scanDigits? Char.isDigit rest
    match rest with
    | 'e' :: rest | 'E' :: rest =>
      let (power, rest) ← scanPower? rest
      return ((fraction, power), rest)
    | _ => return ((fraction, 0), rest)
  | _ => none

/-- Infinity or a NaN, after its sign. -/
def scanSpecial? (negative : Bool) (s : List Char) : Option (Node × List Char) :=
  match Text.afterWord? ['i', 'n', 'f'] s with
  | some rest => some (.decimal (Double.infinity negative), rest)
  | none => (Text.afterWord? ['n', 'a', 'n'] s).map fun rest => (.decimal ⟨0x7FF8000000000000⟩, rest)

/-- A decimal at the start of a text. -/
def scanDecimal? (s : List Char) : Option (Node × List Char) :=
  let (negative, s) := scanSign s
  let finite? : Option (Node × List Char) := do
    let (whole, rest) ← scanWhole? s
    let ((fraction, power), rest) ← scanTail? rest
    let ds := whole ++ fraction
    let x := Double.ofDecimal negative (Text.number 10 ds) ds.length (power - fraction.length)
    if x.isInfinite && !negative then none else return (.decimal x, rest)
  finite?.orElse fun _ => scanSpecial? negative s

/-- A number of exactly two digits within bounds. -/
def scanTwo? (least greatest : Nat) (s : List Char) : Option (Nat × List Char) :=
  match s with
  | a :: b :: rest =>
    let value := Text.number 10 [a, b]
    if a.isDigit && b.isDigit && least ≤ value && value ≤ greatest then some (value, rest)
    else none
  | _ => none

/-- Whether a year has a leap day. -/
def isLeapYear (year : Nat) : Bool :=
  year % 4 = 0 && (year % 100 ≠ 0 || year % 400 = 0)

/-- The number of days of a month. -/
def daysOf (year month : Nat) : Nat :=
  if month = 2 then (if isLeapYear year then 29 else 28)
  else if month ∈ [4, 6, 9, 11] then 30
  else 31

/-- The rest of a text after a date. -/
def afterDate? (s : List Char) : Option (List Char) := do
  let year := s.take 4
  if year.length < 4 ∨ !year.all Char.isDigit then none
  let s ← Text.after? '-' (s.drop 4)
  let (month, s) ← scanTwo? 1 12 s
  let s ← Text.after? '-' s
  let (day, s) ← scanTwo? 1 31 s
  if day ≤ daysOf (Text.number 10 year) month then some s else none

/-- The rest of a text after a time of day. -/
def afterTime? (s : List Char) : Option (List Char) := do
  let (_, s) ← scanTwo? 0 23 s
  let s ← Text.after? ':' s
  let (_, s) ← scanTwo? 0 59 s
  let s ← Text.after? ':' s
  let (_, s) ← scanTwo? 0 60 s
  match s with
  | '.' :: d :: rest => some (if d.isDigit then rest.dropWhile Char.isDigit else s)
  | _ => some s

/-- The rest of a text after the offset of a time from universal time, which may be
    missing. -/
def afterOffset? (s : List Char) : Option (List Char) :=
  match s with
  | 'Z' :: rest | 'z' :: rest => some rest
  | '+' :: rest | '-' :: rest => do
    let (_, s) ← scanTwo? 0 23 rest
    let s ← Text.after? ':' s
    let (_, s) ← scanTwo? 0 59 s
    return s
  | _ => some s

/-- The rest of a text after a date, a time, or a date with a time and an offset. -/
def afterMoment? (s : List Char) : Option (List Char) :=
  match afterDate? s with
  | none => afterTime? s
  | some rest =>
    match rest with
    | 'T' :: time | 't' :: time | ' ' :: time =>
      match afterTime? time with
      | some rest => afterOffset? rest
      | none => some rest
    | _ => some rest

/-- A date, a time or both at the start of a text. -/
def scanMoment? (s : List Char) : Option (Node × List Char) :=
  (afterMoment? s).map fun rest => (.moment, rest)

/-- A moment or a number at the start of a text. -/
def scanNumber? (s : List Char) : Option (Node × List Char) :=
  ((scanMoment? s).orElse fun _ => scanDecimal? s).orElse fun _ => scanInteger? s

end Toml

end ShardConsole
