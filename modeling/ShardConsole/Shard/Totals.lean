import ShardConsole.Decimal.Layout
import ShardConsole.Metric.Basic
import Std.Data.ExtTreeSet

/-!
# Totals

What a collection holds under one name and one tag set: the total of the values
received so far, which has a different form for each kind.

A counter holds the sum, which stops at the ends of the 64-bit range instead of
wrapping around. A timer holds its samples in the order of arrival, a gauge its
last level and a set its distinct members in ascending order.

## Main definitions

* `Total`: What every form of total has: a start, a text and an equality.
* `Kind.Total`: The form of total of a kind.
* `Value.addTo`: A value merged into a total of its kind.
-/

namespace ShardConsole

/-- What every form of total has. -/
class Total (V : Type) where
  /-- The total before any value has been received. -/
  start : V
  /-- The total as it is shown in a listing. -/
  text : V → String
  /-- Equality of totals, which compares numbers and not their bits. -/
  same : V → V → Bool

/-- The samples of a timer in the order of arrival. -/
structure Samples where
  toArray : Array Double

/-- The distinct members of a set. -/
structure Members where
  toSet : Std.ExtTreeSet String

/-- Numbers in a listing are written out in full, whole numbers without a
    fraction; of two equally near shortest forms the greater is taken. -/
def listedNumber : Decimal.Layout :=
  ⟨none, false, .up⟩

instance : Total Int64 where
  start := 0
  text n := toString n.toInt
  same a b := a == b

instance : Total Double where
  start := Double.zero
  text := listedNumber.text
  same := Double.same

instance : Total Samples where
  start := ⟨#[]⟩
  text s := "[" ++ " ".intercalate (s.toArray.toList.map listedNumber.text) ++ "]"
  same a b :=
    a.toArray.size == b.toArray.size &&
      (a.toArray.toList.zip b.toArray.toList).all fun p => p.1.same p.2

instance : Total Members where
  start := ⟨∅⟩
  text s := "\x7b" ++ " ".intercalate s.toSet.toList ++ "\x7d"
  same a b := a.toSet.toList == b.toSet.toList

/-- The form of total of a kind. -/
@[reducible] def Kind.Total : Kind → Type
  | .counter => Int64
  | .timer => Samples
  | .gauge => Double
  | .set => Members

instance : (kind : Kind) → Total kind.Total
  | .counter => inferInstanceAs (Total Int64)
  | .timer => inferInstanceAs (Total Samples)
  | .gauge => inferInstanceAs (Total Double)
  | .set => inferInstanceAs (Total Members)

/-- Addition that stops at the ends of the 64-bit range. -/
def addClamped (a b : Int64) : Int64 :=
  Int64.ofIntClamp (a.toInt + b.toInt)

/-- A value merged into a total of its kind. -/
def Value.addTo : (v : Value) → v.kind.Total → v.kind.Total
  | .counter amount, sum => addClamped sum amount
  | .timer sample, samples => ⟨samples.toArray.push sample⟩
  | .gauge level, _ => level
  | .set member, members => ⟨members.toSet.insert member⟩

end ShardConsole
