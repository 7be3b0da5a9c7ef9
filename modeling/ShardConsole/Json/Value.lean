import ShardConsole.Json.Numeral

/-!
# JSON Values

The values of JSON text, with the members of an object in the order in which they
stand.

A string is kept as the text it stands for. A string whose escapes name half of a
surrogate pair on its own stands for no text; it is kept as `none`, so that it does
no harm where strings are skipped.

## Main definitions

* `Value`: A JSON value.
* `Value.toText?`, `Value.toBool?`, `Value.toNat?`: What simple values stand for.
-/

namespace ShardConsole

namespace Json

/-- A JSON value. -/
inductive Value
  | null
  | bool (b : Bool)
  | number (n : Numeral)
  | string (text : Option String)
  | array (items : List Value)
  | object (members : List (Option String × Value))
deriving Inhabited

namespace Value

/-- A string that stands for a text. -/
def ofText (s : String) : Value :=
  .string (some s)

/-- A whole number. -/
def ofInt (i : Int) : Value :=
  .number (Numeral.ofInt i)

/-- An object with proper member names. -/
def ofMembers (members : List (String × Value)) : Value :=
  .object (members.map fun (name, v) => (some name, v))

/-- The text that a string stands for. -/
def toText? : Value → Option String
  | .string text => text
  | _ => none

/-- The truth value that a value is. -/
def toBool? : Value → Option Bool
  | .bool b => some b
  | _ => none

/-- The signed 64-bit number that a value is. -/
def toInt64? : Value → Option Int64
  | .number n => n.toInt?.bind fun i =>
    if Int64.minValue.toInt ≤ i ∧ i ≤ Int64.maxValue.toInt then some (Int64.ofInt i) else none
  | _ => none

/-- The unsigned 64-bit number that a value is. -/
def toUInt64? : Value → Option UInt64
  | .number n => n.toInt?.bind fun i =>
    if 0 ≤ i ∧ i.toNat < UInt64.size then some (UInt64.ofNat i.toNat) else none
  | _ => none

/-- The double that a value is. -/
def toDouble? : Value → Option Double
  | .number n => n.toDouble?
  | _ => none

end Value

end Json

end ShardConsole
