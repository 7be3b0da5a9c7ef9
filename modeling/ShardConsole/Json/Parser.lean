import ShardConsole.Json.Value

/-!
# Reading JSON

The value of a JSON text: the whole text, with blanks around it, is one value.

A reader takes a text and gives what it has read with the rest of the text, or
nothing if the text does not begin as it should. Values nest, so the readers of
values carry fuel; every call uses up at least half a character, which is why twice
the length of the text is always enough.

## Main definitions

* `scanString?`: A string, after its opening quotation mark.
* `scanValue?`: A value at the start of a text.
* `parse?`: The value of a whole text.
-/

namespace ShardConsole

namespace Json

/-- The blanks of JSON. -/
def isSpace (c : Char) : Bool :=
  c = ' ' || c = '\t' || c = '\n' || c = '\r'

/-- The text without its leading blanks. -/
def skipSpace (s : List Char) : List Char :=
  s.dropWhile isSpace

/-- The value of four hexadecimal digits. -/
def hexUnit? (digits : List Char) : Option Nat :=
  if digits.all fun d => (Text.digitValue? d).isSome then some (Text.number 16 digits) else none

/-- What a short escape stands for. -/
def shortEscape? : Char → Option Char
  | '"' => some '"'
  | '\\' => some '\\'
  | '/' => some '/'
  | 'b' => some '\x08'
  | 'f' => some '\x0c'
  | 'n' => some '\n'
  | 'r' => some '\r'
  | 't' => some '\t'
  | _ => none

/-- One item of a string: a character, or a 16-bit unit given by its number. -/
inductive Item
  | char (c : Char)
  | unit (n : Nat)

/-- The items of a string up to its closing quotation mark, and the rest. A control
    character cannot stand in a string. -/
def scanItems? : List Char → Option (List Item × List Char)
  | [] => none
  | '"' :: rest => some ([], rest)
  | '\\' :: 'u' :: a :: b :: c :: d :: rest => do
    let unit ← hexUnit? [a, b, c, d]
    let (items, rest) ← scanItems? rest
    return (.unit unit :: items, rest)
  | '\\' :: e :: rest => do
    let c ← shortEscape? e
    let (items, rest) ← scanItems? rest
    return (.char c :: items, rest)
  | c :: rest =>
    if c.toNat < 0x20 then none
    else do
      let (items, rest) ← scanItems? rest
      return (.char c :: items, rest)

/-- The text of the items of a string, if they stand for one: the two halves of a
    surrogate pair have to follow one another. -/
def textOf? : List Item → Option (List Char)
  | [] => some []
  | .char c :: items => (textOf? items).map (c :: ·)
  | .unit high :: .unit low :: items =>
    if 0xD800 ≤ high ∧ high < 0xDC00 then
      if 0xDC00 ≤ low ∧ low < 0xE000 then
        (textOf? items).map
          (Char.ofNat (0x10000 + (high - 0xD800) * 0x400 + (low - 0xDC00)) :: ·)
      else none
    else if 0xDC00 ≤ high ∧ high < 0xE000 then none
    else (textOf? (.unit low :: items)).map (Char.ofNat high :: ·)
  | .unit n :: items =>
    if 0xD800 ≤ n ∧ n < 0xE000 then none else (textOf? items).map (Char.ofNat n :: ·)

/-- A string, after its opening quotation mark. -/
def scanString? (s : List Char) : Option (Option String × List Char) :=
  (scanItems? s).map fun (items, rest) => ((textOf? items).map String.ofList, rest)

mutual

/-- A value at the start of a text. -/
def scanValue? (fuel : Nat) (s : List Char) : Option (Value × List Char) :=
  match fuel with
  | 0 => none
  | fuel + 1 =>
    match s with
    | '"' :: rest => (scanString? rest).map fun (text, rest) => (.string text, rest)
    | '[' :: rest =>
      match skipSpace rest with
      | ']' :: rest => some (.array [], rest)
      | rest => (scanElements? fuel rest).map fun (items, rest) => (.array items, rest)
    | '\x7b' :: rest =>
      match skipSpace rest with
      | '\x7d' :: rest => some (.object [], rest)
      | rest => (scanMembers? fuel rest).map fun (members, rest) => (.object members, rest)
    | 'n' :: rest => (Text.afterWord? ['u', 'l', 'l'] rest).map fun rest => (.null, rest)
    | 't' :: rest => (Text.afterWord? ['r', 'u', 'e'] rest).map fun rest => (.bool true, rest)
    | 'f' :: rest => (Text.afterWord? ['a', 'l', 's', 'e'] rest).map fun rest => (.bool false, rest)
    | _ => (Numeral.scan? s).map fun (n, rest) => (.number n, rest)

/-- The elements of an array, of which there is at least one, up to its end. -/
def scanElements? (fuel : Nat) (s : List Char) : Option (List Value × List Char) :=
  match fuel with
  | 0 => none
  | fuel + 1 => do
    let (v, s) ← scanValue? fuel s
    match skipSpace s with
    | ']' :: rest => return ([v], rest)
    | ',' :: rest =>
      let (items, rest) ← scanElements? fuel (skipSpace rest)
      return (v :: items, rest)
    | _ => none

/-- The members of an object, of which there is at least one, up to its end. -/
def scanMembers? (fuel : Nat) (s : List Char) :
    Option (List (Option String × Value) × List Char) :=
  match fuel with
  | 0 => none
  | fuel + 1 =>
    match s with
    | '"' :: rest => do
      let (name, s) ← scanString? rest
      match skipSpace s with
      | ':' :: rest =>
        let (v, s) ← scanValue? fuel (skipSpace rest)
        match skipSpace s with
        | '\x7d' :: rest => return ([(name, v)], rest)
        | ',' :: rest =>
          let (members, rest) ← scanMembers? fuel (skipSpace rest)
          return ((name, v) :: members, rest)
        | _ => none
      | _ => none
    | _ => none

end

/-- The value of a whole text. -/
def parse? (s : String) : Option Value :=
  match scanValue? (2 * s.length + 2) (skipSpace s.toList) with
  | some (v, rest) => if skipSpace rest = [] then some v else none
  | none => none

end Json

end ShardConsole
