import ShardConsole.Json.Value

/-!
# Writing JSON

The canonical text of a JSON value: no blanks, members in the order in which they
stand, and in strings only what has to be escaped is escaped.

## Main definitions

* `escapeChar`: What stands for a character inside a string.
* `Value.print`: The canonical text of a value.
-/

namespace ShardConsole

namespace Json

/-- A digit in base sixteen, lower case. -/
def hexDigit (n : Nat) : Char :=
  Nat.digitChar n

/-- What stands for a character inside a string: the quotation mark, the backslash
    and the controls below U+0020 are escaped, by a short form if they have one. -/
def escapeChar (c : Char) : List Char :=
  match c with
  | '"' => ['\\', '"']
  | '\\' => ['\\', '\\']
  | '\x08' => ['\\', 'b']
  | '\x0c' => ['\\', 'f']
  | '\n' => ['\\', 'n']
  | '\r' => ['\\', 'r']
  | '\t' => ['\\', 't']
  | _ =>
    if c.toNat < 0x20 then
      ['\\', 'u', '0', '0', hexDigit (c.toNat / 16), hexDigit (c.toNat % 16)]
    else [c]

/-- The text of a string in quotation marks. -/
def printString (s : String) : List Char :=
  '"' :: s.toList.flatMap escapeChar ++ ['"']

/-- Texts with commas between them. -/
def commaSeparated (pieces : List (List Char)) : List Char :=
  [','].intercalate pieces

namespace Value

mutual

/-- The canonical text of a value. A string that stands for no text is written as an
    empty one. -/
def print : Value → List Char
  | .null => ['n', 'u', 'l', 'l']
  | .bool true => ['t', 'r', 'u', 'e']
  | .bool false => ['f', 'a', 'l', 's', 'e']
  | .number n => n.text
  | .string text => printString (text.getD "")
  | .array items => '[' :: commaSeparated (printItems items) ++ [']']
  | .object members => '\x7b' :: commaSeparated (printMembers members) ++ ['\x7d']

/-- The canonical texts of values. -/
def printItems : List Value → List (List Char)
  | [] => []
  | v :: rest => print v :: printItems rest

/-- The canonical texts of members. -/
def printMembers : List (Option String × Value) → List (List Char)
  | [] => []
  | (name, v) :: rest =>
    (printString (name.getD "") ++ ':' :: print v) :: printMembers rest

end

/-- The canonical text of a value, as a string. -/
def text (v : Value) : String :=
  String.ofList v.print

end Value

end Json

end ShardConsole
