import ShardConsole.Text.Hidden

/-!
# Quoted Text

The quoted form of a text: one line that shows every character unambiguously.

A quotation mark opens and closes the form. Inside it the usual short escapes
stand for the common controls, the quotation mark and the backslash; any other
hidden character is written by its code point in lower-case hexadecimal; every
other character stands for itself. Each character is escaped on its own.

## Main definitions

* `escape`: What stands for one character.
* `quote`: The quoted form of a text.
-/

namespace ShardConsole

namespace Text

/-- The digits of a number in base sixteen, lower case and without padding. -/
def hexDigits (n : Nat) : List Char :=
  Nat.toDigits 16 n

/-- What stands for one character inside quotation marks. -/
def escape (c : Char) : List Char :=
  match c with
  | '\x00' => ['\\', '0']
  | '\t' => ['\\', 't']
  | '\n' => ['\\', 'n']
  | '\r' => ['\\', 'r']
  | '"' => ['\\', '"']
  | '\\' => ['\\', '\\']
  | _ => if isHidden c then ['\\', 'u', '\x7b'] ++ hexDigits c.toNat ++ ['\x7d'] else [c]

/-- The quoted form of a text. -/
def quote (s : String) : String :=
  String.ofList ('"' :: s.toList.flatMap escape ++ ['"'])

end Text

end ShardConsole
