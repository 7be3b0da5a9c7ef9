import ShardConsole.Text.Scanning

/-!
# TOML Strings

Blanks, line ends, comments and the four forms of string.

Basic strings stand in quotation marks and know escapes; literal strings stand in
apostrophes and know none. Tripled marks allow line ends inside, which are read as
single line feeds; a line end right after the opening mark does not count, and in a
basic string neither does a backslash at the end of a line together with all blanks
and line ends after it. One or two marks may stand before the closing three.

## Main definitions

* `skipBlanks`, `lineEnd?`, `skipLines?`: What stands between tokens.
* `scanString?`: A string at the start of a text.
-/

namespace ShardConsole

namespace Toml

/-- The blanks within a line. -/
def isSpace (c : Char) : Bool :=
  c = ' ' || c = '\t'

/-- The text without its leading blanks. -/
def skipBlanks (s : List Char) : List Char :=
  s.dropWhile isSpace

/-- The rest of a text after the line end at its start. -/
def newline? : List Char → Option (List Char)
  | '\n' :: rest => some rest
  | '\r' :: '\n' :: rest => some rest
  | _ => none

/-- Whether a character may stand where text is free: no control but the tab. -/
def isFree (c : Char) : Bool :=
  c = '\t' || (0x20 ≤ c.toNat && c.toNat ≠ 0x7F)

/-- The text without the comment at its start. -/
def skipComment (s : List Char) : List Char :=
  match s with
  | '#' :: rest => rest.dropWhile isFree
  | _ => s

/-- The rest of a text after what may end a line: blanks, a comment, and a line end
    or the end of the text. -/
def lineEnd? (s : List Char) : Option (List Char) :=
  match skipComment (skipBlanks s) with
  | [] => some []
  | rest => newline? rest

/-- The rest of a text after blanks, comments and line ends, where a comment may have
    begun already; a comment has to be ended by a line end. -/
def skipLines? (inComment : Bool) : List Char → Option (List Char)
  | [] => if inComment then none else some []
  | '\n' :: rest => skipLines? false rest
  | '\r' :: '\n' :: rest => skipLines? false rest
  | c :: rest =>
    if inComment then (if isFree c then skipLines? true rest else none)
    else if isSpace c then skipLines? false rest
    else if c = '#' then skipLines? true rest
    else some (c :: rest)

/-- The character whose code point some hexadecimal digits give. -/
def charOfHex? (digits : List Char) : Option Char :=
  let code := Text.number 16 digits
  if (digits.all fun d => (Text.digitValue? d).isSome) ∧ code.isValidChar then
    some (Char.ofNat code)
  else none

/-- What a short escape stands for. -/
def shortEscape? : Char → Option Char
  | 'b' => some '\x08'
  | 't' => some '\t'
  | 'n' => some '\n'
  | 'f' => some '\x0c'
  | 'r' => some '\r'
  | '"' => some '"'
  | '\\' => some '\\'
  | _ => none

/-- Puts a character in front of what a scanner gives. -/
def prepend (c : Char) (scanned : Option (List Char × List Char)) :
    Option (List Char × List Char) :=
  scanned.map fun (cs, rest) => (c :: cs, rest)

/-- A basic string on one line, after its opening mark. -/
def scanBasic? : List Char → Option (List Char × List Char)
  | [] => none
  | '"' :: rest => some ([], rest)
  | '\\' :: 'u' :: a :: b :: c :: d :: rest =>
    (charOfHex? [a, b, c, d]).bind fun x => prepend x (scanBasic? rest)
  | '\\' :: 'U' :: a :: b :: c :: d :: e :: f :: g :: h :: rest =>
    (charOfHex? [a, b, c, d, e, f, g, h]).bind fun x => prepend x (scanBasic? rest)
  | '\\' :: e :: rest => (shortEscape? e).bind fun x => prepend x (scanBasic? rest)
  | c :: rest => if isFree c then prepend c (scanBasic? rest) else none

/-- A literal string on one line, after its opening mark. -/
def scanLiteral? : List Char → Option (List Char × List Char)
  | [] => none
  | '\'' :: rest => some ([], rest)
  | c :: rest => if isFree c then prepend c (scanLiteral? rest) else none

/-- A basic string over several lines, after its opening marks; after a backslash at
    the end of a line the blanks and line ends that follow are `joined` over. -/
def scanBasicLines? (joined : Bool) : List Char → Option (List Char × List Char)
  | [] => none
  | '"' :: '"' :: '"' :: '"' :: '"' :: rest => some (['"', '"'], rest)
  | '"' :: '"' :: '"' :: '"' :: rest => some (['"'], rest)
  | '"' :: '"' :: '"' :: rest => some ([], rest)
  | '\r' :: '\n' :: rest =>
    if joined then scanBasicLines? true rest else prepend '\n' (scanBasicLines? false rest)
  | '\n' :: rest =>
    if joined then scanBasicLines? true rest else prepend '\n' (scanBasicLines? false rest)
  | '\\' :: 'u' :: a :: b :: c :: d :: rest =>
    (charOfHex? [a, b, c, d]).bind fun x => prepend x (scanBasicLines? false rest)
  | '\\' :: 'U' :: a :: b :: c :: d :: e :: f :: g :: h :: rest =>
    (charOfHex? [a, b, c, d, e, f, g, h]).bind fun x => prepend x (scanBasicLines? false rest)
  | '\\' :: e :: rest =>
    match newline? (skipBlanks (e :: rest)) with
    | some _ => scanBasicLines? true rest
    | none => (shortEscape? e).bind fun x => prepend x (scanBasicLines? false rest)
  | c :: rest =>
    if joined && isSpace c then scanBasicLines? true rest
    else if isFree c then prepend c (scanBasicLines? false rest)
    else none

/-- A literal string over several lines, after its opening marks. -/
def scanLiteralLines? : List Char → Option (List Char × List Char)
  | [] => none
  | '\'' :: '\'' :: '\'' :: '\'' :: '\'' :: rest => some (['\'', '\''], rest)
  | '\'' :: '\'' :: '\'' :: '\'' :: rest => some (['\''], rest)
  | '\'' :: '\'' :: '\'' :: rest => some ([], rest)
  | '\r' :: '\n' :: rest => prepend '\n' (scanLiteralLines? rest)
  | c :: rest => if c = '\n' || isFree c then prepend c (scanLiteralLines? rest) else none

/-- The text without the line end at its start, if there is one. -/
def dropNewline (s : List Char) : List Char :=
  (newline? s).getD s

/-- A string of any form at the start of a text. -/
def scanString? : List Char → Option (List Char × List Char)
  | '"' :: '"' :: '"' :: rest => scanBasicLines? false (dropNewline rest)
  | '\'' :: '\'' :: '\'' :: rest => scanLiteralLines? (dropNewline rest)
  | '"' :: rest => scanBasic? rest
  | '\'' :: rest => scanLiteral? rest
  | _ => none

end Toml

end ShardConsole
