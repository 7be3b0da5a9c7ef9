import ShardConsole.Toml.Numbers
import ShardConsole.Toml.Strings

/-!
# TOML Documents

Reading a whole TOML document, line by line.

A line is blank, a key with a value, or the header of a table. Keys are given to the
table whose header came last. That table is kept apart while it grows and put into
its place when the next header or the end of the document comes; a table that was
already implied by a longer header is taken out of its place first and grows on.

Values nest at most 79 deep and keys have fewer than 80 parts.

## Main definitions

* `scanValue?`: A value at the start of a text.
* `Builder`: A document that is being read.
* `parse?`: The entries of a document.
-/

namespace ShardConsole

namespace Toml

/-- The greatest depth of values and length of keys, plus one. -/
def nestingLimit : Nat := 80

/-- Whether a character may stand in a key without quotation marks. -/
def isBare (c : Char) : Bool :=
  c.isAlphanum || c = '_' || c = '-'

/-- One part of a key. -/
def scanPart? (s : List Char) : Option (String × List Char) :=
  match s with
  | '"' :: rest => (scanBasic? rest).map fun (cs, rest) => (String.ofList cs, rest)
  | '\'' :: rest => (scanLiteral? rest).map fun (cs, rest) => (String.ofList cs, rest)
  | _ =>
    let part := s.takeWhile isBare
    if part = [] then none else some (String.ofList part, s.dropWhile isBare)

/-- The parts of a key with points between them and blanks around them; `fuel` bounds
    their number. -/
def scanParts? (fuel : Nat) (s : List Char) : Option (List String × List Char) :=
  match fuel with
  | 0 => none
  | fuel + 1 => do
    let (part, s) ← scanPart? (skipBlanks s)
    match skipBlanks s with
    | '.' :: rest =>
      let (parts, rest) ← scanParts? fuel rest
      return (part :: parts, rest)
    | rest => return ([part], rest)

/-- A key: the parts on the way and the last part. -/
def scanKey? (s : List Char) : Option ((List String × String) × List Char) := do
  let (parts, rest) ← scanParts? (nestingLimit - 1) s
  return ((parts.dropLast, parts.getLastD ""), rest)

/-- Values with commas between them, and perhaps one after them, up to the closing
    bracket; `fuel` bounds their number. -/
def scanElements? (value? : List Char → Option (Node × List Char)) (fuel : Nat) (s : List Char) :
    Option (List Node × List Char) :=
  match fuel with
  | 0 => none
  | fuel + 1 => do
    let s ← skipLines? false s
    match s with
    | ']' :: rest => return ([], rest)
    | _ =>
      let (v, s) ← value? s
      let s ← skipLines? false s
      match s with
      | ']' :: rest => return ([v], rest)
      | ',' :: rest =>
        let (vs, rest) ← scanElements? value? fuel rest
        return (v :: vs, rest)
      | _ => none

/-- Keys with their values, with commas between them, up to the closing brace; `fuel`
    bounds their number. -/
def scanPairs? (value? : List Char → Option (Node × List Char)) (fuel : Nat) (entries : Entries)
    (s : List Char) : Option (Entries × List Char) :=
  match fuel with
  | 0 => none
  | fuel + 1 => do
    let ((path, key), s) ← scanKey? s
    let s ← Text.after? '=' s
    let (v, s) ← value? (skipBlanks s)
    let entries ← putDotted? path key v entries
    match skipBlanks s with
    | '\x7d' :: rest => return (entries, rest)
    | ',' :: rest => scanPairs? value? fuel entries rest
    | _ => none

/-- A value at the start of a text that may still nest to some depth; `fuel` bounds the
    number of values in one pair of brackets. -/
def scanValue? (fuel depth : Nat) (s : List Char) : Option (Node × List Char) :=
  match depth with
  | 0 => none
  | depth + 1 =>
    match s with
    | '"' :: _ | '\'' :: _ =>
      (scanString? s).map fun (cs, rest) => (.text (String.ofList cs), rest)
    | '[' :: rest =>
      if depth = 0 then none
      else (scanElements? (scanValue? fuel depth) fuel rest).map fun (vs, rest) =>
        (.list vs, rest)
    | '\x7b' :: rest =>
      if depth = 0 then none
      else
        match skipBlanks rest with
        | '\x7d' :: rest => some (.inlineTable [], rest)
        | _ => (scanPairs? (scanValue? fuel depth) fuel [] rest).map fun (es, rest) =>
          (.inlineTable es, rest)
    | 't' :: rest => (Text.afterWord? ['r', 'u', 'e'] rest).map fun rest => (.truth true, rest)
    | 'f' :: rest => (Text.afterWord? ['a', 'l', 's', 'e'] rest).map fun rest => (.truth false, rest)
    | _ => scanNumber? s

/-- A document that is being read: the tables that are in place, and apart from them
    the one that grows, with the path of its header. -/
structure Builder where
  root : Entries
  path : List String
  /-- Whether the header stood in double brackets. -/
  isElement : Bool
  current : Entries

namespace Builder

/-- The document of which nothing has been read. -/
def start : Builder :=
  ⟨[], [], false, []⟩

/-- Puts the growing table into its place. -/
def close? (b : Builder) : Option Entries :=
  match b.path.getLast? with
  | none => some b.current
  | some key =>
    changeAt? b.path.dropLast
      (fun entries =>
        if b.isElement then
          match entries.lookup key with
          | none => some (entries ++ [(key, .tables [b.current])])
          | some (.tables elements) =>
            some (replace key (.tables (elements ++ [b.current])) entries)
          | some _ => none
        else add? key (.table .header b.current) entries)
      b.root

/-- The table below a key that may still get a header, and the entries without it. -/
def takeImplied? (key : String) (entries : Entries) : Option (Entries × Entries) :=
  match entries.lookup key with
  | none => some ([], entries)
  | some (.table .implied below) => some (below, entries.filter (·.1 ≠ key))
  | some _ => none

/-- The entries of the table at the end of a path of headers. -/
def entriesAt (path : List String) (entries : Entries) : Entries :=
  match path with
  | [] => entries
  | step :: rest =>
    match entries.lookup step with
    | some (.table _ below) => entriesAt rest below
    | some (.tables elements) => entriesAt rest (elements.getLastD [])
    | _ => []

/-- Goes on to the table with a header in single brackets. -/
def openTable? (b : Builder) (path : List String) (key : String) : Option Builder := do
  let root ← b.close?
  let (below, _) ← takeImplied? key (entriesAt path root)
  let root ← changeAt? path (fun entries => (takeImplied? key entries).map (·.2)) root
  return ⟨root, path ++ [key], false, below⟩

/-- Goes on to a further table with a header in double brackets. -/
def openElement? (b : Builder) (path : List String) (key : String) : Option Builder := do
  let root ← b.close?
  let root ← changeAt? path
    (fun entries =>
      match entries.lookup key with
      | none => some entries
      | some (.tables _) => some entries
      | some _ => none)
    root
  return ⟨root, path ++ [key], true, []⟩

end Builder

/-- Reads one line that is neither blank nor a comment, and gives the rest; `fuel` is
    that of its value. -/
def readLine? (fuel : Nat) (b : Builder) (s : List Char) : Option (Builder × List Char) :=
  match s with
  | '[' :: '[' :: rest => do
    let ((path, key), s) ← scanKey? rest
    let s ← (Text.after? ']' s).bind (Text.after? ']')
    return (← b.openElement? path key, ← lineEnd? s)
  | '[' :: rest => do
    let ((path, key), s) ← scanKey? rest
    let s ← Text.after? ']' s
    return (← b.openTable? path key, ← lineEnd? s)
  | _ => do
    let ((path, key), s) ← scanKey? s
    let s ← Text.after? '=' s
    let (v, s) ← scanValue? fuel nestingLimit (skipBlanks s)
    let current ← putDotted? path key v b.current
    return ({ b with current := current }, ← lineEnd? s)

/-- Reads all lines, of which there are at most `count`; `fuel` is that of their
    values. -/
def readLines? (fuel count : Nat) (b : Builder) (s : List Char) : Option Entries :=
  match count with
  | 0 => none
  | count + 1 =>
    match skipBlanks s with
    | [] => b.close?
    | '#' :: rest => (lineEnd? ('#' :: rest)).bind (readLines? fuel count b)
    | '\n' :: rest => readLines? fuel count b rest
    | '\r' :: '\n' :: rest => readLines? fuel count b rest
    | s => (readLine? fuel b s).bind fun (b, rest) => readLines? fuel count b rest

/-- The entries of a document; a byte order mark at its start does not count. -/
def parse? (text : String) : Option Entries :=
  let s := match text.toList with
    | '\uFEFF' :: rest => rest
    | s => s
  let bound := s.length + 1
  readLines? bound bound Builder.start s

end Toml

end ShardConsole
