import ShardConsole.Decimal.Double

/-!
# TOML Trees

The values of a TOML document and the rules by which its tables grow.

A table can come about in four ways, and how it did decides what may be added to it
later. A table written in braces is complete. A table with a header of its own may
not get another one, nor keys from outside. A table that only stands on the way in
the header of another one may still get its own header. A table that stands on the
way in a dotted key can get more keys in the same manner, but no header.

## Main definitions

* `Node`: A value or a table of a document.
* `putDotted?`: Adds a value under a dotted key.
* `changeAt?`: Changes the table that a header names.
-/

namespace ShardConsole

namespace Toml

/-- How a table outside braces came about. -/
inductive Origin
  /-- It has a header. -/
  | header
  /-- It stands on the way in a header. -/
  | implied
  /-- It stands on the way in a dotted key. -/
  | dotted
deriving DecidableEq

/-- A value or a table of a document. -/
inductive Node
  | text (s : String)
  | integer (i : Int)
  | decimal (x : Double)
  | truth (b : Bool)
  /-- A date, a time or both; no setting is one, so its value is not kept. -/
  | moment
  | list (items : List Node)
  /-- A table in braces. -/
  | inlineTable (entries : List (String × Node))
  | table (origin : Origin) (entries : List (String × Node))
  /-- The tables that share a header in double brackets. -/
  | tables (elements : List (List (String × Node)))
deriving Inhabited

/-- The entries of a table. -/
abbrev Entries := List (String × Node)

/-- Puts another node under a key that is there already. -/
def replace (key : String) (node : Node) (entries : Entries) : Entries :=
  entries.map fun entry => if entry.1 = key then (key, node) else entry

/-- Adds a node under a key that is not there yet. -/
def add? (key : String) (node : Node) (entries : Entries) : Option Entries :=
  match entries.lookup key with
  | none => some (entries ++ [(key, node)])
  | some _ => none

/-- Changes the last of several tables. -/
def changeLast? (change : Entries → Option Entries) : List Entries → Option (List Entries)
  | [] => none
  | [last] => (change last).map ([·])
  | first :: rest => (changeLast? change rest).map (first :: ·)

/-- Adds a value under a dotted key: on the way, tables are made as needed, and the
    last of them must have come about by a dotted key itself. -/
def putDotted? (path : List String) (key : String) (node : Node) (entries : Entries) :
    Option Entries :=
  match path with
  | [] => add? key node entries
  | step :: rest =>
    match entries.lookup step with
    | none =>
      (putDotted? rest key node []).map fun below => entries ++ [(step, .table .dotted below)]
    | some (.table .dotted below) =>
      (putDotted? rest key node below).map fun below =>
        replace step (.table .dotted below) entries
    | some (.table .implied below) =>
      if rest = [] then none
      else (putDotted? rest key node below).map fun below =>
        replace step (.table .implied below) entries
    | some (.tables elements) =>
      if rest = [] then none
      else (changeLast? (putDotted? rest key node) elements).map fun elements =>
        replace step (.tables elements) entries
    | some _ => none

/-- Changes the table at the end of a path of headers; on the way, tables are made as
    needed, and of tables that share a header the last one is meant. -/
def changeAt? (path : List String) (change : Entries → Option Entries) (entries : Entries) :
    Option Entries :=
  match path with
  | [] => change entries
  | step :: rest =>
    match entries.lookup step with
    | none =>
      (changeAt? rest change []).map fun below => entries ++ [(step, .table .implied below)]
    | some (.table origin below) =>
      (changeAt? rest change below).map fun below => replace step (.table origin below) entries
    | some (.tables elements) =>
      (changeLast? (changeAt? rest change) elements).map fun elements =>
        replace step (.tables elements) entries
    | some _ => none

end Toml

end ShardConsole
