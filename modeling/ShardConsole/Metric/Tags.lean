import ShardConsole.Text.Blank
import Std.Data.ExtTreeMap

/-!
# Tags

The tags of a metric: texts under distinct keys, in ascending order of the keys.

Tags are written `key:value,key:value`. Reading that form is forgiving: a piece
without a colon is no tag, blanks around a key or a value are dropped, a tag whose
key or value is then empty is dropped too, and of two tags with one key the later
one counts.

## Main definitions

* `Tags`: Texts under distinct keys.
* `Tags.ofPairs`: Tags taken as they are.
* `Tags.parse`: Tags read from text.
* `Tags.text`: The written form, which is the key of a tag set in a collection.
-/

namespace ShardConsole

/-- Texts under distinct keys. -/
structure Tags where
  entries : Std.ExtTreeMap String String

namespace Tags

/-- No tags. -/
def empty : Tags :=
  ⟨∅⟩

instance : Inhabited Tags :=
  ⟨empty⟩

/-- Tags taken as they are; of two pairs with one key the later one counts. -/
def ofPairs (pairs : List (String × String)) : Tags :=
  ⟨pairs.foldl (fun entries pair => entries.insert pair.1 pair.2) ∅⟩

/-- The tag that a piece of text between commas stands for: it is cut at its first
    colon, both sides are trimmed, and neither may be empty. -/
def pair? (piece : List Char) : Option (String × String) :=
  match piece.dropWhile (· ≠ ':') with
  | [] => none
  | _ :: value =>
    let key := Text.trim (piece.takeWhile (· ≠ ':'))
    let value := Text.trim value
    if key = [] ∨ value = [] then none else some (String.ofList key, String.ofList value)

/-- Tags read from text: the pieces between commas that stand for a tag. -/
def parse (s : String) : Tags :=
  ofPairs ((s.toList.splitOnP (· = ',')).filterMap pair?)

/-- The value under a key. -/
def get? (t : Tags) (key : String) : Option String :=
  t.entries[key]?

/-- The number of tags. -/
def size (t : Tags) : Nat :=
  t.entries.size

/-- Whether there are no tags. -/
def isEmpty (t : Tags) : Bool :=
  t.entries.isEmpty

/-- The pairs in ascending order of their keys. -/
def toList (t : Tags) : List (String × String) :=
  t.entries.toList

/-- One tag as it is written. -/
def pairText (pair : String × String) : String :=
  pair.1 ++ ":" ++ pair.2

/-- The written form: the tags in ascending order, with commas between them. -/
def text (t : Tags) : String :=
  ",".intercalate (t.toList.map pairText)

end Tags

end ShardConsole
