import ShardConsole.Shard.Totals
import Std.Data.ExtTreeMap

/-!
# Collections

The metrics of one kind: under each name, and there under the written form of each
tag set, a total.

A name is in a collection from the first value received under it until the name is
deleted, which removes it with all its tag sets. The entries have an order, by name
and then by tag set, and a listing shows one record a line in that order.

## Main definitions

* `Collection`: Totals under names and tag sets.
* `Collection.update`: Changes the total of one entry, starting it if need be.
* `Collection.delete`: Removes a name.
* `Entry.record`: The line of an entry.
* `Collection.entries`: The entries in ascending order.
* `Collection.render`: The listing of the entries.
-/

namespace ShardConsole

/-- Totals under names and, there, under written tag sets. -/
structure Collection (V : Type) where
  byName : Std.ExtTreeMap String (Std.ExtTreeMap String V)

/-- One entry of a collection. -/
structure Entry (V : Type) where
  name : String
  tags : String
  total : V
deriving DecidableEq

/-- The record of an entry: a line with its name, its tags if it has any, and its
    total. -/
def Entry.record {V : Type} [Total V] (e : Entry V) : String :=
  let tags := if e.tags.isEmpty then "" else "\x7b" ++ e.tags ++ "\x7d"
  e.name ++ tags ++ "=" ++ Total.text e.total ++ "\n"

namespace Collection

variable {V : Type}

/-- The collection without entries. -/
def empty : Collection V :=
  ⟨∅⟩

/-- The total of an entry. -/
def get? (c : Collection V) (name : String) (tags : Tags) : Option V :=
  c.byName[name]?.bind fun byTags => byTags[tags.text]?

/-- Whether a name is in the collection. -/
def contains (c : Collection V) (name : String) : Bool :=
  c.byName.contains name

/-- The number of distinct names. -/
def size (c : Collection V) : Nat :=
  c.byName.size

/-- Whether no name is in the collection. -/
def isEmpty (c : Collection V) : Bool :=
  c.size == 0

/-- Changes the total of one entry, which begins at the start if it is missing. -/
def update [Total V] (c : Collection V) (name : String) (tags : Tags) (change : V → V) :
    Collection V :=
  ⟨c.byName.alter name fun byTags? =>
    some ((byTags?.getD ∅).alter tags.text fun total? =>
      some (change (total?.getD Total.start)))⟩

/-- Removes a name with all its tag sets. -/
def delete (c : Collection V) (name : String) : Collection V :=
  ⟨c.byName.erase name⟩

/-- The entries in ascending order of name and tag set. -/
def entries (c : Collection V) : List (Entry V) :=
  c.byName.toList.flatMap fun (name, byTags) =>
    byTags.toList.map fun (tags, total) => ⟨name, tags, total⟩

/-- The listing of the entries, one record each, added to what is already written. -/
def render [Total V] (c : Collection V) (out : String) : String :=
  c.entries.foldl (fun out e => out ++ e.record) out

/-- The listing on its own. -/
def text [Total V] (c : Collection V) : String :=
  c.render ""

/-- Equality of collections: the same names and tag sets, with equal totals. -/
def same [Total V] (c d : Collection V) : Bool :=
  c.entries.length == d.entries.length &&
    (c.entries.zip d.entries).all fun p =>
      p.1.name == p.2.name && p.1.tags == p.2.tags && Total.same p.1.total p.2.total

end Collection

end ShardConsole
