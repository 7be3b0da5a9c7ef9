import ShardConsole.Shard.Collection

/-!
# Shards

All metrics of one shard: a collection for each kind.

## Main definitions

* `Shard`: The four collections.
* `Shard.collection`, `Shard.modify`: A collection picked by its kind.
* `Shard.receive`: Merges a metric.
* `Shard.deleteAll`: Removes names and counts those that were there.
* `Shard.render`: The listing of one kind.

## Theorems

* `Shard.collection_modify_self`, `Shard.collection_modify_of_ne`: A change
  touches the collection of its kind and no other.
-/

namespace ShardConsole

/-- All metrics of one shard. -/
structure Shard where
  counters : Collection Int64
  timers : Collection Samples
  gauges : Collection Double
  sets : Collection Members

namespace Shard

/-- The shard without metrics. -/
def empty : Shard :=
  ⟨.empty, .empty, .empty, .empty⟩

instance : Inhabited Shard :=
  ⟨empty⟩

/-- The collection of a kind. -/
def collection (s : Shard) : (kind : Kind) → Collection kind.Total
  | .counter => s.counters
  | .timer => s.timers
  | .gauge => s.gauges
  | .set => s.sets

/-- Changes the collection of a kind. -/
def modify (s : Shard) :
    (kind : Kind) → (Collection kind.Total → Collection kind.Total) → Shard
  | .counter, change => { s with counters := change s.counters }
  | .timer, change => { s with timers := change s.timers }
  | .gauge, change => { s with gauges := change s.gauges }
  | .set, change => { s with sets := change s.sets }

/-- Merges a metric into the collection of its kind. -/
def receive (s : Shard) (m : Metric) : Shard :=
  s.modify m.kind fun c => c.update m.name m.tags m.value.addTo

/-- Removes a name from the collection of a kind. -/
def delete (s : Shard) (kind : Kind) (name : String) : Shard :=
  s.modify kind fun c => c.delete name

/-- Whether the collection of a kind has a name. -/
def contains (s : Shard) (kind : Kind) (name : String) : Bool :=
  (s.collection kind).contains name

/-- Removes names one after the other and counts those that were there when their
    turn came, so that a repeated name counts once. -/
def deleteAll (s : Shard) (kind : Kind) (names : List String) : Shard × Nat :=
  names.foldl
    (fun (s, removed) name =>
      (s.delete kind name, if s.contains kind name then removed + 1 else removed))
    (s, 0)

/-- The listing of one kind, added to what is already written. -/
def render (s : Shard) (kind : Kind) (out : String) : String :=
  (s.collection kind).render out

/-- The listing of one kind on its own. -/
def text (s : Shard) (kind : Kind) : String :=
  s.render kind ""

/-- The number of distinct names of one kind. -/
def size (s : Shard) (kind : Kind) : Nat :=
  (s.collection kind).size

/-- Whether there are no metrics of any kind. -/
def isEmpty (s : Shard) : Bool :=
  Kind.all.all fun kind => (s.collection kind).isEmpty

/-- Equality of shards: equal collections of each kind. -/
def same (s t : Shard) : Bool :=
  Kind.all.all fun kind => (s.collection kind).same (t.collection kind)

/-- A change to the collection of a kind changes that collection. -/
@[simp] theorem collection_modify_self (s : Shard) (kind : Kind)
    (change : Collection kind.Total → Collection kind.Total) :
    (s.modify kind change).collection kind = change (s.collection kind) := by
  cases kind <;> rfl

/-- A change to the collection of a kind leaves those of the other kinds alone. -/
theorem collection_modify_of_ne (s : Shard) {kind other : Kind} (h : other ≠ kind)
    (change : Collection kind.Total → Collection kind.Total) :
    (s.modify kind change).collection other = s.collection other := by
  cases kind <;> cases other <;> simp_all [modify, collection]

end Shard

end ShardConsole
