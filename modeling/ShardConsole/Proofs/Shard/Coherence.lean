import Mathlib.Data.Finset.Dedup
import ShardConsole.Pool.Work
import ShardConsole.Proofs.Shard.Aggregation

/-!
# Coherence of Collections

That a collection says of its names what it shows of its entries.

A collection is a map of maps. What it is asked about names is answered by the outer map: whether a
name is there, how many of them there are, whether there are none, and whether a deletion removes
anything. What it shows comes from the inner maps. The two would part if a name had an empty map
under it, since such a name would count and could be deleted, but would never be shown, and a
listing of nothing but such names would be empty although the collection is not.

No such name ever comes into being. An entry that is asked for begins at the start if it is missing,
together with its name, so there is something under the name from then on, whatever is made of the
entry. A deletion takes the name away as a whole. Hence what is true of the entries can be said of
the names, after any accesses, and in particular a worker that leaves out an empty listing leaves
out nothing.

## Main definitions

* `Access`: What can be done to the collections of a shard.
* `Shard.ofAccesses`: The shard that accesses make of an empty one.
* `Shard.remove`, `Shard.removeAll`: Deletions with their answers.
* `Collection.Coherent`: What a collection says of its names fits its entries.
* `Shard.Coherent`: The same for a shard, with what deletions and listings come to.

## Theorems

* `Collection.Filled.coherent`: A collection is coherent if all its names have an entry.
* `Collection.entries_delete`: What is left of the entries after a deletion.
* `Shard.deleteAll_eq_removeAll`: Deleting names is removing one after the other.
* `Shard.coherent_ofAccesses`: Whatever is done to a shard, it stays coherent.
-/

namespace ShardConsole

/-- What can be done to the collections of a shard: an operation, or the change of an entry, which
    begins at the start if it is missing. -/
inductive Access
  | operation (op : Operation)
  | entry (kind : Kind) (name : String) (tags : Tags) (change : kind.Total → kind.Total)

theorem Entry.Precedes.asymm {V : Type} {e f : Entry V} (before : e.Precedes f) :
    ¬ f.Precedes e := by
  intro after
  rcases before with name | ⟨same, tags⟩ <;> rcases after with name' | ⟨same', tags'⟩
  · exact String.lt_asymm name name'
  · exact String.lt_irrefl _ (same' ▸ name)
  · exact String.lt_irrefl _ (same ▸ name')
  · exact String.lt_asymm tags tags'

namespace Collection

variable {V : Type} {c : Collection V} {name : String}

/-- What a collection says of its names fits its entries. -/
structure Coherent [Total V] (c : Collection V) : Prop where
  /-- There is something under every name. -/
  filled : ∀ (name : String) (byTags : Std.ExtTreeMap String V), c.byName[name]? = some byTags →
    byTags.isEmpty = false
  /-- The entries come in strictly ascending order. -/
  ordered : c.entries.Pairwise Entry.Precedes
  /-- No two of them have the same name and the same tags. -/
  distinct : (c.entries.map fun e => (e.name, e.tags)).Nodup
  /-- A name is there exactly if it has an entry. -/
  present : ∀ name, c.contains name = true ↔ ∃ e ∈ c.entries, e.name = name
  /-- The size is the number of distinct names that the entries have. -/
  counted : c.size = (c.entries.map Entry.name).toFinset.card
  /-- There are no names exactly if a listing adds nothing. -/
  none : ∀ out, c.isEmpty = true ↔ c.render out = out

section Names

theorem contains_of_mem_entries {e : Entry V} (mem : e ∈ c.entries) :
    c.contains e.name = true :=
  contains_of_total? (Option.isSome_iff_exists.mpr ⟨e.total, mem_entries_iff.mp mem⟩)

theorem Filled.contains_iff (filled : c.Filled) :
    c.contains name = true ↔ ∃ e ∈ c.entries, e.name = name := by
  constructor
  · intro there
    rcases filled name there with ⟨key, some⟩
    rcases Option.isSome_iff_exists.mp some with ⟨total, stored⟩
    exact ⟨⟨name, key, total⟩, mem_entries_iff.mpr stored, rfl⟩
  · rintro ⟨e, mem, rfl⟩
    exact contains_of_mem_entries mem

theorem Filled.isEmpty_eq_false (filled : c.Filled) {byTags : Std.ExtTreeMap String V}
    (under : c.byName[name]? = some byTags) : byTags.isEmpty = false := by
  have there : c.contains name = true := by
    rw [contains, Std.ExtTreeMap.contains_eq_isSome_getElem?, under, Option.isSome_some]
  rcases filled name there with ⟨key, some⟩
  rw [total?, under, Option.bind_some, ← Std.ExtTreeMap.contains_eq_isSome_getElem?] at some
  rw [Bool.eq_false_iff]
  intro empty
  rw [Std.ExtTreeMap.isEmpty_iff.mp empty, Std.ExtTreeMap.contains_empty] at some
  cases some

/-- The names are those that the entries have, each counted once. -/
theorem Filled.size_eq (filled : c.Filled) :
    c.size = (c.entries.map Entry.name).toFinset.card := by
  have names : c.byName.keys.toFinset = (c.entries.map Entry.name).toFinset := by
    ext name
    rw [List.mem_toFinset, List.mem_toFinset, List.mem_map, Std.ExtTreeMap.mem_keys,
      ← Std.ExtTreeMap.contains_iff_mem]
    exact filled.contains_iff
  rw [size, ← Std.ExtTreeMap.length_keys, ← names,
    List.toFinset_card_of_nodup Std.ExtTreeMap.nodup_keys]

theorem Filled.isEmpty_iff (filled : c.Filled) : c.isEmpty = true ↔ c.entries = [] := by
  rw [isEmpty, beq_iff_eq, filled.size_eq, Finset.card_eq_zero, List.toFinset_eq_empty_iff,
    List.map_eq_nil_iff]

end Names

section Order

-- Entries at one place of the order would come before themselves.
theorem nodup_places (c : Collection V) : (c.entries.map fun e => (e.name, e.tags)).Nodup := by
  refine List.Pairwise.map _ ?_ c.entries_ordered
  intro e f before same
  rcases Prod.mk.inj same with ⟨name, tags⟩
  rcases before with less | ⟨_, less⟩
  · exact String.lt_irrefl _ (name ▸ less)
  · exact String.lt_irrefl _ (tags ▸ less)

/-- A deletion leaves the entries that do not have its name, in their order. -/
theorem entries_delete (c : Collection V) (name : String) :
    (c.delete name).entries = c.entries.filter fun e => e.name ≠ name := by
  have perm : (c.delete name).entries.Perm (c.entries.filter fun e => e.name ≠ name) := by
    rw [List.perm_ext_iff_of_nodup (nodup_entries _) ((nodup_entries c).filter _)]
    intro e
    rw [mem_entries_iff, total?_delete, List.mem_filter, mem_entries_iff]
    by_cases same : e.name = name <;> simp [same]
  -- Both are in ascending order, which leaves one way only to arrange them.
  refine perm.eq_of_pairwise ?_ (entries_ordered _) (c.entries_ordered.filter _)
  intro e f _ _ before after
  exact absurd after before.asymm

end Order

/-- A collection is coherent if all its names have an entry. -/
theorem Filled.coherent [Total V] (filled : c.Filled) : c.Coherent where
  filled name byTags under := filled.isEmpty_eq_false under
  ordered := c.entries_ordered
  distinct := c.nodup_places
  present name := filled.contains_iff
  counted := filled.size_eq
  none out := by rw [filled.isEmpty_iff, render_eq_self_iff]

end Collection

namespace Shard

/-- A shard after an access. -/
def access (s : Shard) : Access → Shard
  | .operation op => s.apply op
  | .entry kind name tags change => s.modify kind fun c => c.update name tags change

/-- The shard that accesses make of an empty one. -/
def ofAccesses (accesses : List Access) : Shard :=
  accesses.foldl access empty

/-- Removes a name from the collection of a kind and tells whether there was anything to
    remove. -/
def remove (s : Shard) (kind : Kind) (name : String) : Shard × Bool :=
  (s.delete kind name, (s.totals? kind name).isSome)

/-- Removes names one after the other and counts how often there was anything to remove. -/
def removeAll (s : Shard) (kind : Kind) (names : List String) : Shard × Nat :=
  names.foldl (fun (s, removed) name =>
    ((s.remove kind name).1, if (s.remove kind name).2 then removed + 1 else removed)) (s, 0)

/-- What a shard says of its names fits what it shows. -/
structure Coherent (s : Shard) : Prop where
  collections : ∀ kind, (s.collection kind).Coherent
  /-- A deletion tells whether the name was there. -/
  told : ∀ kind name, (s.remove kind name).2 = true ↔ s.contains kind name = true
  /-- It tells so exactly if it changes anything. -/
  changed : ∀ kind name, (s.remove kind name).2 = true ↔ (s.remove kind name).1 ≠ s
  /-- The name is not there any more. -/
  gone : ∀ kind name, (s.remove kind name).1.contains kind name = false
  /-- All entries with the name are gone, and no others. -/
  left : ∀ kind name, ((s.remove kind name).1.collection kind).entries =
    (s.collection kind).entries.filter fun e => e.name ≠ name
  /-- A deletion of names removes one after the other and counts those that were there. -/
  swept : ∀ kind names, s.deleteAll kind names = s.removeAll kind names
  /-- A worker hands over a listing unless there is nothing of the kind. -/
  handed : ∀ kind worker, (Pool.Work.list kind).invoke worker s = .ran s Pool.Report.nothing
    (if (s.collection kind).isEmpty then .done else .part (s.text kind))
  /-- There is nothing of any kind exactly if all listings are empty. -/
  none : s.isEmpty = true ↔ ∀ kind, s.text kind = ""

section Changes

variable {s : Shard} {kind : Kind} {name : String}

theorem ofAccesses_snoc (accesses : List Access) (a : Access) :
    ofAccesses (accesses ++ [a]) = (ofAccesses accesses).access a := by
  rw [ofAccesses, List.foldl_append]
  rfl

/-- Deleting names is removing them one after the other and counting what was there. -/
theorem deleteAll_eq_removeAll (s : Shard) (kind : Kind) (names : List String) :
    s.deleteAll kind names = s.removeAll kind names := by
  have step (s : Shard) (removed : Nat) (name : String) :
      (s.delete kind name, if s.contains kind name then removed + 1 else removed) =
        ((s.remove kind name).1, if (s.remove kind name).2 then removed + 1 else removed) := by
    rw [remove, contains_eq_isSome]
  rw [deleteAll, removeAll]
  simp only [step]

-- A name that is not there leaves nothing to remove.
theorem delete_eq_self (none : s.contains kind name = false) : s.delete kind name = s := by
  refine ext_totals? fun other name' => ?_
  rw [totals?_delete]
  by_cases mine : other = kind ∧ name' = name
  · rcases mine with ⟨rfl, rfl⟩
    rw [contains_eq_isSome, Option.isSome_eq_false_iff, Option.isNone_iff_eq_none] at none
    rw [if_pos ⟨rfl, rfl⟩, none]
  · rw [if_neg mine]

theorem contains_delete_self : (s.delete kind name).contains kind name = false := by
  rw [Bool.eq_false_iff]
  intro there
  exact ((contains_delete s kind name name).mp there).1 rfl

theorem delete_ne_self_iff : s.delete kind name ≠ s ↔ s.contains kind name = true := by
  constructor
  · intro changed
    by_contra none
    exact changed (delete_eq_self (Bool.not_eq_true _ ▸ none))
  · intro there same
    have gone : (s.delete kind name).contains kind name = false := contains_delete_self
    rw [same, there] at gone
    cases gone

end Changes

section Coherence

variable {s : Shard}

/-- A shard is coherent if all names of its collections have an entry. -/
theorem coherent_of_filled (filled : ∀ kind, (s.collection kind).Filled) : s.Coherent := by
  have coherent (kind : Kind) := (filled kind).coherent
  have text (kind : Kind) : (s.collection kind).isEmpty = true ↔ s.text kind = "" :=
    (coherent kind).none ""
  constructor
  · exact coherent
  · intro kind name
    rw [remove, contains_eq_isSome]
  · intro kind name
    rw [remove, delete_ne_self_iff, contains_eq_isSome]
  · intro kind name
    exact contains_delete_self
  · intro kind name
    rw [remove, delete, collection_modify_self, Collection.entries_delete]
  · intro kind names
    exact s.deleteAll_eq_removeAll kind names
  · intro kind worker
    have same : (s.text kind).isEmpty = (s.collection kind).isEmpty := by
      rw [Bool.eq_iff_iff, String.isEmpty_iff, text]
    exact congrArg (fun nothing : Bool => Pool.Outcome.ran s Pool.Report.nothing
      (if nothing then .done else .part (s.text kind))) same
  · rw [isEmpty, List.all_eq_true]
    constructor
    · intro all kind
      exact (text kind).mp (all kind (by cases kind <;> decide))
    · intro all kind _
      exact (text kind).mpr (all kind)

theorem built_access (built : ∀ kind, (s.collection kind).Built) (a : Access) (kind : Kind) :
    ((s.access a).collection kind).Built := by
  cases a with
  | operation op => exact built_apply built op kind
  | entry changed name tags change =>
      exact built_modify built ((built changed).update name tags change) kind

/-- Whatever is done to a shard, it stays coherent.

    After any operations and changes of entries in any order, there is something under every name
    of every kind, the entries come in strictly ascending order, and what is said of the names is
    what can be seen of the entries: a name is there exactly if it has an entry, the size is the
    number of distinct names, and a collection or a shard is empty exactly if its listings are, so
    that a worker that leaves out an empty listing leaves out nothing. A deletion tells that the
    name was there exactly if it was, and it takes away all of its entries and no others, and a
    deletion of several names counts those that were there. -/
theorem coherent_ofAccesses (accesses : List Access) : (ofAccesses accesses).Coherent := by
  have built (kind : Kind) : ((ofAccesses accesses).collection kind).Built := by
    induction accesses using List.reverseRecOn generalizing kind with
    | nil => cases kind <;> exact .empty
    | append_singleton rest a ih =>
        rw [ofAccesses_snoc]
        exact built_access ih a kind
  exact coherent_of_filled fun kind => (built kind).filled

end Coherence

end Shard

end ShardConsole
