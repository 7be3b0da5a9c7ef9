import Mathlib.Data.Finset.Card
import Mathlib.Data.Finset.Dedup
import ShardConsole.Shard.Basic

/-!
# Names in Shards

What a shard has under a name, and what the two changes of a shard do to that.

A shard is looked at through `totals?`, which takes a kind and a name to everything that
the shard has under them, for all tag sets. A shard is determined by what it has in this
sense. Receiving a metric changes what is under its kind and its name, and what it becomes
depends only on what was there. Deleting names takes away what is under them in one kind.
Nothing else changes in either case.

The names are deleted one after the other, and the count goes up when a name is still
there at its turn. A repeated name is there only once, so the count is the number of
distinct names that the shard had.

## Main definitions

* `Shard.totals?`: What a shard has under a kind and a name.
* `Shard.present`: The distinct names among some that a shard has.
* `Shard.Removes`: One shard is another one without some names of a kind.

## Theorems

* `Collection.byName_update_self`, `Collection.byName_update_of_ne`: An update of an entry.
* `Collection.byName_delete`: The removal of a name.
* `Shard.ext_totals?`: A shard is determined by what it has under kinds and names.
* `Shard.totals?_receive_self`, `Shard.totals?_receive_of_ne`: Receiving a metric.
* `Shard.removes_deleteAll`: Deleting names removes exactly those names.
* `Shard.deleteAll_count`: The count is the number of distinct names that were there.
-/

namespace ShardConsole

namespace Collection

variable {V : Type} {c : Collection V} {name other : String}

theorem byName_update_self [Total V] (c : Collection V) (name : String) (tags : Tags)
    (change : V → V) : (c.update name tags change).byName[name]? =
      some ((c.byName[name]?.getD ∅).alter tags.text fun total? =>
        some (change (total?.getD Total.start))) :=
  Std.ExtTreeMap.getElem?_alter_self

theorem byName_update_of_ne [Total V] {tags : Tags} {change : V → V} (h : name ≠ other) :
    (c.update name tags change).byName[other]? = c.byName[other]? := by
  refine Std.ExtTreeMap.getElem?_alter.trans (if_neg fun eq => h ?_)
  exact Std.LawfulEqCmp.eq_of_compare eq

theorem byName_delete (c : Collection V) (name other : String) :
    (c.delete name).byName[other]? = if other = name then none else c.byName[other]? := by
  refine Std.ExtTreeMap.getElem?_erase.trans ?_
  by_cases h : name = other
  · rw [if_pos (Std.LawfulEqCmp.compare_eq_iff_eq.mpr h), if_pos h.symm]
  · rw [if_neg fun eq => h (Std.LawfulEqCmp.eq_of_compare eq), if_neg (Ne.symm h)]

end Collection

namespace Shard

/-- What a shard has under a kind and a name: the totals of all tag sets. -/
def totals? (s : Shard) (kind : Kind) (name : String) :
    Option (Std.ExtTreeMap String kind.Total) :=
  (s.collection kind).byName[name]?

/-- The distinct names among some that a shard has in a kind. -/
def present (s : Shard) (kind : Kind) (names : List String) : Finset String :=
  names.toFinset.filter fun name => s.contains kind name

/-- The second shard is the first one without some names of a kind: they are gone with all
    their tag sets, and everything else is as it was. -/
def Removes (kind : Kind) (names : List String) (s s' : Shard) : Prop :=
  ∀ (other : Kind) (name : String),
    s'.totals? other name = if other = kind ∧ name ∈ names then none else s.totals? other name

section Lookup

variable {s t : Shard} {kind : Kind} {name : String} {m : Metric}

theorem contains_eq_isSome : s.contains kind name = (s.totals? kind name).isSome :=
  Std.ExtTreeMap.contains_eq_isSome_getElem?

/-- A shard is determined by what it has under kinds and names. -/
theorem ext_totals? (same : ∀ kind name, s.totals? kind name = t.totals? kind name) : s = t := by
  have collections (kind : Kind) : s.collection kind = t.collection kind := by
    have maps : (s.collection kind).byName = (t.collection kind).byName :=
      Std.ExtTreeMap.ext_getElem? fun name => same kind name
    cases hs : s.collection kind
    cases ht : t.collection kind
    rw [hs, ht] at maps
    exact congrArg Collection.mk maps
  rcases s with ⟨_, _, _, _⟩
  rcases t with ⟨_, _, _, _⟩
  have counters := collections .counter
  have timers := collections .timer
  have gauges := collections .gauge
  have sets := collections .set
  simp only [collection] at counters timers gauges sets
  rw [counters, timers, gauges, sets]

/-- What is under the kind and the name of a metric after it has been received depends only
    on what was there. -/
theorem totals?_receive_self (s : Shard) (m : Metric) :
    (s.receive m).totals? m.kind m.name =
      some (((s.totals? m.kind m.name).getD ∅).alter m.tags.text fun total? =>
        some (m.value.addTo (total?.getD Total.start))) := by
  rw [totals?, receive, collection_modify_self]
  exact Collection.byName_update_self _ _ _ _

/-- What is under another kind or another name than those of a metric stays. -/
theorem totals?_receive_of_ne (other : kind ≠ m.kind ∨ name ≠ m.name) :
    (s.receive m).totals? kind name = s.totals? kind name := by
  by_cases hk : kind = m.kind
  · subst hk
    have hn : name ≠ m.name := other.resolve_left fun h => h rfl
    rw [totals?, receive, collection_modify_self]
    exact Collection.byName_update_of_ne (Ne.symm hn)
  · rw [totals?, receive, collection_modify_of_ne s hk, totals?]

theorem totals?_delete (s : Shard) (kind other : Kind) (name removed : String) :
    (s.delete kind removed).totals? other name =
      if other = kind ∧ name = removed then none else s.totals? other name := by
  by_cases hk : other = kind
  · subst hk
    rw [totals?, delete, collection_modify_self, Collection.byName_delete]
    simp only [true_and, totals?]
  · rw [if_neg fun h => hk h.1, totals?, delete, collection_modify_of_ne s hk, totals?]

theorem contains_delete (s : Shard) (kind : Kind) (name removed : String) :
    (s.delete kind removed).contains kind name = true ↔
      name ≠ removed ∧ s.contains kind name = true := by
  rw [contains_eq_isSome, contains_eq_isSome, totals?_delete]
  by_cases h : name = removed <;> simp [h]

end Lookup

section Deletion

variable {s : Shard} {kind : Kind}

theorem deleteAll_nil : s.deleteAll kind [] = (s, 0) := rfl

-- The count of a deletion that has already counted something goes on from there.
theorem deleteAll_foldl (names : List String) (s : Shard) (count : Nat) :
    names.foldl (fun (s, removed) name =>
        (s.delete kind name, if s.contains kind name then removed + 1 else removed)) (s, count) =
      ((s.deleteAll kind names).1, count + (s.deleteAll kind names).2) := by
  induction names generalizing s count with
  | nil => rfl
  | cons name rest ih =>
      rw [deleteAll, List.foldl_cons, List.foldl_cons, ih, ih]
      by_cases there : s.contains kind name = true
      · simp only [there, if_true, Nat.zero_add, Nat.add_assoc]
      · simp only [there, Bool.false_eq_true, if_false, Nat.zero_add]

-- The first name is deleted first, and it counts if it is there.
theorem deleteAll_cons (s : Shard) (name : String) (rest : List String) :
    s.deleteAll kind (name :: rest) =
      (((s.delete kind name).deleteAll kind rest).1,
        (if s.contains kind name then 1 else 0) +
          ((s.delete kind name).deleteAll kind rest).2) := by
  rw [deleteAll, List.foldl_cons, deleteAll_foldl]

/-- Deleting names removes exactly those names, with all their tag sets. -/
theorem removes_deleteAll (s : Shard) (kind : Kind) (names : List String) :
    Removes kind names s (s.deleteAll kind names).1 := by
  induction names generalizing s with
  | nil =>
      intro other name
      simp [deleteAll_nil]
  | cons removed rest ih =>
      intro other name
      rw [deleteAll_cons, ih (s.delete kind removed) other name, totals?_delete]
      by_cases hk : other = kind <;> by_cases hr : name ∈ rest <;>
        by_cases hn : name = removed <;> simp [hk, hr, hn]

-- The names that are still there after one of them has been deleted.
theorem present_delete (s : Shard) (name : String) (rest : List String) :
    (s.delete kind name).present kind rest = (s.present kind (name :: rest)).erase name := by
  ext other
  simp only [present, Finset.mem_filter, Finset.mem_erase, List.mem_toFinset, List.mem_cons,
    contains_delete]
  by_cases h : other = name <;> simp [h]

/-- The count of a deletion is the number of distinct names that were there, however often
    a name is repeated. -/
theorem deleteAll_count (s : Shard) (kind : Kind) (names : List String) :
    (s.deleteAll kind names).2 = (s.present kind names).card := by
  induction names generalizing s with
  | nil => rfl
  | cons name rest ih =>
      rw [deleteAll_cons, ih, present_delete]
      -- A name that is there counts now and is gone for the rest.
      by_cases there : s.contains kind name = true
      · have mem : name ∈ s.present kind (name :: rest) := by simp [present, there]
        rw [if_pos there, Nat.add_comm, Finset.card_erase_add_one mem]
      · have notMem : name ∉ s.present kind (name :: rest) := by simp [present, there]
        rw [if_neg there, Nat.zero_add, Finset.erase_eq_of_notMem notMem]

end Deletion

end Shard

end ShardConsole
