import ShardConsole.Proofs.Shard.Restriction

/-!
# Entries of Collections

What a collection has under a name and a written tag set, and when that is all there is to know
about it.

A collection is a map of maps, so it could in principle have a name with nothing under it. A
listing would not show such a name, although it is there. It never comes to that: an update
leaves a total under the name that it begins, and a deletion takes the name away together with
everything under it. In a collection that is made by updates and deletions a name is therefore
there exactly if it has an entry, and two such collections with the same entries are equal.

The entries come in ascending order of the names and, under a name, of the tag sets, and no two of
them stand at the same place of that order.

## Main definitions

* `Collection.total?`: What a collection has under a name and a written tag set.
* `Collection.Built`: A collection that is made by updates and deletions.
* `Collection.Filled`: A collection whose names all have an entry.
* `Entry.Precedes`: The order of entries.

## Theorems

* `Collection.total?_update`, `Collection.total?_delete`: What the two changes do to an entry.
* `Collection.Built.filled`: Updates and deletions leave no name without an entry.
* `Collection.ext_total?`: A collection is determined by its entries.
* `Collection.mem_entries_iff`, `Collection.entries_ordered`: What the entries are, and in which
  order.
-/

namespace ShardConsole

/-- One entry comes before another: its name is less, or it has the same name and its tag set is
    less. -/
def Entry.Precedes {V : Type} (e f : Entry V) : Prop :=
  e.name < f.name ∨ e.name = f.name ∧ e.tags < f.tags

namespace Collection

variable {V : Type}

/-- What a collection has under a name and a written tag set. -/
def total? (c : Collection V) (name key : String) : Option V :=
  c.byName[name]?.bind fun byTags => byTags[key]?

/-- A collection that updates and deletions make of the one without entries. -/
inductive Built [Total V] : Collection V → Prop
  | empty : Built empty
  | update {c : Collection V} (built : Built c) (name : String) (tags : Tags) (change : V → V) :
      Built (c.update name tags change)
  | delete {c : Collection V} (built : Built c) (name : String) : Built (c.delete name)

/-- A collection whose names all have an entry. -/
def Filled (c : Collection V) : Prop :=
  ∀ name, c.contains name = true → ∃ key, (c.total? name key).isSome

section Lookup

variable {c d : Collection V} {name other key : String} {tags : Tags}

theorem get?_eq_total? (c : Collection V) (name : String) (tags : Tags) :
    c.get? name tags = c.total? name tags.text := rfl

theorem total?_empty : (empty : Collection V).total? name key = none := by
  rw [total?, empty, Std.ExtTreeMap.getElem?_empty, Option.bind_none]

/-- An update changes the total of its entry, and no other one. -/
theorem total?_update [Total V] (c : Collection V) (name : String) (tags : Tags)
    (change : V → V) (other key : String) : (c.update name tags change).total? other key =
      if other = name ∧ key = tags.text then
        some (change ((c.total? name tags.text).getD Total.start))
      else c.total? other key := by
  by_cases hn : other = name
  · subst hn
    rw [total?, byName_update_self, Option.bind_some, Std.ExtTreeMap.getElem?_alter]
    by_cases hk : key = tags.text
    · subst hk
      rw [if_pos (Std.LawfulEqCmp.compare_eq_iff_eq.mpr rfl), if_pos ⟨rfl, rfl⟩, total?]
      cases c.byName[other]? with
      | none => simp
      | some byTags => rfl
    · rw [if_neg fun same => hk (Std.LawfulEqCmp.eq_of_compare same).symm,
        if_neg fun both => hk both.2, total?]
      cases c.byName[other]? with
      | none => simp
      | some byTags => rfl
  · rw [total?, byName_update_of_ne (Ne.symm hn), if_neg fun both => hn both.1, total?]

/-- A deletion takes away all entries with its name, and no others. -/
theorem total?_delete (c : Collection V) (name other key : String) :
    (c.delete name).total? other key = if other = name then none else c.total? other key := by
  rw [total?, byName_delete]
  by_cases hn : other = name
  · rw [if_pos hn, if_pos hn, Option.bind_none]
  · rw [if_neg hn, if_neg hn, total?]

theorem contains_of_total? (h : (c.total? name key).isSome) : c.contains name = true := by
  rw [contains, Std.ExtTreeMap.contains_eq_isSome_getElem?]
  rw [total?] at h
  exact Option.isSome_of_isSome_bind h

theorem contains_update [Total V] (change : V → V) :
    (c.update name tags change).contains other = true ↔
      other = name ∨ c.contains other = true := by
  rw [contains, contains, Std.ExtTreeMap.contains_eq_isSome_getElem?,
    Std.ExtTreeMap.contains_eq_isSome_getElem?]
  by_cases hn : other = name
  · subst hn
    simp [byName_update_self]
  · rw [byName_update_of_ne (Ne.symm hn)]
    simp [hn]

theorem contains_delete :
    (c.delete name).contains other = true ↔ other ≠ name ∧ c.contains other = true := by
  rw [contains, contains, Std.ExtTreeMap.contains_eq_isSome_getElem?,
    Std.ExtTreeMap.contains_eq_isSome_getElem?, byName_delete]
  by_cases hn : other = name <;> simp [hn]

end Lookup

section Filled

variable {c d : Collection V}

/-- Updates and deletions leave no name without an entry. -/
theorem Built.filled [Total V] (built : Built c) : c.Filled := by
  induction built with
  | empty =>
      intro name there
      rw [contains, Collection.empty, Std.ExtTreeMap.contains_empty] at there
      cases there
  | @update c _ name tags change ih =>
      intro other there
      -- The name of the update has the entry that was updated.
      by_cases hn : other = name
      · refine ⟨tags.text, ?_⟩
        rw [total?_update, if_pos ⟨hn, rfl⟩, Option.isSome_some]
      · have before := ((contains_update change).mp there).resolve_left hn
        rcases ih other before with ⟨key, some⟩
        refine ⟨key, ?_⟩
        rwa [total?_update, if_neg fun both => hn both.1]
  | @delete c _ name ih =>
      intro other there
      rcases contains_delete.mp there with ⟨hn, before⟩
      rcases ih other before with ⟨key, some⟩
      refine ⟨key, ?_⟩
      rwa [total?_delete, if_neg hn]

/-- Two collections with the same entries are equal if all their names have one. -/
theorem ext_total? (hc : c.Filled) (hd : d.Filled)
    (same : ∀ name key, c.total? name key = d.total? name key) : c = d := by
  have names (name : String) : c.contains name = d.contains name := by
    rw [Bool.eq_iff_iff]
    constructor
    · intro there
      rcases hc name there with ⟨key, some⟩
      exact contains_of_total? (same name key ▸ some)
    · intro there
      rcases hd name there with ⟨key, some⟩
      exact contains_of_total? (same name key ▸ some)
  have maps : c.byName = d.byName := by
    refine Std.ExtTreeMap.ext_getElem? fun name => ?_
    have there := names name
    rw [contains, contains, Std.ExtTreeMap.contains_eq_isSome_getElem?,
      Std.ExtTreeMap.contains_eq_isSome_getElem?] at there
    have entries := same name
    simp only [total?] at entries
    cases hc : c.byName[name]? with
    | none =>
        cases hd : d.byName[name]? with
        | none => rfl
        | some byTags => simp [hc, hd] at there
    | some byTags =>
        cases hd : d.byName[name]? with
        | none => simp [hc, hd] at there
        | some byTags' =>
            rw [hc, hd] at entries
            exact congrArg some (Std.ExtTreeMap.ext_getElem? entries)
  cases c
  cases d
  exact congrArg mk maps

end Filled

section Order

variable {c : Collection V} {e : Entry V}

/-- The entries of a collection are what it has under names and written tag sets. -/
theorem mem_entries_iff : e ∈ c.entries ↔ c.total? e.name e.tags = some e.total := by
  rw [mem_entries, total?, Option.bind_eq_some_iff]

/-- The entries come in strictly ascending order. -/
theorem entries_ordered (c : Collection V) : c.entries.Pairwise Entry.Precedes := by
  rw [entries, List.pairwise_flatMap]
  constructor
  · rintro ⟨name, byTags⟩ _
    refine List.Pairwise.map _ ?_ (Std.ExtTreeMap.ordered_keys_toList (t := byTags))
    intro a b less
    exact Or.inr ⟨rfl, compareOfLessAndEq_eq_lt.mp less⟩
  · refine (Std.ExtTreeMap.ordered_keys_toList (t := c.byName)).imp ?_
    intro a b less e he f hf
    rcases List.mem_map.mp he with ⟨_, _, rfl⟩
    rcases List.mem_map.mp hf with ⟨_, _, rfl⟩
    exact Or.inl (compareOfLessAndEq_eq_lt.mp less)

end Order

end Collection

end ShardConsole
