import Mathlib.Algebra.BigOperators.Group.Finset.Basic
import Mathlib.Algebra.GroupWithZero.Nat
import Mathlib.Data.List.Nodup
import ShardConsole.Proofs.Shard.Names

/-!
# Parts of a Shard

How a shard falls into parts by the names that each part owns, and how it is put together
again.

`Restricts` says that one shard has what another one has under the names it owns, and
nothing else. Both changes of a shard respect that: a metric is received by the whole and
by the part that owns its name, and a deletion may be made in every part, since a part
that does not own a name has nothing under it.

When every name is owned by exactly one of some parts, what the parts show adds up to what
the whole shows. The distinct names among some that are there are counted part by part,
and the entries of the parts are the entries of the whole, each once, in another order.

## Main definitions

* `Shard.Restricts`: One shard is the part of another that has some of its names.

## Theorems

* `Collection.mem_entries`, `Collection.nodup_entries`: What the entries of a collection are.
* `Collection.text_eq_join`: A listing is made up of the records of the entries.
* `Collection.render_eq_self_iff`: A listing of no entries adds nothing, and no other one does.
* `Shard.Restricts.receive`, `Shard.Restricts.receive_other`: Receiving a metric.
* `Shard.Restricts.deleteAll`: Deleting names.
* `Shard.sum_card_present`: The names that are there are counted part by part.
* `Shard.entries_perm`: The entries of all parts are those of the whole.
* `Shard.exists_entries_of_texts`: Listings of parts, in any order, list their entries.
-/

namespace ShardConsole

namespace Collection

variable {V : Type}

/-- The entries of a collection are the totals under its names and tag sets. -/
theorem mem_entries {c : Collection V} {e : Entry V} :
    e ∈ c.entries ↔ ∃ byTags, c.byName[e.name]? = some byTags ∧ byTags[e.tags]? = some e.total := by
  simp only [entries, List.mem_flatMap, List.mem_map, Prod.exists,
    Std.ExtTreeMap.mem_toList_iff_getElem?_eq_some]
  constructor
  · rintro ⟨name, byTags, hn, tags, total, ht, rfl⟩
    exact ⟨byTags, hn, ht⟩
  · rintro ⟨byTags, hn, ht⟩
    exact ⟨e.name, byTags, hn, e.tags, e.total, ht, rfl⟩

/-- A collection has each of its entries once. -/
theorem nodup_entries (c : Collection V) : c.entries.Nodup := by
  rw [entries, List.nodup_flatMap]
  constructor
  · rintro ⟨name, byTags⟩ _
    refine List.Pairwise.map _ ?_ (Std.ExtTreeMap.distinct_keys_toList (t := byTags))
    intro a b distinct same
    have tags : a.1 = b.1 := congrArg Entry.tags same
    exact distinct (Std.LawfulEqCmp.compare_eq_iff_eq.mpr tags)
  · refine (Std.ExtTreeMap.distinct_keys_toList (t := c.byName)).imp ?_
    intro a b distinct
    rw [Function.onFun, List.disjoint_left]
    intro e ha hb
    rcases List.mem_map.mp ha with ⟨_, _, rfl⟩
    rcases List.mem_map.mp hb with ⟨_, _, same⟩
    have names : b.1 = a.1 := congrArg Entry.name same
    exact distinct (Std.LawfulEqCmp.compare_eq_iff_eq.mpr names.symm)

/-- A listing adds the records of the entries to what is already written. -/
theorem render_eq_append [Total V] (c : Collection V) (out : String) :
    c.render out = out ++ String.join (c.entries.map Entry.record) := by
  rw [render]
  induction c.entries generalizing out with
  | nil => rw [List.foldl_nil, List.map_nil, String.join_nil, String.append_empty]
  | cons e rest ih =>
      rw [List.foldl_cons, ih, List.map_cons, String.join_cons, String.append_assoc]

/-- A listing is made up of the records of the entries. -/
theorem text_eq_join [Total V] (c : Collection V) :
    c.text = String.join (c.entries.map Entry.record) := by
  rw [text, render_eq_append, String.empty_append]

/-- A listing adds nothing exactly if there are no entries, since a record is a line. -/
theorem render_eq_self_iff [Total V] {c : Collection V} {out : String} :
    c.render out = out ↔ c.entries = [] := by
  rw [render_eq_append, String.append_eq_left_iff]
  cases c.entries with
  | nil => simp
  | cons e rest =>
      rw [List.map_cons, String.join_cons, String.append_eq_empty_iff, Entry.record]
      simp

end Collection

namespace Shard

/-- A shard that has what another one has under the names that it owns, and nothing under
    other names. -/
def Restricts (owned : String → Bool) (whole part : Shard) : Prop :=
  ∀ (kind : Kind) (name : String),
    part.totals? kind name = if owned name then whole.totals? kind name else none

section Changes

variable {owned : String → Bool} {whole part : Shard}

theorem totals?_empty (kind : Kind) (name : String) : empty.totals? kind name = none := by
  cases kind <;> exact Std.ExtTreeMap.getElem?_empty

theorem restricts_empty : Restricts owned empty empty := by
  intro kind name
  rw [totals?_empty, ite_self]

/-- A metric whose name is owned is received by the part as by the whole. -/
theorem Restricts.receive (h : Restricts owned whole part) {m : Metric}
    (mine : owned m.name = true) : Restricts owned (whole.receive m) (part.receive m) := by
  intro kind name
  by_cases same : kind = m.kind ∧ name = m.name
  · rcases same with ⟨rfl, rfl⟩
    rw [if_pos mine, totals?_receive_self, totals?_receive_self, h m.kind m.name, if_pos mine]
  · have other : kind ≠ m.kind ∨ name ≠ m.name := by
      by_cases hk : kind = m.kind
      · exact Or.inr fun hn => same ⟨hk, hn⟩
      · exact Or.inl hk
    rw [totals?_receive_of_ne other, totals?_receive_of_ne other, h kind name]

/-- A metric whose name is not owned is no concern of the part. -/
theorem Restricts.receive_other (h : Restricts owned whole part) {m : Metric}
    (other : owned m.name = false) : Restricts owned (whole.receive m) part := by
  intro kind name
  rw [h kind name]
  by_cases mine : owned name = true
  · -- The names that are owned are not that of the metric.
    have hn : name ≠ m.name := by
      rintro rfl
      rw [other] at mine
      cases mine
    rw [if_pos mine, if_pos mine, totals?_receive_of_ne (Or.inr hn)]
  · rw [if_neg mine, if_neg mine]

/-- A deletion may be made in every part. -/
theorem Restricts.deleteAll (h : Restricts owned whole part) (kind : Kind)
    (names : List String) :
    Restricts owned (whole.deleteAll kind names).1 (part.deleteAll kind names).1 := by
  intro other name
  rw [removes_deleteAll part kind names other name, removes_deleteAll whole kind names other name,
    h other name]
  by_cases gone : other = kind ∧ name ∈ names
  · rw [if_pos gone, if_pos gone, ite_self]
  · rw [if_neg gone, if_neg gone]

-- The names that a part has are those of the whole that it owns.
theorem Restricts.present (h : Restricts owned whole part) (kind : Kind) (names : List String) :
    part.present kind names = (whole.present kind names).filter fun name => owned name = true := by
  ext name
  rw [Shard.present, Shard.present, Finset.mem_filter, Finset.mem_filter, Finset.mem_filter,
    contains_eq_isSome, contains_eq_isSome, h kind name]
  by_cases mine : owned name = true
  · simp only [mine, if_true, and_true]
  · simp only [mine, Bool.false_eq_true, if_false, Option.isSome_none, and_false]

end Changes

section Recombination

variable {kind : Kind} {whole : Shard} {owner : String → Nat} {n : Nat}

/-- The names that are there, counted part by part and in any order of the parts, are as
    many as in the whole. -/
theorem sum_card_present (names : List String) (inside : ∀ name, owner name < n)
    (parts : List (Nat × Shard)) (everyone : (parts.map Prod.fst).Perm (List.range n))
    (each : ∀ part ∈ parts, Restricts (fun name => owner name == part.1) whole part.2) :
    (parts.map fun part => (part.2.present kind names).card).sum =
      (whole.present kind names).card := by
  -- What a part counts are the names of the whole that it owns.
  have cards : (parts.map fun part => (part.2.present kind names).card) =
      (parts.map Prod.fst).map fun w =>
        ((whole.present kind names).filter fun name => owner name = w).card := by
    rw [List.map_map]
    refine List.map_congr_left fun part hp => ?_
    rw [(each part hp).present]
    simp only [beq_iff_eq, Function.comp_apply]
  have fibers : (whole.present kind names).card = ((List.range n).map fun w =>
      ((whole.present kind names).filter fun name => owner name = w).card).sum :=
    Finset.card_eq_sum_card_fiberwise (t := Finset.range n)
      fun name _ => Finset.mem_coe.mpr (Finset.mem_range.mpr (inside name))
  rw [cards, (everyone.map _).sum_eq, fibers]

/-- The entries of all parts are the entries of the whole, each once. -/
theorem entries_perm (inside : ∀ name, owner name < n) (parts : List (Nat × Shard))
    (everyone : (parts.map Prod.fst).Perm (List.range n))
    (each : ∀ part ∈ parts, Restricts (fun name => owner name == part.1) whole part.2) :
    (parts.flatMap fun part => (part.2.collection kind).entries).Perm
      (whole.collection kind).entries := by
  -- An entry of a part has a name that the part owns, and the whole has it too.
  have owned (part : Nat × Shard) (hp : part ∈ parts) (e : Entry kind.Total) :
      e ∈ (part.2.collection kind).entries ↔
        owner e.name = part.1 ∧ e ∈ (whole.collection kind).entries := by
    have same := each part hp kind e.name
    rw [totals?, totals?] at same
    rw [Collection.mem_entries, Collection.mem_entries, same]
    by_cases mine : owner e.name = part.1
    · simp only [mine, BEq.rfl, if_true, true_and]
    · simp only [beq_iff_eq, mine, if_false, reduceCtorEq, false_and, exists_false]
  -- Two parts own different names, so they share no entries.
  have once : (parts.flatMap fun part => (part.2.collection kind).entries).Nodup := by
    rw [List.nodup_flatMap]
    refine ⟨fun part _ => Collection.nodup_entries _, ?_⟩
    have distinct : (parts.map Prod.fst).Nodup := everyone.nodup_iff.mpr List.nodup_range
    refine (List.pairwise_map.mp distinct).imp_of_mem ?_
    intro a b ha hb hne
    rw [Function.onFun, List.disjoint_left]
    intro e hea heb
    exact hne (((owned a ha e).mp hea).1.symm.trans ((owned b hb e).mp heb).1)
  rw [List.perm_ext_iff_of_nodup once (Collection.nodup_entries _)]
  intro e
  rw [List.mem_flatMap]
  constructor
  · rintro ⟨part, hp, he⟩
    exact ((owned part hp e).mp he).2
  · intro he
    have mem : owner e.name ∈ parts.map Prod.fst := by
      rw [everyone.mem_iff, List.mem_range]
      exact inside e.name
    rcases List.mem_map.mp mem with ⟨part, hp, same⟩
    exact ⟨part, hp, (owned part hp e).mpr ⟨same.symm, he⟩⟩

end Recombination

section Listings

variable {kind : Kind}

/-- A listing is made up of the records of the entries. -/
theorem text_eq_join (s : Shard) (kind : Kind) :
    s.text kind = String.join ((s.collection kind).entries.map Entry.record) :=
  (s.collection kind).text_eq_join

theorem join_flatMap {α : Type} (items : List α) (f : α → List String) :
    String.join (items.flatMap f) = String.join (items.map fun item => String.join (f item)) := by
  induction items with
  | nil => rfl
  | cons item rest ih =>
      rw [List.flatMap_cons, List.map_cons, String.join_append, String.join_cons, ih]

theorem entries_eq_nil_of_text (s : Shard) (empty : s.text kind = "") :
    (s.collection kind).entries = [] :=
  Collection.render_eq_self_iff.mp empty

-- A list that is, up to the order, what a function makes of some items is what it makes of
-- these items in another order.
theorem exists_perm_map {α β : Type} {f : α → β} {items : List α} {results : List β}
    (perm : results.Perm (items.map f)) :
    ∃ order : List α, order.Perm items ∧ results = order.map f := by
  generalize made : items.map f = target at perm
  induction perm generalizing items with
  | nil => exact ⟨items, .refl _, made.symm⟩
  | cons x _ ih =>
      rcases List.map_eq_cons_iff.mp made with ⟨a, rest, rfl, rfl, tail⟩
      rcases ih tail with ⟨order, perm, rfl⟩
      exact ⟨a :: order, perm.cons a, rfl⟩
  | swap x y l =>
      rcases List.map_eq_cons_iff.mp made with ⟨a, _, rfl, rfl, tail⟩
      rcases List.map_eq_cons_iff.mp tail with ⟨b, rest, rfl, rfl, rfl⟩
      exact ⟨b :: a :: rest, .swap a b rest, rfl⟩
  | trans _ _ ih₁ ih₂ =>
      rcases ih₂ made with ⟨order₂, perm₂, same⟩
      rcases ih₁ same.symm with ⟨order₁, perm₁, rfl⟩
      exact ⟨order₁, perm₁.trans perm₂, rfl⟩

/-- The listings of some parts without the empty ones, one after the other in any order,
    list the entries of the parts. -/
theorem exists_entries_of_texts (parts : List (Nat × Shard)) {texts : List String}
    (perm : texts.Perm ((parts.map fun part => part.2.text kind).filter (· ≠ ""))) :
    ∃ entries : List (Entry kind.Total),
      entries.Perm (parts.flatMap fun part => (part.2.collection kind).entries) ∧
        String.join texts = String.join (entries.map Entry.record) := by
  rw [List.filter_map] at perm
  rcases exists_perm_map perm with ⟨order, shown, rfl⟩
  refine ⟨order.flatMap fun part => (part.2.collection kind).entries, ?_, ?_⟩
  · -- The parts that were left out have no entries.
    have left : (parts.filter ((fun text => decide (text ≠ "")) ∘
        fun part => part.2.text kind)).flatMap (fun part => (part.2.collection kind).entries) =
        parts.flatMap fun part => (part.2.collection kind).entries := by
      clear perm shown order
      induction parts with
      | nil => rfl
      | cons part rest ih =>
          rw [List.flatMap_cons, ← ih, List.filter_cons]
          by_cases empty : part.2.text kind = ""
          · rw [entries_eq_nil_of_text part.2 empty]
            simp [empty]
          · simp [empty]
    rw [← left]
    exact shown.flatMap_right _
  · rw [List.map_flatMap, join_flatMap]
    simp only [text_eq_join]

end Listings

end Shard

end ShardConsole
