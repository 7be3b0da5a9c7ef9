import Mathlib.Data.Finset.Card
import Mathlib.Data.Finset.Image
import ShardConsole.Proofs.Shard.Names

/-!
# Deletions in a Row

What is left of a shard after several deletions, and how many names they count together.

Each deletion names pairs of a kind and a name. A pair that several of them name is there for
the first of them only, so it counts once, for whichever comes first. All of them together
therefore count the pairs that the shard had and that any of them names, and they leave
everything else. Neither depends on their order.

## Main definitions

* `pairsOf`: The pairs of a kind and a name that deletions name.
* `Shard.deleteEach`: A shard after deletions, with what they count together.
* `Shard.having`: The pairs among some that a shard has.

## Theorems

* `Shard.having_of_removes`: The pairs that are left after a deletion.
* `Shard.totals?_deleteEach`: What is left after several deletions.
* `Shard.deleteEach_count`: What several deletions count together.
-/

namespace ShardConsole

/-- The pairs of a kind and a name that deletions name, each of which is given by a kind and
    the names to be deleted. -/
def pairsOf (deletions : List (Kind × List String)) : Finset (Kind × String) :=
  (deletions.flatMap fun deletion => deletion.2.map fun name => (deletion.1, name)).toFinset

namespace Shard

/-- A shard after deletions, one after the other, with the number of names that they count
    together. -/
def deleteEach (s : Shard) : List (Kind × List String) → Shard × Nat
  | [] => (s, 0)
  | deletion :: rest =>
    let first := s.deleteAll deletion.1 deletion.2
    let last := first.1.deleteEach rest
    (last.1, first.2 + last.2)

/-- The pairs among some that a shard has. -/
def having (s : Shard) (pairs : Finset (Kind × String)) : Finset (Kind × String) :=
  pairs.filter fun pair => s.contains pair.1 pair.2

section Pairs

variable {s s' : Shard} {kind other : Kind} {name : String} {names : List String}
  {deletion : Kind × List String} {rest : List (Kind × List String)}

theorem mem_pairsOf_singleton :
    (other, name) ∈ pairsOf [(kind, names)] ↔ other = kind ∧ name ∈ names := by
  simp only [pairsOf, List.flatMap_singleton, List.mem_toFinset, List.mem_map, Prod.mk.injEq]
  constructor
  · rintro ⟨_, mem, rfl, rfl⟩
    exact ⟨rfl, mem⟩
  · rintro ⟨rfl, mem⟩
    exact ⟨name, mem, rfl, rfl⟩

theorem pairsOf_cons : pairsOf (deletion :: rest) = pairsOf [deletion] ∪ pairsOf rest := by
  rw [pairsOf, List.flatMap_cons, List.toFinset_append]
  simp only [pairsOf, List.flatMap_singleton]

theorem mem_pairsOf {deletions : List (Kind × List String)} : (kind, name) ∈ pairsOf deletions ↔
    ∃ names, (kind, names) ∈ deletions ∧ name ∈ names := by
  induction deletions with
  | nil => simp [pairsOf]
  | cons deletion rest ih =>
      rcases deletion with ⟨other, names⟩
      rw [pairsOf_cons, Finset.mem_union, mem_pairsOf_singleton, ih]
      simp only [List.mem_cons, Prod.mk.injEq, or_and_right, exists_or, and_assoc,
        exists_and_left, exists_eq_left]

theorem mem_having {pairs : Finset (Kind × String)} :
    (kind, name) ∈ s.having pairs ↔ (kind, name) ∈ pairs ∧ s.contains kind name = true := by
  rw [having, Finset.mem_filter]

/-- A deletion leaves those of some pairs that it does not name. -/
theorem having_of_removes (removes : Removes kind names s s') (pairs : Finset (Kind × String)) :
    s'.having pairs = s.having pairs \ pairsOf [(kind, names)] := by
  ext ⟨other, name⟩
  rw [Finset.mem_sdiff, mem_having, mem_having, mem_pairsOf_singleton, contains_eq_isSome,
    contains_eq_isSome, removes other name]
  by_cases named : other = kind ∧ name ∈ names <;> simp [named]

-- A deletion counts the pairs that it names and that are there.
theorem card_present (s : Shard) (kind : Kind) (names : List String) :
    (s.present kind names).card = (s.having (pairsOf [(kind, names)])).card := by
  have image : s.having (pairsOf [(kind, names)]) =
      (s.present kind names).image fun name => (kind, name) := by
    ext ⟨other, name⟩
    rw [mem_having, mem_pairsOf_singleton, Finset.mem_image]
    constructor
    · rintro ⟨⟨rfl, mem⟩, there⟩
      exact ⟨name, by simp [present, mem, there], rfl⟩
    · rintro ⟨_, mem, same⟩
      cases same
      simpa [present] using mem
  rw [image, Finset.card_image_of_injective _ (Prod.mk_right_injective kind)]

end Pairs

section Rows

/-- Several deletions take away what any of them names, and nothing else. -/
theorem totals?_deleteEach (deletions : List (Kind × List String)) (s : Shard) (kind : Kind)
    (name : String) : (s.deleteEach deletions).1.totals? kind name =
      if (kind, name) ∈ pairsOf deletions then none else s.totals? kind name := by
  induction deletions generalizing s with
  | nil => simp [deleteEach, pairsOf]
  | cons deletion rest ih =>
      rcases deletion with ⟨other, names⟩
      have named : (kind, name) ∈ pairsOf ((other, names) :: rest) ↔
          (kind = other ∧ name ∈ names) ∨ (kind, name) ∈ pairsOf rest := by
        rw [pairsOf_cons, Finset.mem_union, mem_pairsOf_singleton]
      rw [deleteEach, ih, removes_deleteAll s other names kind name]
      simp only [named]
      by_cases first : kind = other ∧ name ∈ names <;>
        by_cases later : (kind, name) ∈ pairsOf rest <;> simp [first, later]

/-- Several deletions together count the pairs that the shard had and that any of them
    names, each once. -/
theorem deleteEach_count (deletions : List (Kind × List String)) (s : Shard) :
    (s.deleteEach deletions).2 = (s.having (pairsOf deletions)).card := by
  induction deletions generalizing s with
  | nil => simp [deleteEach, having, pairsOf]
  | cons deletion rest ih =>
      rcases deletion with ⟨kind, names⟩
      -- What the others count are the pairs that the first one does not name.
      have left := having_of_removes (removes_deleteAll s kind names) (pairsOf rest)
      have split : s.having (pairsOf ((kind, names) :: rest)) =
          s.having (pairsOf [(kind, names)]) ∪
            (s.having (pairsOf rest) \ pairsOf [(kind, names)]) := by
        rw [pairsOf_cons]
        ext pair
        simp only [having, Finset.mem_union, Finset.mem_filter, Finset.mem_sdiff]
        tauto
      have apart : Disjoint (s.having (pairsOf [(kind, names)]))
          (s.having (pairsOf rest) \ pairsOf [(kind, names)]) := by
        rw [Finset.disjoint_left]
        intro pair mem others
        exact (Finset.mem_sdiff.mp others).2 (Finset.mem_filter.mp mem).1
      rw [split, Finset.card_union_of_disjoint apart, ← card_present, ← left, ← ih,
        ← deleteAll_count]
      rfl

end Rows

end Shard

end ShardConsole
