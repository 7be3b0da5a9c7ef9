import Mathlib.Algebra.GroupWithZero.Nat

/-!
# Sums over Lists

What becomes of a sum over the members of a system, each of which brings a number to it, when one
of them changes or when others come to it.

## Theorems

* `sum_map_modify`: The sum after one member has changed.
* `sum_map_le_of_getElem?`: A sum is no greater than another one to which every member brings no
  less.
-/

namespace ShardConsole

/-- One member brings another number than before. -/
theorem sum_map_modify {α : Type} {l : List α} {i : Nat} {x : α} (f : α → Nat) (g : α → α)
    (h : l[i]? = some x) : ((l.modify i g).map f).sum + f x = (l.map f).sum + f (g x) := by
  induction l generalizing i with
  | nil => cases h
  | cons y rest ih =>
      cases i with
      | zero =>
          cases h
          rw [List.modify_zero_cons, List.map_cons, List.map_cons, List.sum_cons, List.sum_cons]
          omega
      | succ i =>
          have := ih h
          rw [List.modify_succ_cons, List.map_cons, List.map_cons, List.sum_cons, List.sum_cons]
          omega

/-- The first sum may have fewer members than the second one. -/
theorem sum_map_le_of_getElem? {α β : Type} {l : List α} {l' : List β} (f : α → Nat) (g : β → Nat)
    (le : ∀ (i : Nat) (x : α), l[i]? = some x → ∃ y, l'[i]? = some y ∧ f x ≤ g y) :
    (l.map f).sum ≤ (l'.map g).sum := by
  induction l generalizing l' with
  | nil => exact Nat.zero_le _
  | cons x rest ih =>
      rcases le 0 x rfl with ⟨y, first, le'⟩
      cases l' with
      | nil => cases first
      | cons y' rest' =>
          cases first
          rw [List.map_cons, List.map_cons, List.sum_cons, List.sum_cons]
          exact Nat.add_le_add le' (ih fun i x there => le (i + 1) x there)

end ShardConsole
