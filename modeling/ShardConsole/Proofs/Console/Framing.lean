import Mathlib.Data.List.Basic
import ShardConsole.Console.Framing

/-!
# The Lines of a Stream

What a framer finds, said in terms of the stream that the bytes come from.

`linesOf` cuts a stream of bytes at once, in one pass over it. A framer has only seen the bytes
that have arrived, remembers how far it has searched them, and looks no further than a line may
reach. `Finds` says what there is to find in its buffer without any of that, and `finds_next`
says that a framer finds just this, as long as what it has searched is free of newlines.

## Main definitions

* `linesOf`: The lines of a stream.
* `Searched`: A framer that has searched in vain so far.
* `Finds`: What there is to find in a buffer.

## Theorems

* `linesOf_line`: The first line of a stream is what comes before its first newline.
* `linesOf_rest`: A stream without newlines is a line by itself.
* `length_head_linesOf`: The first line is no shorter than what is known to be free of newlines.
* `finds_next`, `finds_finish`: What a framer finds.
* `length_of_next`, `length_of_finish`: A line that is found is taken out of the buffer.
-/

namespace ShardConsole

namespace Framer

/-- The lines of a stream of bytes: what lies before each of its newlines, and what is left
    over behind the last one unless that is empty. -/
def linesOf : List UInt8 → List (List UInt8)
  | [] => []
  | b :: rest =>
    if b = newline then [] :: linesOf rest
    else
      match linesOf rest with
      | [] => [[b]]
      | line :: lines => (b :: line) :: lines

/-- What a framer has searched is free of newlines. -/
def Searched (f : Framer) : Prop :=
  newline ∉ f.buffer.take f.scanned

/-- What there is to find in the buffer of a framer, if nothing more will come or if something
    may. -/
inductive Finds (f : Framer) (drained : Bool) : Progress → Prop
  | line {bytes rest : List UInt8} (plain : newline ∉ bytes) (fits : bytes.length ≤ f.maxLength)
      (cut : f.buffer = bytes ++ newline :: rest) :
      Finds f drained (.line bytes { f with buffer := rest, scanned := 0 })
  | overlong (plain : newline ∉ f.buffer.take (f.maxLength + 1))
      (exceeds : f.maxLength < f.buffer.length) : Finds f drained .overlong
  | unfinished (going : drained = false) (plain : newline ∉ f.buffer)
      (fits : f.buffer.length ≤ f.maxLength) :
      Finds f drained (.unfinished { f with scanned := f.buffer.length })
  | last (ended : drained = true) (plain : newline ∉ f.buffer)
      (fits : f.buffer.length ≤ f.maxLength) (some : f.buffer ≠ []) :
      Finds f drained (.line f.buffer { f with buffer := [], scanned := 0 })
  | exhausted (ended : drained = true) (none : f.buffer = []) : Finds f drained .exhausted

section Lines

variable {line front rest : List UInt8}

@[simp] theorem linesOf_nil : linesOf [] = [] := rfl

/-- The first line of a stream is what comes before its first newline. -/
theorem linesOf_line (plain : newline ∉ line) :
    linesOf (line ++ newline :: rest) = line :: linesOf rest := by
  induction line with
  | nil => rw [List.nil_append, linesOf, if_pos rfl]
  | cons b line ih =>
      rw [List.mem_cons, not_or] at plain
      rw [List.cons_append, linesOf, if_neg (Ne.symm plain.1), ih plain.2]

/-- A stream that begins without a newline has a first line, which begins in the same way. -/
theorem linesOf_front (plain : newline ∉ front) (some : front ≠ []) :
    ∃ line lines, linesOf (front ++ rest) = (front ++ line) :: lines := by
  induction front with
  | nil => exact absurd rfl some
  | cons b front ih =>
      rw [List.mem_cons, not_or] at plain
      by_cases last : front = []
      · subst last
        rw [List.singleton_append, linesOf, if_neg (Ne.symm plain.1)]
        cases linesOf rest with
        | nil => exact ⟨[], [], rfl⟩
        | cons line lines => exact ⟨line, lines, rfl⟩
      · rcases ih plain.2 last with ⟨line, lines, same⟩
        rw [List.cons_append, linesOf, if_neg (Ne.symm plain.1), same]
        exact ⟨line, lines, rfl⟩

/-- A stream without newlines is a line by itself. -/
theorem linesOf_rest (plain : newline ∉ rest) (some : rest ≠ []) : linesOf rest = [rest] := by
  induction rest with
  | nil => exact absurd rfl some
  | cons b rest ih =>
      rw [List.mem_cons, not_or] at plain
      rw [linesOf, if_neg (Ne.symm plain.1)]
      by_cases last : rest = []
      · rw [last, linesOf]
      · rw [ih plain.2 last]

/-- The first line of a stream is no shorter than what is known to be free of newlines. -/
theorem length_head_linesOf {n : Nat} (plain : newline ∉ rest.take n) (enough : n ≤ rest.length)
    (pos : 0 < n) : ∃ line ∈ linesOf rest, n ≤ line.length := by
  have length : (rest.take n).length = n := List.length_take_of_le enough
  have some : rest.take n ≠ [] := by
    intro none
    rw [none, List.length_nil] at length
    omega
  rcases @linesOf_front (rest.take n) (rest.drop n) plain some with ⟨line, lines, same⟩
  rw [List.take_append_drop] at same
  refine ⟨rest.take n ++ line, same ▸ List.mem_cons_self, ?_⟩
  rw [List.length_append, length]
  omega

end Lines

section Finding

variable {f : Framer}

-- Where an element is found first, a list falls apart.
theorem eq_append_of_findIdx? {α : Type} [DecidableEq α] {a : α} {l : List α} {i : Nat}
    (found : l.findIdx? (· = a) = some i) :
    ∃ before after, l = before ++ a :: after ∧ a ∉ before ∧ before.length = i := by
  induction l generalizing i with
  | nil => cases found
  | cons b l ih =>
      rw [List.findIdx?_cons] at found
      split at found
      · rename_i here
        cases found
        rw [decide_eq_true_iff] at here
        exact ⟨[], l, by rw [here]; rfl, List.not_mem_nil, rfl⟩
      · rename_i other
        rcases Option.map_eq_some_iff.mp found with ⟨j, later, rfl⟩
        rcases ih later with ⟨before, after, rfl, plain, rfl⟩
        rw [decide_eq_true_iff] at other
        refine ⟨b :: before, after, rfl, ?_, rfl⟩
        rw [List.mem_cons, not_or]
        exact ⟨Ne.symm other, plain⟩

-- What has been searched before and what is free of newlines behind it.
theorem Searched.append {n : Nat} {more : List UInt8} (searched : f.Searched)
    (plain : newline ∉ more) : newline ∉ (f.buffer.take n).take f.scanned ++ more := by
  rw [List.mem_append, not_or]
  refine ⟨fun early => searched ?_, plain⟩
  rw [List.take_take] at early
  exact (List.take_subset_take_left _ (Nat.min_le_left _ _)) early

-- Where the search in a window stops is the first newline of the buffer.
theorem Searched.cut {n i : Nat} (searched : f.Searched)
    (found : ((f.buffer.take n).drop f.scanned).findIdx? (· = newline) = some i) :
    ∃ line rest, f.buffer = line ++ newline :: rest ∧ newline ∉ line ∧
      line.length = f.scanned + i ∧ line.length < n := by
  rcases eq_append_of_findIdx? found with ⟨before, after, split, plain, rfl⟩
  have begun : f.scanned ≤ (f.buffer.take n).length := by
    by_contra beyond
    have none : (f.buffer.take n).drop f.scanned = [] :=
      List.drop_eq_nil_of_le (Nat.le_of_not_le beyond)
    rw [none] at split
    simp at split
  have window : f.buffer.take n =
      ((f.buffer.take n).take f.scanned ++ before) ++ newline :: after := by
    rw [List.append_assoc, ← split, List.take_append_drop]
  have length : ((f.buffer.take n).take f.scanned ++ before).length =
      f.scanned + before.length := by
    rw [List.length_append, List.length_take_of_le begun]
  refine ⟨_, after ++ f.buffer.drop n, ?_, searched.append plain, length, ?_⟩
  · rw [← List.cons_append, ← List.append_assoc, ← window, List.take_append_drop]
  · have inside : (f.buffer.take n).length ≤ n := List.length_take_le _ _
    rw [window, List.length_append, List.length_cons] at inside
    omega

/-- A framer that has searched in vain so far finds what there is to find. -/
theorem finds_next (searched : f.Searched) : f.Finds false f.next := by
  rw [next]
  cases found : ((f.buffer.take (f.maxLength + 1)).drop f.scanned).findIdx? (· = newline) with
  | some i =>
      rcases searched.cut found with ⟨line, rest, cut, plain, length, fits⟩
      have front : f.buffer.take (f.scanned + i) = line := by
        rw [cut, ← length, List.take_left]
      have back : f.buffer.drop (f.scanned + i + 1) = rest := by
        rw [cut, ← length, ← List.drop_drop, List.drop_left, List.drop_one, List.tail_cons]
      simp only [front, back]
      exact .line plain (Nat.le_of_lt_succ fits) cut
  | none =>
      have vain : newline ∉ (f.buffer.take (f.maxLength + 1)).drop f.scanned := by
        intro mem
        have none := List.findIdx?_eq_none_iff.mp found _ mem
        exact of_decide_eq_false none rfl
      have plain := searched.append (n := f.maxLength + 1) vain
      rw [List.take_append_drop] at plain
      by_cases exceeds : f.maxLength < f.buffer.length
      · simp only [if_pos exceeds]
        exact .overlong plain exceeds
      · have all : f.buffer.take (f.maxLength + 1) = f.buffer := List.take_of_length_le (by omega)
        rw [all] at plain
        simp only [if_neg exceeds, all]
        exact .unfinished rfl plain (Nat.le_of_not_lt exceeds)

/-- When nothing more will come, a framer that has searched in vain so far finds what there is
    to find then. -/
theorem finds_finish (searched : f.Searched) : f.Finds true f.finish := by
  have finds := finds_next searched
  rw [finish]
  generalize f.next = progress at finds
  cases finds with
  | line plain fits cut => exact .line plain fits cut
  | overlong plain exceeds => exact .overlong plain exceeds
  | unfinished _ plain fits =>
      simp only [List.isEmpty_iff]
      by_cases none : f.buffer = []
      · rw [if_pos none]
        exact .exhausted rfl none
      · rw [if_neg none]
        exact .last rfl plain fits none
  | last ended | exhausted ended => cases ended

end Finding

section Sizes

variable {f rest searched : Framer} {bytes : List UInt8}

-- A line that has been found is taken out of the buffer, together with what ended it.
theorem length_of_next (found : f.next = .line bytes rest) :
    rest.buffer.length < f.buffer.length := by
  rw [next] at found
  split at found
  · rename_i i first
    cases found
    rcases List.findIdx?_eq_some_iff_getElem.mp first with ⟨inside, _⟩
    simp only [List.length_drop, List.length_take] at inside ⊢
    omega
  · split at found <;> cases found

-- A search in vain changes nothing in the buffer.
theorem buffer_of_next (vain : f.next = .unfinished searched) : searched.buffer = f.buffer := by
  rw [next] at vain
  split at vain
  · cases vain
  · split at vain <;> cases vain
    rfl

theorem length_of_finish (found : f.finish = .line bytes rest) :
    rest.buffer.length < f.buffer.length := by
  rw [finish] at found
  cases early : f.next with
  | line bytes' rest' =>
      rw [early] at found
      cases found
      exact f.length_of_next early
  | unfinished searched =>
      rw [early] at found
      have same := f.buffer_of_next early
      simp only [List.isEmpty_iff] at found
      split at found
      · cases found
      · rename_i some
        cases found
        rw [← same]
        exact List.length_pos_iff.mpr some
  | overlong | exhausted => rw [early] at found; cases found

-- At the end of the input it is always clear what comes next.
theorem finish_ne_unfinished (f searched : Framer) : f.finish ≠ .unfinished searched := by
  rw [finish]
  split
  · split <;> simp
  · rename_i other
    exact other _

end Sizes

end Framer

end ShardConsole
