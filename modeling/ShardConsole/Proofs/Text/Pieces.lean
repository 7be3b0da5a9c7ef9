import Mathlib.Data.List.DropRight
import Mathlib.Data.List.Forall2
import ShardConsole.Text.Blank

/-!
# Pieces of Text

What is left of a text that is trimmed, and what the pieces are into which a text is cut.

Trimming leaves a text that neither begins nor ends with a blank, and it changes nothing about
such a text. Cutting a text at separators leaves pieces without separators, and putting such pieces
together with a separator between them is undone by cutting.

Lines are pieces that are ended by a line feed and not separated by one. As long as every text ends
its last line, the lines of some texts one after the other are the lines of each of them.

## Main definitions

* `Text.Trimmed`: A text that neither begins nor ends with a blank.
* `Text.lines`: The ended lines of a text.
* `Text.Finished`: A text without a line that is not ended.

## Theorems

* `Text.trimmed_trim`, `Text.trim_of_trimmed`: Trimming leads to a trimmed text and stops there.
* `Text.mem_of_mem_trim`: Trimming only leaves characters out.
* `Text.eq_false_of_mem_splitOnP`: A piece has no separators.
* `Text.splitOnP_intercalate`: Pieces that are put together are found again.
* `Text.mapM_eq_some_iff`: Pieces are read one by one.
* `Text.lines_line`: A text without line feeds is one line once it is ended.
* `Text.lines_flatMap`: No line of some finished texts belongs to two of them.
-/

namespace ShardConsole

namespace Text

/-- A text that neither begins nor ends with a blank. -/
def Trimmed (s : List Char) : Prop :=
  (∀ c ∈ s.head?, isBlank c = false) ∧ ∀ c ∈ s.getLast?, isBlank c = false

/-- The lines of a text: what its line feeds end. -/
def lines (s : List Char) : List (List Char) :=
  (s.splitOnP (· = '\n')).dropLast

/-- A text whose last line is ended, if it has one. -/
def Finished (s : List Char) : Prop :=
  ∀ c ∈ s.getLast?, c = '\n'

section Trimming

variable {s : List Char} {c : Char}

theorem trimRight_eq (s : List Char) : trimRight s = s.rdropWhile isBlank := rfl

/-- Trimming leads to a trimmed text. -/
theorem trimmed_trim (s : List Char) : Trimmed (trim s) := by
  rw [trim, trimRight_eq, trimLeft]
  constructor
  · intro c first
    -- What is left on the right begins where the text without its leading blanks does.
    rcases List.rdropWhile_prefix isBlank (s.dropWhile isBlank) with ⟨rest, whole⟩
    have begins : c ∈ (s.dropWhile isBlank).head? := by
      rw [← whole, List.head?_append, Option.mem_def.mp first]
      rfl
    have blank := s.head?_dropWhile_not isBlank
    rwa [Option.mem_def.mp begins] at blank
  · intro c last
    by_cases none : (s.dropWhile isBlank).rdropWhile isBlank = []
    · rw [none] at last
      cases last
    · have blank := List.rdropWhile_last_not isBlank (s.dropWhile isBlank) none
      rw [List.getLast?_eq_some_getLast none] at last
      cases last
      exact Bool.eq_false_iff.mpr blank

-- A trimmed text has nothing in front or behind that would be taken away.
theorem dropWhile_of_trimmed (trimmed : Trimmed s) : s.dropWhile isBlank = s := by
  cases s with
  | nil => rfl
  | cons c rest => exact List.dropWhile_cons_of_neg (by simp [trimmed.1 c rfl])

theorem rdropWhile_of_trimmed (trimmed : Trimmed s) : s.rdropWhile isBlank = s := by
  rw [List.rdropWhile_eq_self_iff]
  intro some
  rw [trimmed.2 _ (List.getLast?_eq_some_getLast some)]
  exact Bool.false_ne_true

/-- Trimming changes nothing about a trimmed text. -/
theorem trim_of_trimmed (trimmed : Trimmed s) : trim s = s := by
  rw [trim, trimLeft, dropWhile_of_trimmed trimmed, trimRight_eq, rdropWhile_of_trimmed trimmed]

/-- Trimming only leaves characters out. -/
theorem mem_of_mem_trim (mem : c ∈ trim s) : c ∈ s := by
  rw [trim, trimRight_eq, trimLeft] at mem
  exact List.dropWhile_subset _ ((List.rdropWhile_prefix isBlank _).subset mem)

end Trimming

section Cutting

variable {α : Type} {p : α → Bool} {a : α} {s t piece : List α}

/-- A piece has no separators. -/
theorem eq_false_of_mem_splitOnP (mem : piece ∈ s.splitOnP p) : ∀ a ∈ piece, p a = false := by
  induction s generalizing piece with
  | nil =>
      rw [List.splitOnP_nil, List.mem_singleton] at mem
      simp [mem]
  | cons b rest ih =>
      rw [List.splitOnP_cons_eq_if_modifyHead] at mem
      by_cases separates : p b = true
      · rw [if_pos separates] at mem
        rcases List.mem_cons.mp mem with rfl | mem
        · simp
        · exact ih mem
      · rw [if_neg separates] at mem
        -- The character belongs to the first of the pieces behind it.
        rcases List.exists_cons_of_ne_nil (List.splitOnP_ne_nil p rest) with ⟨first, others, eq⟩
        rw [eq, List.modifyHead_cons] at mem
        rw [eq] at ih
        rcases List.mem_cons.mp mem with rfl | mem
        · intro a ha
          rcases List.mem_cons.mp ha with rfl | ha
          · exact Bool.eq_false_iff.mpr separates
          · exact ih List.mem_cons_self a ha
        · exact ih (List.mem_cons_of_mem _ mem)

/-- Pieces that are put together with a separator between them are found again. -/
theorem splitOnP_intercalate [DecidableEq α] {separator : α} {pieces : List (List α)}
    (plain : ∀ piece ∈ pieces, separator ∉ piece) (some : pieces ≠ []) :
    ([separator].intercalate pieces).splitOnP (· = separator) = pieces := by
  have cut := List.splitOn_intercalate separator plain some
  rw [List.splitOn_eq_splitOnP] at cut
  exact cut

theorem decide_ne_of_not_mem [DecidableEq α] (plain : a ∉ s) :
    ∀ b ∈ s, decide (b ≠ a) = true := by
  intro b mem
  refine decide_eq_true ?_
  rintro rfl
  exact plain mem

-- What ends with the last separator, and what stands behind it.
theorem rdropWhile_append_cons (plain : ∀ b ∈ t, p b = true) (separates : p a = false) :
    (s ++ a :: t).rdropWhile p = s ++ [a] := by
  have behind : ∀ b ∈ t.reverse, p b = true := fun b hb => plain b (List.mem_reverse.mp hb)
  rw [List.rdropWhile, List.reverse_append, List.reverse_cons, List.append_assoc,
    List.dropWhile_append_of_pos behind, List.singleton_append,
    List.dropWhile_cons_of_neg (by simp [separates]), List.reverse_cons, List.reverse_reverse]

theorem rtakeWhile_append_cons (plain : ∀ b ∈ t, p b = true) (separates : p a = false) :
    (s ++ a :: t).rtakeWhile p = t := by
  have behind : ∀ b ∈ t.reverse, p b = true := fun b hb => plain b (List.mem_reverse.mp hb)
  rw [List.rtakeWhile, List.reverse_append, List.reverse_cons, List.append_assoc,
    List.takeWhile_append_of_pos behind, List.singleton_append,
    List.takeWhile_cons_of_neg (by simp [separates]), List.append_nil, List.reverse_reverse]

-- Pieces are read one by one, and all of them have to be readable.
theorem mapM_eq_some_iff {β : Type} {read : α → Option β} {pieces : List α} {found : List β} :
    pieces.mapM read = some found ↔ List.Forall₂ (fun a b => read a = some b) pieces found := by
  induction pieces generalizing found with
  | nil => simp [eq_comm]
  | cons a rest ih =>
      simp only [List.mapM_cons, Option.bind_eq_bind, Option.bind_eq_some_iff, Option.pure_def,
        Option.some.injEq, ih, List.forall₂_cons_left_iff]
      constructor
      · rintro ⟨b, first, others, rest, rfl⟩
        exact ⟨b, others, first, rest, rfl⟩
      · rintro ⟨b, others, first, rest, rfl⟩
        exact ⟨b, first, others, rest, rfl⟩

end Cutting

section Lines

variable {α : Type} {s t : List Char}

theorem finished_line (s : List Char) : Finished (s ++ ['\n']) := by
  intro c last
  rw [List.getLast?_concat] at last
  exact (Option.some.inj last).symm

theorem Finished.append (hs : Finished s) (ht : Finished t) : Finished (s ++ t) := by
  intro c last
  cases t with
  | nil => exact hs c (by rwa [List.append_nil] at last)
  | cons b rest => exact ht c (by rwa [List.getLast?_append_of_ne_nil _ (by simp)] at last)

theorem finished_flatMap {f : α → List Char} {l : List α} (each : ∀ a ∈ l, Finished (f a)) :
    Finished (l.flatMap f) := by
  induction l with
  | nil => exact fun c last => nomatch last
  | cons a rest ih =>
      rw [List.flatMap_cons]
      exact (each a List.mem_cons_self).append (ih fun b hb => each b (List.mem_cons_of_mem a hb))

/-- A text without line feeds is one line once it is ended. -/
theorem lines_line (plain : '\n' ∉ s) : lines (s ++ ['\n']) = [s] := by
  have inside : ∀ c ∈ s, decide (c = '\n') = false := by
    intro c hc
    exact decide_eq_false fun same => plain (same ▸ hc)
  rw [lines, List.splitOnP_append_cons_of_forall_mem inside '\n' rfl []]
  rfl

/-- Behind an ended line begins another one. -/
theorem Finished.lines_append (finished : Finished s) (t : List Char) :
    lines (s ++ t) = lines s ++ lines t := by
  rcases s.eq_nil_or_concat with rfl | ⟨front, last, rfl⟩
  · rfl
  · rw [List.concat_eq_append] at finished ⊢
    obtain rfl : last = '\n' := finished last List.getLast?_concat
    have cut (t : List Char) : lines (front ++ '\n' :: t) =
        front.splitOnP (· = '\n') ++ lines t := by
      rw [lines, List.splitOnP_append_cons front t rfl,
        List.dropLast_append_of_ne_nil (List.splitOnP_ne_nil _ _), lines]
    rw [List.append_assoc, List.singleton_append, cut, cut, List.append_assoc]
    rfl

/-- No line of some ended texts belongs to two of them. -/
theorem lines_flatMap {f : α → List Char} {l : List α} (each : ∀ a ∈ l, Finished (f a)) :
    lines (l.flatMap f) = l.flatMap fun a => lines (f a) := by
  induction l with
  | nil => rfl
  | cons a rest ih =>
      rw [List.flatMap_cons, List.flatMap_cons, (each a List.mem_cons_self).lines_append,
        ih fun b hb => each b (List.mem_cons_of_mem a hb)]

end Lines

end Text

end ShardConsole
