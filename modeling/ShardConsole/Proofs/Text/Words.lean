import Mathlib.Data.List.SplitBy
import Mathlib.Data.Nat.Find
import ShardConsole.Text.Blank

/-!
# Words and Separators

What the words of a text are, said without a way to find them.

A text is written with words if it can be put together from them and from separators: a word
contains no separator, and behind a word comes a separator or nothing. What counts as a separator
is a parameter, since the same can be said of a text, where a separator is a blank, and of bytes,
where it is the encoding of one.

Every text is written with some words. It is cut at the first place at which a separator begins;
no separator lies before that place, for it would begin earlier. For blanks the words are those
that `Text.words` finds, so there is no other choice.

## Main definitions

* `Text.Unbroken`, `Text.Stops`: No separator occurs; nothing comes before the first one.
* `Text.Spaced`: A sequence that is put together from words and separators.
* `Text.IsSeparator`: A single blank.
* `Text.Spells`: A line that is written with the given words.
* `Text.spread`: Words with a gap behind each of them.

## Theorems

* `Text.exists_spaced`: Everything is put together from words and separators.
* `Text.words_eq_iff`: The words of a text are those that it is put together from.
* `Text.spells_iff`: A line is written with its words and with no others.
* `Text.spells_spread`: Words with blanks between them are the words of a line.
-/

namespace ShardConsole

namespace Text

section Separators

variable {α : Type}

/-- No separator occurs in a sequence. -/
def Unbroken (sep : List α → Prop) (word : List α) : Prop :=
  ∀ s, sep s → ¬s <:+: word

/-- A sequence is empty or begins with a separator. -/
def Stops (sep : List α → Prop) (rest : List α) : Prop :=
  rest = [] ∨ ∃ s, sep s ∧ s <+: rest

/-- A sequence is put together from words and separators, and no word follows another one without
    a separator between them. -/
inductive Spaced (sep : List α → Prop) : List (List α) → List α → Prop
  | nothing : Spaced sep [] []
  | separator {s rest : List α} {words : List (List α)} (separates : sep s)
      (spaced : Spaced sep words rest) : Spaced sep words (s ++ rest)
  | word {word rest : List α} {words : List (List α)} (some : word ≠ [])
      (unbroken : Unbroken sep word) (stops : Stops sep rest) (spaced : Spaced sep words rest) :
      Spaced sep (word :: words) (word ++ rest)

variable {sep : List α → Prop}

-- A sequence that does not begin with a separator has a front part without separators.
theorem exists_unbroken (solid : ∀ s, sep s → s ≠ []) {text : List α}
    (inside : ¬Stops sep text) : ∃ word rest, text = word ++ rest ∧ word ≠ [] ∧
      Unbroken sep word ∧ Stops sep rest := by
  classical
  have ends : ∃ n, Stops sep (text.drop n) :=
    ⟨text.length, Or.inl (List.drop_eq_nil_of_le (Nat.le_refl _))⟩
  have inText : Nat.find ends ≤ text.length :=
    Nat.find_min' ends (Or.inl (List.drop_eq_nil_of_le (Nat.le_refl _)))
  have length : (text.take (Nat.find ends)).length = Nat.find ends :=
    List.length_take_of_le inText
  refine ⟨text.take (Nat.find ends), text.drop (Nat.find ends), (List.take_append_drop _ _).symm,
    ?_, ?_, Nat.find_spec ends⟩
  · intro none
    rw [none, List.length_nil] at length
    have spec := Nat.find_spec ends
    rw [← length, List.drop_zero] at spec
    exact inside spec
  · -- A separator in the front part would begin before the first one.
    rintro s separates ⟨before, behind, whole⟩
    have pos : 0 < s.length := List.length_pos_iff.mpr (solid s separates)
    have early : before.length < Nat.find ends := by
      have sizes := congrArg List.length whole
      rw [length, List.length_append, List.length_append] at sizes
      omega
    refine Nat.find_min ends early (Or.inr ⟨s, separates, ?_⟩)
    have split : text = before ++ (s ++ (behind ++ text.drop (Nat.find ends))) := by
      rw [← List.append_assoc s, ← List.append_assoc before, ← List.append_assoc before, whole,
        List.take_append_drop]
    rw [split, List.drop_left]
    exact List.prefix_append _ _

/-- Everything is put together from words and separators. -/
theorem exists_spaced (solid : ∀ s, sep s → s ≠ []) (text : List α) :
    ∃ words, Spaced sep words text := by
  induction n : text.length using Nat.strong_induction_on generalizing text with
  | _ n ih =>
      subst n
      by_cases stops : Stops sep text
      · rcases stops with rfl | ⟨s, separates, rest, rfl⟩
        · exact ⟨[], .nothing⟩
        · have pos := List.length_pos_iff.mpr (solid s separates)
          rcases ih rest.length (by rw [List.length_append]; omega) rest rfl with ⟨words, spaced⟩
          exact ⟨words, .separator separates spaced⟩
      · rcases exists_unbroken solid stops with ⟨word, rest, rfl, some, unbroken, stops⟩
        have pos := List.length_pos_iff.mpr some
        rcases ih rest.length (by rw [List.length_append]; omega) rest rfl with ⟨words, spaced⟩
        exact ⟨word :: words, .word some unbroken stops spaced⟩

end Separators

/-- A single blank. -/
def IsSeparator (s : List Char) : Prop :=
  ∃ c, isBlank c = true ∧ s = [c]

/-- A line is written with the given words. -/
def Spells (line : String) (words : List String) : Prop :=
  Spaced IsSeparator (words.map String.toList) line.toList

/-- Words with a gap behind each of them, and something in front of them. -/
def spread (front : String) (words gaps : List String) : String :=
  front ++ String.join (List.zipWith (· ++ ·) words gaps)

/-- A text of blanks only. -/
def IsGap (s : String) : Prop :=
  ∀ c ∈ s.toList, isBlank c = true

instance (s : String) : Decidable (IsGap s) :=
  List.decidableBAll (fun c => isBlank c = true) s.toList

/-- A text that is not empty and has no blank. -/
def IsWord (s : String) : Prop :=
  s ≠ "" ∧ ∀ c ∈ s.toList, isBlank c = false

instance (s : String) : Decidable (IsWord s) :=
  have := List.decidableBAll (fun c => isBlank c = false) s.toList
  inferInstanceAs (Decidable (s ≠ "" ∧ ∀ c ∈ s.toList, isBlank c = false))

section Blanks

variable {word rest text : List Char} {words : List (List Char)}

theorem unbroken_iff : Unbroken IsSeparator word ↔ ∀ c ∈ word, isBlank c = false := by
  constructor
  · intro unbroken c mem
    rw [Bool.eq_false_iff]
    intro blank
    rcases List.append_of_mem mem with ⟨before, behind, rfl⟩
    exact unbroken [c] ⟨c, blank, rfl⟩ ⟨before, behind, by simp⟩
  · rintro plain s ⟨c, blank, rfl⟩ inside
    have mem : c ∈ word := inside.subset (List.mem_singleton_self c)
    rw [plain c mem] at blank
    cases blank

theorem stops_iff : Stops IsSeparator rest ↔ ∀ c ∈ rest.head?, isBlank c = true := by
  constructor
  · rintro (rfl | ⟨s, ⟨c, blank, rfl⟩, behind, rfl⟩) d first
    · cases first
    · cases first
      exact blank
  · intro begins
    cases rest with
    | nil => exact Or.inl rfl
    | cons c behind => exact Or.inr ⟨[c], ⟨c, begins c rfl, rfl⟩, behind, rfl⟩

-- A blank in front of a text belongs to no word.
theorem words_cons {c : Char} (blank : isBlank c = true) :
    Text.words (c :: rest) = Text.words rest := by
  simp [Text.words, List.splitOnP_cons_eq_if_modifyHead, blank]

-- A word is found in front of what follows it.
theorem words_append (some : word ≠ []) (plain : ∀ c ∈ word, isBlank c = false)
    (begins : ∀ c ∈ rest.head?, isBlank c = true) :
    Text.words (word ++ rest) = word :: Text.words rest := by
  cases rest with
  | nil =>
      have one : word.splitOnP isBlank = [word] := List.splitOnP_eq_singleton plain
      simp [Text.words, one, some]
  | cons c behind =>
      have blank := begins c rfl
      have cut : (word ++ c :: behind).splitOnP isBlank = word :: behind.splitOnP isBlank :=
        List.splitOnP_append_cons_of_forall_mem plain c blank behind
      rw [words_cons blank]
      simp [Text.words, cut, some]

theorem words_of_spaced (spaced : Spaced IsSeparator words text) : Text.words text = words := by
  induction spaced with
  | nothing => rfl
  | @separator s rest words separates _ ih =>
      rcases separates with ⟨c, blank, rfl⟩
      rw [List.singleton_append, words_cons blank, ih]
  | word some unbroken stops _ ih =>
      rw [words_append some (unbroken_iff.mp unbroken) (stops_iff.mp stops), ih]

/-- The words of a text are those that it is put together from. -/
theorem words_eq_iff : Text.words text = words ↔ Spaced IsSeparator words text := by
  constructor
  · have solid : ∀ s, IsSeparator s → s ≠ [] := by
      rintro s ⟨c, _, rfl⟩
      simp
    rcases exists_spaced solid text with ⟨found, spaced⟩
    rintro rfl
    rw [words_of_spaced spaced]
    exact spaced
  · exact words_of_spaced

-- A gap in front of a text belongs to no word.
theorem Spaced.gap {gap : List Char} (blank : ∀ c ∈ gap, isBlank c = true)
    (spaced : Spaced IsSeparator words text) : Spaced IsSeparator words (gap ++ text) := by
  induction gap with
  | nil => exact spaced
  | cons c rest ih =>
      exact .separator (s := [c]) ⟨c, blank c List.mem_cons_self, rfl⟩
        (ih fun d mem => blank d (List.mem_cons_of_mem c mem))

end Blanks

section Lines

variable {line front : String} {words gaps : List String}

/-- A line is written with its words and with no others. -/
theorem spells_iff :
    Spells line words ↔ words = (Text.words line.toList).map String.ofList := by
  rw [Spells, ← words_eq_iff]
  constructor
  · intro same
    rw [same, List.map_map]
    simp
  · rintro rfl
    rw [List.map_map]
    simp

theorem spells_words (line : String) :
    Spells line ((Text.words line.toList).map String.ofList) :=
  spells_iff.mpr rfl

/-- Words with blanks between them, and with blanks or nothing around them, are the words of the
    line. -/
theorem spells_spread (each : ∀ word ∈ words, IsWord word) (blank : IsGap front)
    (blanks : ∀ gap ∈ gaps, IsGap gap) (enough : gaps.length = words.length)
    (apart : ∀ gap ∈ gaps.dropLast, gap ≠ "") : Spells (spread front words gaps) words := by
  -- What stands behind the front is itself such a line, with the first word in front.
  have behind : Spells (String.join (List.zipWith (· ++ ·) words gaps)) words := by
    clear blank
    induction words generalizing gaps with
    | nil => exact .nothing
    | cons word rest ih =>
        rcases gaps with _ | ⟨gap, others⟩
        · cases enough
        have fewer : others.length = rest.length := Nat.succ.inj enough
        have others_apart : ∀ g ∈ others.dropLast, g ≠ "" := by
          intro g mem
          refine apart g ?_
          rcases others with _ | ⟨next, last⟩
          · cases mem
          · exact List.mem_cons_of_mem gap mem
        have later := ih (fun w mem => each w (List.mem_cons_of_mem _ mem))
          (fun g mem => blanks g (List.mem_cons_of_mem _ mem)) fewer others_apart
        rcases each word List.mem_cons_self with ⟨some, plain⟩
        have gapBlank := blanks gap List.mem_cons_self
        rw [Spells, List.zipWith_cons_cons, String.join_cons, String.toList_append,
          String.toList_append, List.append_assoc, List.map_cons]
        refine .word (by simpa using some) (unbroken_iff.mpr plain) (stops_iff.mpr ?_)
          (later.gap gapBlank)
        intro c first
        cases nonempty : gap.toList with
        | cons d more =>
            have here : c = d := by simpa [nonempty, eq_comm] using first
            exact gapBlank c (by rw [here, nonempty]; exact List.mem_cons_self)
        | nil =>
            -- Only the last gap can be empty, and behind it there is nothing.
            rcases others with _ | ⟨next, last⟩
            · rw [nonempty] at first
              cases rest with
              | nil => cases first
              | cons => cases fewer
            · exact absurd (String.toList_eq_nil_iff.mp nonempty) (apart gap List.mem_cons_self)
  rw [Spells, spread, String.toList_append]
  exact Spaced.gap blank behind

end Lines

end Text

end ShardConsole
