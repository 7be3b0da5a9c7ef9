import ShardConsole.Proofs.Text.Pieces
import ShardConsole.Text.Scanning

/-!
# Numerals

Which texts stand for which numbers.

A numeral is a run of decimal digits, with a plus sign in front of it or none. Blanks around it do
not count, so a text stands for a number if what is left of it when it is trimmed is a numeral. This
is said here by what the text is made of, and proved to be what the reader of numerals finds.

## Main definitions

* `Text.Blanks`: A text of blanks.
* `Text.StandsFor`: A text stands for a number.

## Theorems

* `Text.trim_append`, `Text.exists_trim`: What trimming takes away are blanks.
* `Text.number_eq`, `Text.number_toDigits`: The number that decimal digits stand for.
* `Text.unsigned?_trim_eq_some_iff`: The reader of numerals finds what a text stands for.
-/

namespace ShardConsole

namespace Text

/-- A text of blanks. -/
def Blanks (s : List Char) : Prop :=
  ∀ c ∈ s, isBlank c = true

/-- A text that stands for a number: decimal digits, of which there is at least one, with a plus
    sign in front of them or none, and blanks around all of it. -/
inductive StandsFor : List Char → Nat → Prop
  | numeral {front sign digits back : List Char} (before : Blanks front) (behind : Blanks back)
      (plus : sign = [] ∨ sign = ['+']) (some : digits ≠ [])
      (decimal : ∀ c ∈ digits, c.isDigit = true) :
      StandsFor (front ++ (sign ++ digits) ++ back) (Nat.ofDigitChars 10 digits 0)

section Trimming

variable {s front back : List Char}

-- Blanks in front of what is trimmed and behind it are taken away.
theorem trim_append (before : Blanks front) (behind : Blanks back) (trimmed : Trimmed s)
    (some : s ≠ []) : trim (front ++ s ++ back) = s := by
  have left : (front ++ s ++ back).dropWhile isBlank = s ++ back := by
    rw [List.append_assoc, List.dropWhile_append_of_pos before]
    cases s with
    | nil => exact absurd rfl some
    | cons c rest => exact List.dropWhile_cons_of_neg (by simp [trimmed.1 c rfl])
  have right : (s ++ back).rdropWhile isBlank = s.rdropWhile isBlank := by
    rw [List.rdropWhile, List.reverse_append, List.dropWhile_append_of_pos]
    · rfl
    · exact fun c mem => behind c (List.mem_reverse.mp mem)
  rw [trim, trimLeft, left, trimRight_eq, right, rdropWhile_of_trimmed trimmed]

/-- What trimming takes away are blanks. -/
theorem exists_trim (s : List Char) :
    ∃ front back, Blanks front ∧ Blanks back ∧ s = front ++ trim s ++ back := by
  refine ⟨s.takeWhile isBlank, (s.dropWhile isBlank).rtakeWhile isBlank, ?_, ?_, ?_⟩
  · exact fun c mem => List.mem_takeWhile_imp mem
  · exact fun c mem => List.mem_rtakeWhile_imp mem
  · rw [trim, trimRight_eq, trimLeft, List.append_assoc, List.rdropWhile_append_rtakeWhile,
      List.takeWhile_append_dropWhile]

end Trimming

section Numbers

variable {s digits : List Char} {c : Char} {n : Nat}

theorem digitValue?_of_isDigit (decimal : c.isDigit = true) :
    (digitValue? c).getD 0 = c.toNat - '0'.toNat := by
  rw [digitValue?, if_pos decimal, Option.getD_some]

/-- The number that decimal digits stand for. -/
theorem number_eq (decimal : ∀ c ∈ digits, c.isDigit = true) :
    number 10 digits = Nat.ofDigitChars 10 digits 0 := by
  rw [number, Nat.ofDigitChars_eq_foldl]
  refine List.foldl_ext _ _ _ fun sum c mem => ?_
  rw [digitValue?_of_isDigit (decimal c mem)]

/-- The decimal digits of a number stand for it. -/
theorem number_toDigits (n : Nat) : number 10 (Nat.toDigits 10 n) = n := by
  rw [number_eq fun c mem => Nat.isDigit_of_mem_toDigits (by omega) (by omega) mem]
  exact Nat.ofDigitChars_toDigits (by omega) (by omega)

theorem isBlank_of_isDigit (decimal : c.isDigit = true) : isBlank c = false := by
  have low : 48 ≤ c.toNat ∧ c.toNat ≤ 57 := by
    rw [Char.isDigit, Bool.and_eq_true, decide_eq_true_iff, decide_eq_true_iff] at decimal
    exact decimal
  rw [Bool.eq_false_iff]
  intro blank
  simp [isBlank, inRanges, blankRanges] at blank
  omega

-- A numeral neither begins nor ends with a blank.
theorem trimmed_numeral {sign : List Char} (plus : sign = [] ∨ sign = ['+']) (some : digits ≠ [])
    (decimal : ∀ c ∈ digits, c.isDigit = true) : Trimmed (sign ++ digits) := by
  constructor
  · rcases plus with rfl | rfl
    · intro c first
      exact isBlank_of_isDigit (decimal c (List.mem_of_head? first))
    · rintro c ⟨⟩
      decide
  · intro c last
    rw [List.getLast?_append_of_ne_nil _ some] at last
    exact isBlank_of_isDigit (decimal c (List.mem_of_getLast? last))

-- A numeral is read as the number that its digits stand for.
theorem unsigned?_eq_some_iff : unsigned? s = some n ↔
    ∃ sign digits, s = sign ++ digits ∧ (sign = [] ∨ sign = ['+']) ∧ digits ≠ [] ∧
      (∀ c ∈ digits, c.isDigit = true) ∧ Nat.ofDigitChars 10 digits 0 = n := by
  have read (digits : List Char) : natural? digits = some n ↔ digits ≠ [] ∧
      (∀ c ∈ digits, c.isDigit = true) ∧ Nat.ofDigitChars 10 digits 0 = n := by
    rw [natural?_eq_some_iff]
    refine and_congr_right fun _ => and_congr_right fun decimal => ?_
    rw [number_eq decimal]
  constructor
  · intro found
    unfold unsigned? at found
    split at found
    · rename_i rest
      exact ⟨['+'], rest, rfl, Or.inr rfl, (read rest).mp found⟩
    · exact ⟨[], s, rfl, Or.inl rfl, (read s).mp found⟩
  · rintro ⟨sign, digits, rfl, rfl | rfl, plain⟩
    · -- No digit is a plus sign.
      rw [List.nil_append]
      unfold unsigned?
      split
      · have sign := plain.2.1 '+' List.mem_cons_self
        cases sign
      · exact (read _).mpr plain
    · exact (read digits).mpr plain

/-- The reader of numerals finds what a text stands for. -/
theorem unsigned?_trim_eq_some_iff : unsigned? (trim s) = some n ↔ StandsFor s n := by
  rw [unsigned?_eq_some_iff]
  constructor
  · rintro ⟨sign, digits, same, plus, some, decimal, rfl⟩
    rcases exists_trim s with ⟨front, back, before, behind, whole⟩
    rw [whole, same]
    exact .numeral before behind plus some decimal
  · rintro ⟨before, behind, plus, some, decimal⟩
    refine ⟨_, _, trim_append before behind (trimmed_numeral plus some decimal) ?_, plus, some,
      decimal, rfl⟩
    simp [some]

end Numbers

end Text

end ShardConsole
