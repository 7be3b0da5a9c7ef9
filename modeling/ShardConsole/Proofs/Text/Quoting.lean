import Mathlib.Data.List.Basic
import ShardConsole.Text.Quoted

/-!
# Quotations

What a quoted text shows of the text.

`Escapes` lists the three kinds of escapes: a short one, a code point in braces, and the character
itself. None of the escapes begins another one, so a sequence of them can be read back in only one
way, and a text is determined by its quotation. The digits of a code point are a number that is
read back, too, and the brace behind them is no digit.

A control character stands for itself nowhere, and no escape is written with one.

## Main definitions

* `Text.IsControl`: A control character.
* `Text.shorts`: The characters with a short escape.
* `Text.readHex`: The number that hexadecimal digits stand for.
* `Text.Escapes`: What stands for a character.

## Theorems

* `Text.readHex_hexDigits`: Digits are read back.
* `Text.Escapes.unique`: No escape begins another one.
* `Text.quote_injective`: A text is determined by its quotation.
* `Text.not_control_of_mem_quote`: No quotation has a control character.
-/

namespace ShardConsole

namespace Text

/-- A control character: U+0000 to U+001F, or U+007F to U+009F. -/
def IsControl (c : Char) : Prop :=
  c.toNat < 0x20 ∨ 0x7F ≤ c.toNat ∧ c.toNat < 0xA0

instance (c : Char) : Decidable (IsControl c) :=
  inferInstanceAs (Decidable (c.toNat < 0x20 ∨ 0x7F ≤ c.toNat ∧ c.toNat < 0xA0))

/-- The characters with a short escape, with what stands behind the backslash. -/
def shorts : List (Char × Char) :=
  [('\x00', '0'), ('\t', 't'), ('\n', 'n'), ('\r', 'r'), ('"', '"'), ('\\', '\\')]

/-- The number that hexadecimal digits stand for. -/
def readHex (digits : List Char) : Nat :=
  digits.foldl (fun n c => n * 16 + "0123456789abcdef".toList.idxOf c) 0

/-- What stands for a character inside quotation marks. -/
inductive Escapes (c : Char) : List Char → Prop
  | short {d : Char} (mem : (c, d) ∈ shorts) : Escapes c ['\\', d]
  | code : Escapes c ('\\' :: 'u' :: '\x7b' :: (hexDigits c.toNat ++ ['\x7d']))
  | plain (mark : c ≠ '"') (literal : c ≠ '\\') (shown : isHidden c = false) : Escapes c [c]

section Digits

variable {n : Nat} {c : Char}

theorem hexDigits_eq (n : Nat) : hexDigits n =
    if n < 16 then [n.digitChar] else hexDigits (n / 16) ++ [(n % 16).digitChar] :=
  Nat.toDigits_eq_if (by decide)

theorem idxOf_digitChar :
    ∀ d < 16, "0123456789abcdef".toList.idxOf (Nat.digitChar d) = d := by
  decide

/-- Digits are read back. -/
theorem readHex_hexDigits (n : Nat) : readHex (hexDigits n) = n := by
  -- All digits but the last one are those of a smaller number.
  induction n using Nat.strongRecOn with
  | _ n ih =>
      rw [hexDigits_eq]
      split
      · rename_i small
        rw [readHex, List.foldl_cons, List.foldl_nil, idxOf_digitChar n small, Nat.zero_mul,
          Nat.zero_add]
      · rename_i large
        have front := ih (n / 16) (by omega)
        rw [readHex] at front
        rw [readHex, List.foldl_append, front, List.foldl_cons, List.foldl_nil,
          idxOf_digitChar _ (Nat.mod_lt n (by decide)), Nat.div_add_mod']

theorem exists_digit (mem : c ∈ hexDigits n) : ∃ d < 16, c = Nat.digitChar d := by
  induction n using Nat.strongRecOn with
  | _ n ih =>
      rw [hexDigits_eq] at mem
      split at mem
      · rename_i small
        exact ⟨n, small, List.mem_singleton.mp mem⟩
      · rename_i large
        rcases List.mem_append.mp mem with front | last
        · exact ih (n / 16) (by omega) front
        · exact ⟨n % 16, Nat.mod_lt _ (by decide), List.mem_singleton.mp last⟩

theorem brace_not_mem_hexDigits (n : Nat) : '\x7d' ∉ hexDigits n := by
  intro mem
  rcases exists_digit mem with ⟨d, small, same⟩
  have other : ∀ d < 16, '\x7d' ≠ Nat.digitChar d := by decide
  exact other d small same

end Digits

section Escaping

variable {c d : Char} {e f rest rest' s t : List Char}

theorem escapes_escape (c : Char) : Escapes c (escape c) := by
  unfold escape
  split
  case h_7 literal =>
    cases shown : isHidden c with
    | true => exact .code
    | false => exact .plain ‹_› literal shown
  all_goals exact .short (by decide)

theorem Escapes.ne_nil (he : Escapes c e) : e ≠ [] := by
  cases he <;> exact List.cons_ne_nil _ _

theorem short_unique : ∀ p ∈ shorts, ∀ q ∈ shorts, p.2 = q.2 → p.1 = q.1 := by decide

theorem short_ne_code : ∀ p ∈ shorts, p.2 ≠ 'u' := by decide

-- Two code points that are written in the same way, whatever stands behind them, are one.
theorem code_unique (same : hexDigits c.toNat ++ '\x7d' :: rest =
    hexDigits d.toNat ++ '\x7d' :: rest') : c = d ∧ rest = rest' := by
  have digits (n : Nat) (behind : List Char) :
      (hexDigits n ++ '\x7d' :: behind).takeWhile (· ≠ '\x7d') = hexDigits n ∧
        (hexDigits n ++ '\x7d' :: behind).dropWhile (· ≠ '\x7d') = '\x7d' :: behind := by
    have inside : ∀ c ∈ hexDigits n, decide (c ≠ '\x7d') = true := by
      intro c mem
      refine decide_eq_true ?_
      rintro rfl
      exact brace_not_mem_hexDigits n mem
    rw [List.takeWhile_append_of_pos inside, List.dropWhile_append_of_pos inside]
    simp
  have codes : hexDigits c.toNat = hexDigits d.toNat := by
    rw [← (digits c.toNat rest).1, same, (digits d.toNat rest').1]
  have behind : '\x7d' :: rest = '\x7d' :: rest' := by
    rw [← (digits c.toNat rest).2, same, (digits d.toNat rest').2]
  have numbers := congrArg readHex codes
  rw [readHex_hexDigits, readHex_hexDigits] at numbers
  exact ⟨Char.toNat_inj.mp numbers, (List.cons.inj behind).2⟩

/-- No escape begins another one. -/
theorem Escapes.unique (he : Escapes c e) (hf : Escapes d f) (same : e ++ rest = f ++ rest') :
    c = d ∧ rest = rest' := by
  cases he with
  | short mem =>
      cases hf with
      | short mem' =>
          simp only [List.cons_append, List.nil_append, List.cons.injEq, true_and] at same
          exact ⟨short_unique _ mem _ mem' same.1, same.2⟩
      | code => exact absurd (List.cons.inj (List.cons.inj same).2).1 (short_ne_code _ mem)
      | plain _ literal => exact absurd (List.cons.inj same).1.symm literal
  | code =>
      cases hf with
      | short mem =>
          exact absurd (List.cons.inj (List.cons.inj same).2).1.symm (short_ne_code _ mem)
      | code =>
          simp only [List.cons_append, List.append_assoc, List.nil_append, List.cons.injEq,
            true_and] at same
          exact code_unique same
      | plain _ literal => exact absurd (List.cons.inj same).1.symm literal
  | plain _ literal =>
      cases hf with
      | short | code => exact absurd (List.cons.inj same).1 literal
      | plain => exact List.cons.inj same

theorem flatMap_escape_injective (same : s.flatMap escape = t.flatMap escape) : s = t := by
  induction s generalizing t with
  | nil =>
      cases t with
      | nil => rfl
      | cons d t =>
          rw [List.flatMap_nil, List.flatMap_cons] at same
          exact absurd (List.append_eq_nil_iff.mp same.symm).1 (escapes_escape d).ne_nil
  | cons c s ih =>
      cases t with
      | nil =>
          rw [List.flatMap_nil, List.flatMap_cons] at same
          exact absurd (List.append_eq_nil_iff.mp same).1 (escapes_escape c).ne_nil
      | cons d t =>
          rw [List.flatMap_cons, List.flatMap_cons] at same
          rcases (escapes_escape c).unique (escapes_escape d) same with ⟨rfl, rest⟩
          rw [ih rest]

/-- A text is determined by its quotation. -/
theorem quote_injective {a b : String} (same : quote a = quote b) : a = b := by
  rw [quote, quote, String.ofList_inj, List.cons_append, List.cons_append, List.cons.injEq,
    List.append_cancel_right_eq] at same
  exact String.toList_inj.mp (flatMap_escape_injective same.2)

end Escaping

section Controls

variable {c : Char} {e : List Char}

theorem not_control_of_all {s : String} (plain : s.toList.all (fun c => ¬IsControl c) = true)
    (mem : c ∈ s.toList) : ¬IsControl c :=
  of_decide_eq_true (List.all_eq_true.mp plain c mem)

-- No escape is written with a control character.
theorem Escapes.not_control (he : Escapes c e) : ∀ d ∈ e, ¬IsControl d := by
  have digit : ∀ d < 16, ¬IsControl (Nat.digitChar d) := by decide
  cases he with
  | short mem =>
      have short : ∀ p ∈ shorts, ¬IsControl p.2 := by decide
      intro d mem'
      rw [List.mem_pair] at mem'
      rcases mem' with rfl | rfl
      · decide
      · exact short _ mem
  | code =>
      intro d mem
      simp only [List.mem_cons, List.mem_append, List.not_mem_nil, or_false] at mem
      rcases mem with rfl | rfl | rfl | inside | rfl
      · decide
      · decide
      · decide
      · rcases exists_digit inside with ⟨n, small, rfl⟩
        exact digit n small
      · decide
  | plain _ _ shown =>
      intro d mem
      rw [List.mem_singleton.mp mem]
      intro control
      rw [isHidden_of_control control] at shown
      cases shown

/-- No quotation has a control character. -/
theorem not_control_of_mem_quote {a : String} (mem : c ∈ (quote a).toList) : ¬IsControl c := by
  rw [quote, String.toList_ofList, List.cons_append, List.mem_cons, List.mem_append,
    List.mem_singleton, List.mem_flatMap] at mem
  rcases mem with rfl | ⟨d, _, inside⟩ | rfl
  · decide
  · exact (escapes_escape d).not_control c inside
  · decide

end Controls

end Text

end ShardConsole
