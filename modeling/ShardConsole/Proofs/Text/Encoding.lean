import Mathlib.Tactic.SplitIfs
import ShardConsole.Text.Utf8

/-!
# Encodings of Characters

The bytes that are read as one character are its encoding.

Reading goes byte by byte and keeps the bits that it has seen. `Progress.Finishes` says which
bytes take a begun encoding to a character. What a first byte begins is finished by some bytes
exactly if they are the rest of the encoding of that character, so that nothing but encodings is
read as a character, and every encoding is.

Of the five kinds of first bytes one begins nothing, and the others begin encodings of one to four
bytes. In the longer ones the second byte is restricted, and this is what rules out the forms that
are no encodings.

## Main definitions

* `Utf8.Progress.Finishes`: Bytes that take what has been read to a character.
* `Utf8.WellFormed`: Bytes that are the encoding of a text.
* `Utf8.IsTail`: A byte that can only go on with an encoding.

## Theorems

* `Utf8.finishes_start_iff`: What a byte begins is finished by the rest of an encoding.
* `Utf8.encodeChar_eq_cons`: No encoding begins with a byte that only goes on with one.
* `Utf8.last_encodeChar`: The last byte of a longer encoding is no character.
-/

namespace ShardConsole

namespace Utf8

open String (utf8EncodeChar)

/-- Bytes that take what has been read to a character. -/
inductive Progress.Finishes : Progress → List UInt8 → Char → Prop
  | whole {c : Char} : Finishes (.whole c) [] c
  | more {p : Pending} {b : UInt8} {rest : List UInt8} {next : Progress} {c : Char}
      (extended : p.extend? b = some next) (finishes : Finishes next rest c) :
      Finishes (.unfinished p) (b :: rest) c

/-- Bytes that encode a character, one to four of them. -/
inductive Encodes (c : Char) : List UInt8 → Prop
  | one {b : UInt8} (high : c.toNat < 0x80) (first : b.toNat = c.toNat) : Encodes c [b]
  | two {b b₁ : UInt8} (low : 0x80 ≤ c.toNat) (high : c.toNat < 0x800)
      (first : b.toNat = c.toNat / 64 + 0xC0) (second : b₁.toNat = c.toNat % 64 + 0x80) :
      Encodes c [b, b₁]
  | three {b b₁ b₂ : UInt8} (low : 0x800 ≤ c.toNat) (high : c.toNat < 0x10000)
      (first : b.toNat = c.toNat / 4096 + 0xE0) (second : b₁.toNat = c.toNat / 64 % 64 + 0x80)
      (third : b₂.toNat = c.toNat % 64 + 0x80) : Encodes c [b, b₁, b₂]
  | four {b b₁ b₂ b₃ : UInt8} (low : 0x10000 ≤ c.toNat)
      (first : b.toNat = c.toNat / 262144 + 0xF0)
      (second : b₁.toNat = c.toNat / 4096 % 64 + 0x80)
      (third : b₂.toNat = c.toNat / 64 % 64 + 0x80)
      (fourth : b₃.toNat = c.toNat % 64 + 0x80) : Encodes c [b, b₁, b₂, b₃]

/-- Bytes that are the encoding of a text. -/
def WellFormed (bytes : List UInt8) : Prop :=
  ∃ text, bytes = encode text

/-- A byte that can only go on with an encoding that has begun. -/
def IsTail (b : UInt8) : Prop :=
  0x80 ≤ b.toNat ∧ b.toNat ≤ 0xBF

section Starting

variable {b : UInt8}

theorem start_one (low : b.toNat < 0x80) : start b = .whole (Char.ofNat b.toNat) := by
  simp only [start, if_pos low]

theorem start_two (low : 0xC2 ≤ b.toNat) (high : b.toNat < 0xE0) :
    start b = .unfinished ⟨0, 0x80, 0xBF, b.toNat - 0xC0⟩ := by
  simp only [start]
  rw [if_neg (by omega), if_neg (by omega), if_pos high]

theorem start_three (low : 0xE0 ≤ b.toNat) (high : b.toNat < 0xF0) :
    start b = .unfinished ⟨1, if b.toNat = 0xE0 then 0xA0 else 0x80,
      if b.toNat = 0xED then 0x9F else 0xBF, b.toNat - 0xE0⟩ := by
  simp only [start]
  rw [if_neg (by omega), if_neg (by omega), if_neg (by omega)]
  by_cases first : b.toNat = 0xE0
  · simp [first]
  · by_cases surrogates : b.toNat = 0xED
    · simp [surrogates]
    · simp only [first, surrogates, high, if_true, if_false]

theorem start_four (low : 0xF0 ≤ b.toNat) (high : b.toNat < 0xF5) :
    start b = .unfinished ⟨2, if b.toNat = 0xF0 then 0x90 else 0x80,
      if b.toNat = 0xF4 then 0x8F else 0xBF, b.toNat - 0xF0⟩ := by
  simp only [start]
  rw [if_neg (by omega), if_neg (by omega), if_neg (by omega), if_neg (by omega),
    if_neg (by omega), if_neg (by omega)]
  by_cases first : b.toNat = 0xF0
  · simp [first]
  · by_cases last : b.toNat = 0xF4
    · simp [last]
    · have inside : b.toNat < 0xF4 := by omega
      simp only [first, last, inside, if_true, if_false]

theorem start_broken (high : 0x80 ≤ b.toNat) (none : b.toNat < 0xC2 ∨ 0xF5 ≤ b.toNat) :
    start b = .broken := by
  simp only [start]
  rw [if_neg (by omega)]
  rcases none with low | beyond
  · rw [if_pos low]
  · rw [if_neg (by omega), if_neg (by omega), if_neg (by omega), if_neg (by omega),
      if_neg (by omega), if_neg (by omega), if_neg (by omega), if_neg (by omega)]

end Starting

section Finishing

variable {need acc : Nat} {lo hi b : UInt8} {next : Progress} {bytes : List UInt8} {c : Char}

theorem extend?_last_iff : Pending.extend? ⟨0, lo, hi, acc⟩ b = some next ↔
    (lo ≤ b ∧ b ≤ hi) ∧ .whole (Char.ofNat (acc * 64 + (b.toNat - 0x80))) = next := by
  simp [Pending.extend?]

theorem extend?_more_iff : Pending.extend? ⟨need + 1, lo, hi, acc⟩ b = some next ↔
    (lo ≤ b ∧ b ≤ hi) ∧
      .unfinished ⟨need, 0x80, 0xBF, acc * 64 + (b.toNat - 0x80)⟩ = next := by
  simp [Pending.extend?]

theorem finishes_whole_iff {d : Char} :
    (Progress.whole d).Finishes bytes c ↔ bytes = [] ∧ c = d := by
  constructor
  · rintro ⟨⟩
    exact ⟨rfl, rfl⟩
  · rintro ⟨rfl, rfl⟩
    exact .whole

theorem finishes_unfinished_iff {p : Pending} : (Progress.unfinished p).Finishes bytes c ↔
    ∃ b rest next, bytes = b :: rest ∧ p.extend? b = some next ∧ next.Finishes rest c := by
  constructor
  · rintro (_ | ⟨extended, finishes⟩)
    exact ⟨_, _, _, rfl, extended, finishes⟩
  · rintro ⟨b, rest, next, rfl, extended, finishes⟩
    exact .more extended finishes

theorem finishes_last_iff : (Progress.unfinished ⟨0, lo, hi, acc⟩).Finishes bytes c ↔
    ∃ b : UInt8, bytes = [b] ∧ (lo ≤ b ∧ b ≤ hi) ∧
      c = Char.ofNat (acc * 64 + (b.toNat - 0x80)) := by
  rw [finishes_unfinished_iff]
  constructor
  · rintro ⟨b, rest, next, rfl, extended, finishes⟩
    rcases extend?_last_iff.mp extended with ⟨range, rfl⟩
    rcases finishes_whole_iff.mp finishes with ⟨rfl, same⟩
    exact ⟨b, rfl, range, same⟩
  · rintro ⟨b, rfl, range, same⟩
    exact ⟨b, [], _, rfl, extend?_last_iff.mpr ⟨range, rfl⟩, finishes_whole_iff.mpr ⟨rfl, same⟩⟩

theorem finishes_more_iff : (Progress.unfinished ⟨need + 1, lo, hi, acc⟩).Finishes bytes c ↔
    ∃ (b : UInt8) (rest : List UInt8), bytes = b :: rest ∧ (lo ≤ b ∧ b ≤ hi) ∧
      (Progress.unfinished ⟨need, 0x80, 0xBF, acc * 64 + (b.toNat - 0x80)⟩).Finishes rest c := by
  rw [finishes_unfinished_iff]
  constructor
  · rintro ⟨b, rest, next, rfl, extended, finishes⟩
    rcases extend?_more_iff.mp extended with ⟨range, rfl⟩
    exact ⟨b, rest, rfl, range, finishes⟩
  · rintro ⟨b, rest, rfl, range, finishes⟩
    exact ⟨b, rest, _, rfl, extend?_more_iff.mpr ⟨range, rfl⟩, finishes⟩

end Finishing

section Characters

variable {b : UInt8} {rest bytes : List UInt8} {c : Char}

-- The code points above the surrogates end here.
theorem toNat_valid (c : Char) : c.toNat < 0xD800 ∨ 0xDFFF < c.toNat ∧ c.toNat < 0x110000 :=
  c.valid

theorem toNat_ofNat {n : Nat} (valid : n < 0xD800 ∨ 0xDFFF < n ∧ n < 0x110000) :
    (Char.ofNat n).toNat = n := by
  rw [Char.ofNat, dif_pos valid]
  rfl

theorem encodes_encodeChar (c : Char) : Encodes c (utf8EncodeChar c) := by
  have valid := toNat_valid c
  rw [utf8EncodeChar]
  simp only [show c.val.toNat = c.toNat from rfl]
  split_ifs with one two three
  · exact .one (by omega) (by simp; omega)
  · exact .two (by omega) (by omega) (by simp; omega) (by simp; omega)
  · exact .three (by omega) (by omega) (by simp; omega) (by simp; omega) (by simp; omega)
  · exact .four (by omega) (by simp; omega) (by simp; omega) (by simp; omega) (by simp; omega)

/-- The encoding of a character consists of these bytes. -/
theorem encodeChar_eq_iff : utf8EncodeChar c = bytes ↔ Encodes c bytes := by
  constructor
  · rintro rfl
    exact encodes_encodeChar c
  · intro encodes
    have known := encodes_encodeChar c
    generalize utf8EncodeChar c = there at known
    -- The code point decides how many bytes there are, and what they are.
    cases encodes <;> cases known <;>
      first
      | omega
      | simp only [List.cons.injEq, and_true, ← UInt8.toNat_inj]
        omega

-- What a byte begins takes bytes that encode a character, and no others, to the character.
theorem encodes_of_finishes (finishes : (start b).Finishes rest c) : Encodes c (b :: rest) := by
  have byte := b.toNat_lt
  rcases Nat.lt_or_ge b.toNat 0x80 with ascii | high
  · rw [start_one ascii, finishes_whole_iff] at finishes
    rcases finishes with ⟨rfl, same⟩
    have code : c.toNat = b.toNat := by rw [same, toNat_ofNat (by omega)]
    exact .one (by omega) code.symm
  by_cases none : b.toNat < 0xC2 ∨ 0xF5 ≤ b.toNat
  · rw [start_broken high none] at finishes
    cases finishes
  rcases Nat.lt_or_ge b.toNat 0xE0 with two | high
  · rw [start_two (by omega) two, finishes_last_iff] at finishes
    rcases finishes with ⟨b₁, rfl, range, same⟩
    simp only [UInt8.le_iff_toNat_le, UInt8.reduceToNat] at range
    have code : c.toNat = (b.toNat - 0xC0) * 64 + (b₁.toNat - 0x80) := by
      rw [same, toNat_ofNat (by omega)]
    exact .two (by omega) (by omega) (by omega) (by omega)
  rcases Nat.lt_or_ge b.toNat 0xF0 with three | high
  · rw [start_three high three, finishes_more_iff] at finishes
    rcases finishes with ⟨b₁, rest, rfl, range, finishes⟩
    rcases finishes_last_iff.mp finishes with ⟨b₂, rfl, range₂, same⟩
    simp only [UInt8.le_iff_toNat_le, UInt8.reduceToNat, apply_ite UInt8.toNat] at range range₂
    have code : c.toNat =
        ((b.toNat - 0xE0) * 64 + (b₁.toNat - 0x80)) * 64 + (b₂.toNat - 0x80) := by
      rw [same, toNat_ofNat (by split_ifs at range <;> omega)]
    split_ifs at range <;>
      exact .three (by omega) (by omega) (by omega) (by omega) (by omega)
  · rw [start_four high (by omega), finishes_more_iff] at finishes
    rcases finishes with ⟨b₁, rest, rfl, range, finishes⟩
    rcases finishes_more_iff.mp finishes with ⟨b₂, rest, rfl, range₂, finishes⟩
    rcases finishes_last_iff.mp finishes with ⟨b₃, rfl, range₃, same⟩
    simp only [UInt8.le_iff_toNat_le, UInt8.reduceToNat, apply_ite UInt8.toNat]
      at range range₂ range₃
    have code : c.toNat = (((b.toNat - 0xF0) * 64 + (b₁.toNat - 0x80)) * 64 +
        (b₂.toNat - 0x80)) * 64 + (b₃.toNat - 0x80) := by
      rw [same, toNat_ofNat (by split_ifs at range <;> omega)]
    split_ifs at range <;>
      exact .four (by omega) (by omega) (by omega) (by omega) (by omega)

theorem finishes_of_encodes (encodes : Encodes c (b :: rest)) : (start b).Finishes rest c := by
  have valid := toNat_valid c
  have back : Char.ofNat c.toNat = c := Char.ofNat_toNat c
  cases encodes with
  | one high first =>
      rw [start_one (by omega), first, back]
      exact .whole
  | @two _ b₁ low high first second =>
      rw [start_two (by omega) (by omega), finishes_last_iff]
      have code : (b.toNat - 0xC0) * 64 + (b₁.toNat - 0x80) = c.toNat := by omega
      refine ⟨b₁, rfl, ?_, back.symm.trans (congrArg Char.ofNat code.symm)⟩
      simp only [UInt8.le_iff_toNat_le, UInt8.reduceToNat]
      omega
  | @three _ b₁ b₂ low high first second third =>
      rw [start_three (by omega) (by omega), finishes_more_iff]
      have code : ((b.toNat - 0xE0) * 64 + (b₁.toNat - 0x80)) * 64 + (b₂.toNat - 0x80) =
          c.toNat := by omega
      refine ⟨b₁, _, rfl, ?_, finishes_last_iff.mpr ⟨b₂, rfl, ?_,
        back.symm.trans (congrArg Char.ofNat code.symm)⟩⟩
      · simp only [UInt8.le_iff_toNat_le, UInt8.reduceToNat, apply_ite UInt8.toNat]
        split_ifs <;> omega
      · simp only [UInt8.le_iff_toNat_le, UInt8.reduceToNat]
        omega
  | @four _ b₁ b₂ b₃ low first second third fourth =>
      rw [start_four (by omega) (by omega), finishes_more_iff]
      have code : (((b.toNat - 0xF0) * 64 + (b₁.toNat - 0x80)) * 64 + (b₂.toNat - 0x80)) * 64 +
          (b₃.toNat - 0x80) = c.toNat := by omega
      refine ⟨b₁, _, rfl, ?_, finishes_more_iff.mpr ⟨b₂, _, rfl, ?_,
        finishes_last_iff.mpr ⟨b₃, rfl, ?_, back.symm.trans (congrArg Char.ofNat code.symm)⟩⟩⟩
      · simp only [UInt8.le_iff_toNat_le, UInt8.reduceToNat, apply_ite UInt8.toNat]
        split_ifs <;> omega
      · simp only [UInt8.le_iff_toNat_le, UInt8.reduceToNat]
        omega
      · simp only [UInt8.le_iff_toNat_le, UInt8.reduceToNat]
        omega

/-- What a byte begins is finished by the rest of the encoding of a character. -/
theorem finishes_start_iff : (start b).Finishes rest c ↔ utf8EncodeChar c = b :: rest := by
  rw [encodeChar_eq_iff]
  exact ⟨encodes_of_finishes, finishes_of_encodes⟩

/-- No encoding begins with a byte that only goes on with one. -/
theorem encodeChar_eq_cons (c : Char) : ∃ b rest, utf8EncodeChar c = b :: rest ∧ ¬IsTail b := by
  have encodes := encodes_encodeChar c
  have valid := toNat_valid c
  generalize utf8EncodeChar c = bytes at encodes
  cases encodes <;> refine ⟨_, _, rfl, ?_⟩ <;> rw [IsTail] <;> omega

/-- The last byte of an encoding is below 128 only if it is the encoding of its character. -/
theorem last_encodeChar (last : (utf8EncodeChar c).getLast? = some b) (low : b.toNat < 0x80) :
    utf8EncodeChar c = [b] ∧ c.toNat = b.toNat := by
  have encodes := encodes_encodeChar c
  generalize utf8EncodeChar c = bytes at encodes last
  cases encodes with
  | one high first =>
      cases last
      exact ⟨rfl, first.symm⟩
  | two | three | four =>
      -- The last byte only goes on with an encoding.
      rw [List.getLast?_eq_some_getLast (List.cons_ne_nil _ _)] at last
      cases last
      simp only [List.getLast_cons_cons, List.getLast_singleton] at low
      omega

end Characters

section Texts

variable {text a b : String}

-- The bytes of two texts, one after the other.
theorem encode_append (a b : String) : encode (a ++ b) = encode a ++ encode b := by
  simp only [encode, String.toList_append, List.flatMap_append]

-- Every character has at least one byte.
theorem encode_eq_nil_iff : encode text = [] ↔ text = "" := by
  rw [encode, List.flatMap_eq_nil_iff, ← String.toList_eq_nil_iff]
  constructor
  · intro none
    rw [List.eq_nil_iff_forall_not_mem]
    intro c mem
    exact String.utf8EncodeChar_ne_nil (none c mem)
  · intro empty c mem
    rw [empty] at mem
    cases mem

theorem encode_ofList (s : List Char) : encode (String.ofList s) = s.flatMap utf8EncodeChar := by
  rw [encode, String.toList_ofList]

theorem WellFormed.append {front rest : List UInt8} (hf : WellFormed front)
    (hr : WellFormed rest) : WellFormed (front ++ rest) := by
  rcases hf with ⟨a, rfl⟩
  rcases hr with ⟨b, rfl⟩
  exact ⟨a ++ b, (encode_append a b).symm⟩

theorem wellFormed_encodeChar (c : Char) : WellFormed (utf8EncodeChar c) :=
  ⟨String.ofList [c], by rw [encode_ofList, List.flatMap_singleton]⟩

end Texts

end Utf8

end ShardConsole
