import ShardConsole.Json.Parser
import ShardConsole.Json.Printer
import ShardConsole.Proofs.Text.Numerals

/-!
# Canonical Texts of JSON Values

A value that has been written is read back as it was.

Not every value can be: a string whose escapes stand for no text is written as an empty one, and a
numeral without digits is no numeral. `Value.Proper` leaves these out, and `parse?_text` is about
all others. A value is read from the front of a text and does not know where it ends, except by what
stands behind it, so the readers are followed with the rest of the text in view: what stands behind
a value that was written is nothing, a comma or the bracket that closes what it stands in.

## Main definitions

* `Numeral.Proper`, `Value.Proper`: What is written as what it is.
* `Ends`: What may stand behind a value.
* `Spells`: What a character is written as.

## Theorems

* `Numeral.scan?_text`: Numerals are read back.
* `scanString?_printString`: Strings are read back, whatever characters are in them.
* `Value.parse?_text`: Values are read back.
* `Value.text_injective`: Different values have different texts.
-/

namespace ShardConsole

namespace Json

/-- Digits, of which there is at least one. -/
structure SomeDigits (ds : List Char) : Prop where
  some : ds ≠ []
  decimal : ∀ c ∈ ds, c.isDigit = true

/-- The parts of a numeral are such as a numeral has: digits wherever it says that there are some,
    and no leading zero. -/
structure Numeral.Proper (n : Numeral) : Prop where
  whole : SomeDigits n.whole
  leading : n.whole.head? = some '0' → n.whole = ['0']
  fraction : ∀ ds ∈ n.fraction, SomeDigits ds
  power : ∀ p ∈ n.power, SomeDigits p.2

/-- A value with proper numerals, in which every string stands for a text. -/
inductive Value.Proper : Value → Prop
  | null : Proper .null
  | bool (b : Bool) : Proper (.bool b)
  | number {n : Numeral} (proper : n.Proper) : Proper (.number n)
  | text (s : String) : Proper (.ofText s)
  | array {items : List Value} (all : ∀ v ∈ items, Proper v) : Proper (.array items)
  | object {members : List (String × Value)} (all : ∀ m ∈ members, Proper m.2) :
      Proper (.ofMembers members)

/-- What may stand behind a value: nothing, or what ends it. -/
def Ends (rest : List Char) : Prop :=
  ∀ c ∈ rest.head?, c = ',' ∨ c = ']' ∨ c = '\x7d'

theorem ends_nil : Ends [] := by
  rintro _ ⟨⟩

theorem ends_comma (rest : List Char) : Ends (',' :: rest) := by
  rintro _ ⟨⟩
  exact .inl rfl

theorem ends_bracket (rest : List Char) : Ends (']' :: rest) := by
  rintro _ ⟨⟩
  exact .inr (.inl rfl)

theorem ends_brace (rest : List Char) : Ends ('\x7d' :: rest) := by
  rintro _ ⟨⟩
  exact .inr (.inr rfl)

/-- What may stand behind digits. -/
def NoDigit (rest : List Char) : Prop :=
  ∀ c ∈ rest.head?, c.isDigit = false

theorem Ends.noDigit {rest : List Char} (ends : Ends rest) : NoDigit rest := by
  intro c head
  rcases ends c head with rfl | rfl | rfl <;> rfl

section Numerals

variable {ds rest : List Char} {n : Numeral}

theorem someDigits?_append (some : SomeDigits ds) (ends : NoDigit rest) :
    someDigits? (ds ++ rest) = .some (ds, rest) := by
  have taken : digits (ds ++ rest) = (ds, rest) := by
    have front := @List.takeWhile_append_of_pos _ _ _ rest some.decimal
    have back := @List.dropWhile_append_of_pos _ _ _ rest some.decimal
    rw [digits, front, back]
    cases rest with
    | nil => simp
    | cons c rest => simp [ends c rfl]
  rw [someDigits?, taken, if_neg some.some]

/-- The fraction of a numeral as it is written. -/
def Numeral.fractionText (n : Numeral) : List Char :=
  match n.fraction with
  | none => []
  | some ds => '.' :: ds

/-- The power of ten of a numeral as it is written. -/
def Numeral.powerText (n : Numeral) : List Char :=
  match n.power with
  | none => []
  | some (negative, ds) => 'e' :: (if negative then '-' else '+') :: ds

theorem Numeral.text_eq (n : Numeral) : n.text =
    (if n.negative then ['-'] else []) ++ n.whole ++ n.fractionText ++ n.powerText := rfl

theorem noDigit_powerText (ends : Ends rest) : NoDigit (n.powerText ++ rest) := by
  rw [Numeral.powerText]
  cases n.power with
  | none => exact ends.noDigit
  | some p =>
      rintro _ ⟨⟩
      rfl

theorem noDigit_fractionText (ends : Ends rest) :
    NoDigit (n.fractionText ++ (n.powerText ++ rest)) := by
  rw [Numeral.fractionText]
  cases n.fraction with
  | none => exact noDigit_powerText ends
  | some ds =>
      rintro _ ⟨⟩
      rfl

theorem scanWhole?_append (some : SomeDigits ds) (leading : ds.head? = .some '0' → ds = ['0'])
    (ends : NoDigit rest) : Numeral.scanWhole? (ds ++ rest) = .some (ds, rest) := by
  rcases ds with _ | ⟨d, ds⟩
  · exact absurd rfl some.some
  · by_cases zero : d = '0'
    · subst zero
      cases leading rfl
      rfl
    · rw [← someDigits?_append some ends, List.cons_append, Numeral.scanWhole?]
      rintro _ ⟨⟩
      exact zero rfl

theorem scanPower?_append (proper : n.Proper) (ends : Ends rest) :
    Numeral.scanPower? (n.powerText ++ rest) = some (n.power, rest) := by
  rw [Numeral.powerText]
  cases given : n.power with
  | none =>
      cases rest with
      | nil => rfl
      | cons c rest =>
          rcases ends c rfl with rfl | rfl | rfl <;> rfl
  | some p =>
      rcases p with ⟨negative, ds⟩
      have digits := someDigits?_append (proper.power _ given) ends.noDigit
      cases negative <;> simp [Numeral.scanPower?, Numeral.scanSigned?, digits]

theorem scanFraction?_append (proper : n.Proper) (ends : Ends rest) :
    Numeral.scanFraction? (n.fractionText ++ (n.powerText ++ rest)) =
      some (n.fraction, n.powerText ++ rest) := by
  rw [Numeral.fractionText]
  cases given : n.fraction with
  | none =>
      rw [Numeral.powerText]
      cases n.power with
      | none =>
          cases rest with
          | nil => rfl
          | cons c rest =>
              rcases ends c rfl with rfl | rfl | rfl <;> rfl
      | some p => rfl
  | some ds =>
      have digits := someDigits?_append (proper.fraction ds given) (noDigit_powerText (n := n) ends)
      simp [Numeral.scanFraction?, digits]

-- A number without a sign begins with a digit, and so with no sign.
theorem scan?_unsigned {s : List Char} (begins : ∀ c ∈ s.head?, c.isDigit = true) :
    Numeral.scan? s = (do
      let (whole, s) ← Numeral.scanWhole? s
      let (fraction, s) ← Numeral.scanFraction? s
      let (power, s) ← Numeral.scanPower? s
      return (⟨false, whole, fraction, power⟩, s)) := by
  rw [Numeral.scan?]
  rintro _ rfl
  cases begins '-' rfl

/-- A numeral is read back. -/
theorem Numeral.scan?_text (proper : n.Proper) (ends : Ends rest) :
    scan? (n.text ++ rest) = some (n, rest) := by
  have whole := scanWhole?_append proper.whole proper.leading (noDigit_fractionText (n := n) ends)
  have fraction := scanFraction?_append proper ends
  have power := scanPower?_append proper ends
  have text : n.text ++ rest = (if n.negative then ['-'] else []) ++
      (n.whole ++ (n.fractionText ++ (n.powerText ++ rest))) := by
    simp [text_eq]
  rw [text]
  cases sign : n.negative with
  | true =>
      simp [scan?, whole, fraction, power, ← sign]
  | false =>
      have begins : ∀ c ∈ (n.whole ++ (n.fractionText ++ (n.powerText ++ rest))).head?,
          c.isDigit = true := by
        intro c head
        rw [List.head?_append_of_ne_nil _ proper.whole.some] at head
        exact proper.whole.decimal c (List.mem_of_mem_head? head)
      rw [if_neg Bool.false_ne_true, List.nil_append, scan?_unsigned begins]
      simp [whole, fraction, power, ← sign]

end Numerals

section WholeNumbers

theorem digitChar_ne_zero : ∀ d < 10, d ≠ 0 → Nat.digitChar d ≠ '0' := by decide

-- The digits of a number begin with those of its tenth as long as it has one.
theorem head?_toDigits_ne {n : Nat} (some : n ≠ 0) : (Nat.toDigits 10 n).head? ≠ .some '0' := by
  induction n using Nat.strongRecOn with
  | ind n ih =>
      by_cases small : n < 10
      · rw [Nat.toDigits_of_lt_base small, List.head?_cons]
        exact fun same => digitChar_ne_zero n small some (Option.some.inj same)
      · rw [Nat.toDigits_of_base_le (by omega) (by omega),
          List.head?_append_of_ne_nil _ Nat.toDigits_ne_nil]
        exact ih (n / 10) (by omega) (by omega)

theorem Numeral.proper_ofInt (i : Int) : (ofInt i).Proper where
  whole := ⟨Nat.toDigits_ne_nil, fun _ => Nat.isDigit_of_mem_toDigits (by omega) (by omega)⟩
  leading := by
    intro head
    by_cases zero : i.natAbs = 0
    · rw [ofInt, zero, Nat.toDigits_zero]
    · exact absurd head (head?_toDigits_ne zero)
  fraction := by
    rintro _ ⟨⟩
  power := by
    rintro _ ⟨⟩

/-- The numeral of a whole number stands for it. -/
theorem Numeral.toInt?_ofInt (i : Int) : (ofInt i).toInt? = some i := by
  have value : Text.number 10 (ofInt i).whole = i.natAbs := Text.number_toDigits i.natAbs
  rw [toInt?, value, if_neg (by simp [ofInt])]
  by_cases negative : i < 0
  · have sign : (ofInt i).negative = true := decide_eq_true negative
    rw [if_pos sign, if_neg (by omega)]
    exact congrArg some (by omega)
  · have sign : ¬(ofInt i).negative = true := by simpa [ofInt] using negative
    rw [if_neg sign]
    exact congrArg some (by omega)

end WholeNumbers

section Strings

variable {c : Char} {s rest : List Char} {item : Item} {items : List Item}

/-- A character is read back from what it is written as, as one item of a string. -/
structure Spells (c : Char) (item : Item) : Prop where
  scan : ∀ rest, scanItems? (escapeChar c ++ rest) =
    (scanItems? rest).map fun (items, rest) => (item :: items, rest)
  text : ∀ items, textOf? (item :: items) = (textOf? items).map (c :: ·)

-- A unit that is no half of a surrogate pair stands for a character whatever comes behind it.
theorem textOf?_unit_cons {n : Nat} (small : n < 0xD800) :
    textOf? (.unit n :: items) = (textOf? items).map (Char.ofNat n :: ·) := by
  have low : ¬0xD800 ≤ n := by omega
  have lower : ¬0xDC00 ≤ n := by omega
  cases items with
  | nil => simp [textOf?, low]
  | cons item items => cases item <;> simp [textOf?, low, lower]

theorem hexUnit?_hexDigits :
    ∀ n < 0x20, hexUnit? ['0', '0', hexDigit (n / 16), hexDigit (n % 16)] = some n := by
  decide

-- A character that needs no escape stands for itself.
theorem scanItems?_plain (quote : c ≠ '"') (backslash : c ≠ '\\') (visible : ¬c.toNat < 0x20) :
    scanItems? (c :: rest) =
      (scanItems? rest).map fun (items, rest) => (.char c :: items, rest) := by
  rw [scanItems?]
  · rw [if_neg visible]
    cases scanItems? rest <;> rfl
  · exact quote
  · rintro _ _ _ _ _ same _
    exact backslash same
  · rintro _ _ same _
    exact backslash same

theorem scanItems?_short {e : Char} (short : shortEscape? e = some c) :
    scanItems? ('\\' :: e :: rest) =
      (scanItems? rest).map fun (items, rest) => (.char c :: items, rest) := by
  rw [scanItems?, short]
  · cases scanItems? rest <;> rfl
  · rintro _ _ _ _ _ rfl
    cases short

theorem scanItems?_code (control : c.toNat < 0x20) :
    scanItems? ('\\' :: 'u' :: '0' :: '0' :: hexDigit (c.toNat / 16) :: hexDigit (c.toNat % 16) ::
        rest) =
      (scanItems? rest).map fun (items, rest) => (.unit c.toNat :: items, rest) := by
  rw [scanItems?, hexUnit?_hexDigits c.toNat control]
  cases scanItems? rest <;> rfl

/-- A character is written in a short form, by its code, or as it is. -/
theorem escapeChar_cases (c : Char) :
    (∃ e, shortEscape? e = some c ∧ escapeChar c = ['\\', e]) ∨
    (c.toNat < 0x20 ∧ escapeChar c =
      ['\\', 'u', '0', '0', hexDigit (c.toNat / 16), hexDigit (c.toNat % 16)]) ∨
    (c ≠ '"' ∧ c ≠ '\\' ∧ ¬c.toNat < 0x20 ∧ escapeChar c = [c]) := by
  unfold escapeChar
  split
  case h_8 quote backslash _ _ _ _ _ =>
      split
      · rename_i control
        exact .inr (.inl ⟨control, rfl⟩)
      · rename_i visible
        exact .inr (.inr ⟨quote, backslash, visible, rfl⟩)
  all_goals exact .inl ⟨_, rfl, rfl⟩

/-- Every character is read back. -/
theorem exists_spells (c : Char) : ∃ item, Spells c item := by
  have text : ∀ items, textOf? (.char c :: items) = (textOf? items).map (c :: ·) := by
    intro items
    rw [textOf?]
  rcases escapeChar_cases c with ⟨e, short, written⟩ | ⟨control, written⟩ |
    ⟨quote, backslash, visible, written⟩
  · exact ⟨.char c, fun rest => written ▸ scanItems?_short short, text⟩
  · refine ⟨.unit c.toNat, fun rest => written ▸ scanItems?_code control, fun items => ?_⟩
    rw [textOf?_unit_cons (by omega), Char.ofNat_toNat]
  · exact ⟨.char c, fun rest => written ▸ scanItems?_plain quote backslash visible, text⟩

/-- A string is read back, whatever characters are in it. -/
theorem scanString?_append (s : String) (rest : List Char) :
    scanString? (s.toList.flatMap escapeChar ++ '"' :: rest) = some (some s, rest) := by
  have read : ∀ cs : List Char, ∃ items,
      scanItems? (cs.flatMap escapeChar ++ '"' :: rest) = some (items, rest) ∧
        textOf? items = some cs := by
    intro cs
    induction cs with
    | nil => exact ⟨[], rfl, rfl⟩
    | cons c cs ih =>
        rcases ih with ⟨items, scanned, text⟩
        rcases exists_spells c with ⟨item, spells⟩
        refine ⟨item :: items, ?_, ?_⟩
        · rw [List.flatMap_cons, List.append_assoc, spells.scan, scanned]
          rfl
        · rw [spells.text, text]
          rfl
  rcases read s.toList with ⟨items, scanned, text⟩
  simp [scanString?, scanned, text]

end Strings

section Values

variable {v : Value} {items : List Value} {rest : List Char} {fuel : Nat}

theorem commaSeparated_cons_cons (piece next : List Char) (pieces : List (List Char)) :
    commaSeparated (piece :: next :: pieces) = piece ++ ',' :: commaSeparated (next :: pieces) := by
  rw [commaSeparated, commaSeparated, List.intercalate_cons_cons]
  simp

/-- A text that has been written as a value begins neither with a blank nor with the end of an
    array. -/
def Begun (s : List Char) : Prop :=
  ∃ c tail, s = c :: tail ∧ isSpace c = false ∧ c ≠ ']'

/-- A value is read back, whatever stands behind it, given enough fuel. -/
structure Reads (v : Value) : Prop where
  begun : Begun v.print
  scan : ∀ fuel rest, 2 * v.print.length ≤ fuel → Ends rest →
    scanValue? fuel (v.print ++ rest) = some (v, rest)

theorem Begun.skipSpace_append {s : List Char} (begun : Begun s) :
    skipSpace (s ++ rest) = s ++ rest := by
  rcases begun with ⟨c, tail, rfl, solid, _⟩
  exact List.dropWhile_cons_of_neg (by simp [solid])

theorem begun_commaSeparated {piece : List Char} (pieces : List (List Char)) (begun : Begun piece) :
    Begun (commaSeparated (piece :: pieces)) := by
  rcases begun with ⟨c, tail, rfl, solid, closed⟩
  cases pieces with
  | nil => exact ⟨c, tail, by simp [commaSeparated], solid, closed⟩
  | cons next pieces =>
      exact ⟨c, _, by rw [commaSeparated_cons_cons, List.cons_append], solid, closed⟩

theorem Ends.skipSpace_eq (ends : Ends rest) : skipSpace rest = rest := by
  cases rest with
  | nil => rfl
  | cons c rest => rcases ends c rfl with rfl | rfl | rfl <;> rfl

/-- A numeral begins with a sign or with a digit. -/
theorem Numeral.Proper.exists_head {n : Numeral} (proper : n.Proper) :
    ∃ c tail, n.text = c :: tail ∧ (c = '-' ∨ c.isDigit = true) := by
  rw [Numeral.text_eq]
  cases n.negative with
  | true => exact ⟨_, _, rfl, .inl rfl⟩
  | false =>
      rcases given : n.whole with _ | ⟨d, ds⟩
      · exact absurd given proper.whole.some
      · exact ⟨_, _, rfl, .inr (proper.whole.decimal d (given ▸ List.mem_cons_self))⟩

-- A value has a character at least, so there is fuel for the first step.
theorem Reads.of_succ (begun : Begun v.print)
    (scan : ∀ fuel rest, 2 * v.print.length ≤ fuel + 1 → Ends rest →
      scanValue? (fuel + 1) (v.print ++ rest) = some (v, rest)) : Reads v := by
  refine ⟨begun, fun fuel rest enough ends => ?_⟩
  rcases fuel with _ | fuel
  · rcases begun with ⟨c, tail, text, _, _⟩
    rw [text, List.length_cons] at enough
    omega
  · exact scan fuel rest enough ends

theorem reads_null : Reads .null :=
  .of_succ ⟨_, _, rfl, rfl, by decide⟩ fun _ _ _ _ => rfl

theorem reads_bool (b : Bool) : Reads (.bool b) := by
  cases b
  · exact .of_succ ⟨_, _, rfl, rfl, by decide⟩ fun _ _ _ _ => rfl
  · exact .of_succ ⟨_, _, rfl, rfl, by decide⟩ fun _ _ _ _ => rfl

theorem begun_text {n : Numeral} (proper : n.Proper) : Begun n.text := by
  rcases proper.exists_head with ⟨c, tail, text, rfl | decimal⟩
  · exact ⟨_, _, text, rfl, by decide⟩
  · refine ⟨_, _, text, ?_, ?_⟩
    · by_contra space
      simp only [isSpace, Bool.not_eq_false, Bool.or_eq_true, decide_eq_true_eq] at space
      rcases space with ((rfl | rfl) | rfl) | rfl <;> cases decimal
    · rintro rfl
      cases decimal

theorem reads_number {n : Numeral} (proper : n.Proper) : Reads (.number n) := by
  refine .of_succ (begun_text proper) fun fuel rest _ ends => ?_
  rcases proper.exists_head with ⟨c, tail, text, head⟩
  rw [Value.print, scanValue?, Numeral.scan?_text proper ends]
  · rfl
  all_goals
    rw [text]
    rintro _ ⟨⟩
    rcases head with ⟨⟨⟩⟩ | ⟨⟨⟩⟩

theorem reads_text (s : String) : Reads (.ofText s) := by
  refine .of_succ ⟨_, _, rfl, rfl, by decide⟩ fun fuel rest _ _ => ?_
  rw [Value.ofText, Value.print, Option.getD_some, printString, List.append_assoc,
    List.cons_append, List.singleton_append, scanValue?, scanString?_append]
  rfl

/-- The elements of an array are read back. -/
theorem scanElements?_append (reads : ∀ v ∈ items, Reads v) (some : items ≠ [])
    (enough : 2 * (commaSeparated (Value.printItems items)).length < fuel) :
    scanElements? fuel (commaSeparated (Value.printItems items) ++ ']' :: rest) =
      .some (items, rest) := by
  induction items generalizing fuel with
  | nil => exact absurd rfl some
  | cons v items ih =>
      rcases fuel with _ | fuel
      · omega
      · cases items with
        | nil =>
            have last := (reads v List.mem_cons_self).scan fuel (']' :: rest)
            simp only [Value.printItems, commaSeparated, List.intercalate_singleton] at enough ⊢
            rw [scanElements?, last (by omega) (ends_bracket rest)]
            rfl
        | cons w items =>
            simp only [Value.printItems] at enough ih ⊢
            rw [commaSeparated_cons_cons, List.length_append, List.length_cons] at enough
            rw [commaSeparated_cons_cons, List.append_assoc, List.cons_append, scanElements?,
              (reads v List.mem_cons_self).scan fuel _ (by omega) (ends_comma _)]
            have next := begun_commaSeparated (Value.printItems items)
              (reads w (List.mem_cons_of_mem _ List.mem_cons_self)).begun
            have others := @ih fuel (fun x mem => reads x (List.mem_cons_of_mem _ mem))
              (List.cons_ne_nil _ _) (by omega)
            simp [(ends_comma _).skipSpace_eq, next.skipSpace_append, others]

theorem scanValue?_bracket {s : List Char} (begun : Begun s) :
    scanValue? (fuel + 1) ('[' :: (s ++ rest)) =
      (scanElements? fuel (s ++ rest)).map fun (items, rest) => (.array items, rest) := by
  rw [scanValue?, begun.skipSpace_append]
  rcases begun with ⟨c, tail, rfl, _, opened⟩
  split
  · rename_i closed
    exact absurd (List.cons.inj closed).1 opened
  · rfl

theorem reads_array (reads : ∀ v ∈ items, Reads v) : Reads (.array items) := by
  refine .of_succ ⟨_, _, rfl, rfl, by decide⟩ fun fuel rest enough _ => ?_
  rw [Value.print] at enough ⊢
  rw [List.length_append, List.length_cons, List.length_singleton] at enough
  rw [List.append_assoc, List.cons_append, List.singleton_append]
  cases items with
  | nil => rfl
  | cons v items =>
      have first := begun_commaSeparated (Value.printItems items)
        (reads v List.mem_cons_self).begun
      rw [← Value.printItems] at first
      rw [scanValue?_bracket first,
        scanElements?_append reads (List.cons_ne_nil v items) (by omega)]
      rfl

/-- A member of an object as it is written. -/
def memberText (member : String × Value) : List Char :=
  printString member.1 ++ ':' :: member.2.print

theorem begun_memberText (member : String × Value) : Begun (memberText member) :=
  ⟨_, _, rfl, rfl, by decide⟩

-- The members of an object begin with a quotation mark.
theorem commaSeparated_memberText (member : String × Value) (members : List (String × Value)) :
    ∃ tail, commaSeparated ((member :: members).map memberText) = '"' :: tail := by
  cases members with
  | nil => exact ⟨_, List.intercalate_singleton⟩
  | cons next members => exact ⟨_, commaSeparated_cons_cons _ _ _⟩

theorem printMembers_eq (members : List (String × Value)) :
    Value.printMembers (members.map fun (name, v) => (some name, v)) = members.map memberText := by
  induction members with
  | nil => rfl
  | cons member members ih => rw [List.map_cons, Value.printMembers, ih]; rfl

section Members

variable {name : String} (reads : Reads v)
include reads

theorem scanMembers?_last (enough : 2 * v.print.length ≤ fuel) :
    scanMembers? (fuel + 1) (memberText (name, v) ++ '\x7d' :: rest) =
      some ([(some name, v)], rest) := by
  have value := reads.scan fuel ('\x7d' :: rest) enough (ends_brace rest)
  have colon (s : List Char) : skipSpace (':' :: s) = ':' :: s := rfl
  simp [memberText, printString, scanMembers?, scanString?_append, colon,
    reads.begun.skipSpace_append, value, (ends_brace rest).skipSpace_eq]

theorem scanMembers?_next (enough : 2 * v.print.length ≤ fuel) :
    scanMembers? (fuel + 1) (memberText (name, v) ++ ',' :: rest) =
      (scanMembers? fuel (skipSpace rest)).map
        fun (members, rest) => ((some name, v) :: members, rest) := by
  have value := reads.scan fuel (',' :: rest) enough (ends_comma rest)
  have colon (s : List Char) : skipSpace (':' :: s) = ':' :: s := rfl
  simp [memberText, printString, scanMembers?, scanString?_append, colon,
    reads.begun.skipSpace_append, value, (ends_comma rest).skipSpace_eq]
  cases scanMembers? fuel (skipSpace rest) <;> rfl

end Members

/-- The members of an object are read back. -/
theorem scanMembers?_append {members : List (String × Value)} (reads : ∀ m ∈ members, Reads m.2)
    (some : members ≠ []) (enough : 2 * (commaSeparated (members.map memberText)).length < fuel) :
    scanMembers? fuel (commaSeparated (members.map memberText) ++ '\x7d' :: rest) =
      .some (members.map fun (name, v) => (.some name, v), rest) := by
  induction members generalizing fuel with
  | nil => exact absurd rfl some
  | cons member members ih =>
      have read := reads member List.mem_cons_self
      have length : member.2.print.length < (memberText member).length := by
        rw [memberText, List.length_append, List.length_cons]
        omega
      rcases fuel with _ | fuel
      · omega
      · cases members with
        | nil =>
            simp only [List.map_cons, List.map_nil, commaSeparated,
              List.intercalate_singleton] at enough ⊢
            exact scanMembers?_last read (by omega)
        | cons next members =>
            simp only [List.map_cons] at enough ih ⊢
            rw [commaSeparated_cons_cons, List.length_append, List.length_cons] at enough
            rw [commaSeparated_cons_cons, List.append_assoc, List.cons_append]
            have others := @ih fuel (fun m mem => reads m (List.mem_cons_of_mem _ mem))
              (List.cons_ne_nil _ _) (by omega)
            refine (scanMembers?_next read (by omega)).trans ?_
            rw [(begun_commaSeparated _ (begun_memberText next)).skipSpace_append, others]
            rfl

theorem reads_object {members : List (String × Value)} (reads : ∀ m ∈ members, Reads m.2) :
    Reads (.ofMembers members) := by
  refine .of_succ ⟨_, _, rfl, rfl, by decide⟩ fun fuel rest enough _ => ?_
  rw [Value.ofMembers, Value.print, printMembers_eq] at enough ⊢
  rw [List.length_append, List.length_cons, List.length_singleton] at enough
  rw [List.append_assoc, List.cons_append, List.singleton_append]
  cases members with
  | nil => rfl
  | cons member members =>
      have read := @scanMembers?_append rest fuel _ reads (List.cons_ne_nil member members)
        (by omega)
      rcases commaSeparated_memberText member members with ⟨tail, text⟩
      rw [text, List.cons_append] at read ⊢
      simp [scanValue?, skipSpace, isSpace, read]

/-- A proper value is read back from the front of a text. -/
theorem Value.Proper.reads (proper : v.Proper) : Reads v := by
  induction proper with
  | null => exact reads_null
  | bool b => exact reads_bool b
  | number proper => exact reads_number proper
  | text s => exact reads_text s
  | array _ reads => exact reads_array reads
  | object _ reads => exact reads_object reads

/-- A proper value is read back from its text. -/
theorem Value.parse?_text (proper : v.Proper) : parse? v.text = some v := by
  have length : v.text.length = v.print.length := String.length_ofList
  have read := proper.reads.scan (2 * v.text.length + 2) [] (by omega) ends_nil
  rw [List.append_nil] at read
  have solid : skipSpace (v.print ++ []) = v.print ++ [] := proper.reads.begun.skipSpace_append
  rw [List.append_nil] at solid
  rw [parse?, text, String.toList_ofList, solid, ← text, read]
  rfl

/-- Different values have different texts. -/
theorem Value.text_injective {w : Value} (proper : v.Proper) (proper' : w.Proper)
    (same : v.text = w.text) : v = w :=
  Option.some.inj ((parse?_text proper).symm.trans (same ▸ parse?_text proper'))

end Values

end Json

end ShardConsole
