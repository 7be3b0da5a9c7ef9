import ShardConsole.Proofs.Text.Encoding
import ShardConsole.Proofs.Text.Pieces
import ShardConsole.Proofs.Text.Words

/-!
# Mended Bytes

What becomes of bytes that are read with mending.

`Cut` says what pieces of bytes are without reading them: a piece that is a character stands for
the encoding of that character, and a piece that is none for some bytes. What has been read of an
encoding `Leads` to a character only through the rest of its encoding, and one more byte keeps
this. So bytes are cut into their pieces, and bytes without an ill-formed piece are an encoding.

A byte that begins a character is never taken for the rest of an earlier one. Where a blank
begins, ill-formed bytes before it are therefore at their end, and the bytes on its two sides are
mended each for themselves. Mending moves no word's end and makes no blank, and each word of the
mended text is one word of the bytes, which is kept if it is well formed and shows a replacement
character if it is not.

## Main definitions

* `Utf8.Cut`: What pieces stand for.
* `Utf8.Progress.Leads`: What has been read of an encoding.
* `Utf8.Begins`: Bytes in front of which no encoding can be unfinished.
* `Utf8.IsSeparator`: The encoding of a single blank.

## Theorems

* `Utf8.cut_pieces`: Bytes are cut into their pieces.
* `Utf8.decode?_eq_some_iff`: Strict reading finds the text of an encoding.
* `Utf8.mend_encode`: Nothing about an encoding is mended.
* `Utf8.replacement_mem_mend`: What is ill formed shows a replacement character.
* `Utf8.mend_append`: Bytes are mended apart where a character begins.
* `Utf8.spells_mend`: The words of a mended text are the mended words of the bytes.
-/

namespace ShardConsole

namespace Utf8

open String (utf8EncodeChar)

/-- What pieces stand for: a character for its encoding, and an ill-formed piece for some
    bytes. -/
inductive Cut : List (Option Char) → List UInt8 → Prop
  | nothing : Cut [] []
  | character {c : Char} {pieces : List (Option Char)} {rest : List UInt8}
      (cut : Cut pieces rest) : Cut (some c :: pieces) (utf8EncodeChar c ++ rest)
  | illFormed {front : List UInt8} {pieces : List (Option Char)} {rest : List UInt8}
      (nonempty : front ≠ []) (cut : Cut pieces rest) : Cut (none :: pieces) (front ++ rest)

/-- Some bytes have been read, and nothing but the rest of an encoding takes them to a
    character. -/
def Progress.Leads (progress : Progress) (front : List UInt8) : Prop :=
  ∀ rest c, progress.Finishes rest c → utf8EncodeChar c = front ++ rest

/-- An encoding that goes on with no byte that begins one. -/
def Pending.Awaits (p : Pending) : Prop :=
  ∀ b next, p.extend? b = some next → IsTail b

/-- Bytes in front of which no encoding can be unfinished. -/
def Begins (bytes : List UInt8) : Prop :=
  ∀ b ∈ bytes.head?, ¬IsTail b

/-- The encoding of a single blank. -/
def IsSeparator (bytes : List UInt8) : Prop :=
  ∃ c, Text.isBlank c = true ∧ bytes = utf8EncodeChar c

section Pieces

variable {progress next : Progress} {begun : Option Pending} {p : Pending} {b : UInt8}
  {front rest bytes : List UInt8} {found : List (Option Char)} {c : Char}

theorem pieces_none_cons (b : UInt8) (bytes : List UInt8) :
    pieces none (b :: bytes) = (start b).settle.1 ++ pieces (start b).settle.2 bytes := rfl

theorem pieces_extend (extended : p.extend? b = some next) (bytes : List UInt8) :
    pieces (some p) (b :: bytes) = next.settle.1 ++ pieces next.settle.2 bytes := by
  simp only [pieces, feed, extended]

-- A byte that does not belong to what has begun is read afresh.
theorem pieces_break (foreign : p.extend? b = none) (bytes : List UInt8) :
    pieces (some p) (b :: bytes) = none :: pieces none (b :: bytes) := by
  simp only [pieces, feed, foreign, List.cons_append]

theorem pieces_of_finishes (finishes : progress.Finishes rest c) (bytes : List UInt8) :
    progress.settle.1 ++ pieces progress.settle.2 (rest ++ bytes) =
      some c :: pieces none bytes := by
  induction finishes with
  | whole => rfl
  | more extended _ ih =>
      rw [← ih]
      exact pieces_extend extended _

/-- The encoding of a character is read as the character. -/
theorem pieces_encodeChar (c : Char) (bytes : List UInt8) :
    pieces none (utf8EncodeChar c ++ bytes) = some c :: pieces none bytes := by
  rcases encodeChar_eq_cons c with ⟨b, rest, same, _⟩
  rw [same, List.cons_append, pieces_none_cons]
  exact pieces_of_finishes (finishes_start_iff.mpr same) bytes

theorem pieces_encode (text : String) (bytes : List UInt8) :
    pieces none (encode text ++ bytes) = text.toList.map some ++ pieces none bytes := by
  rw [encode]
  induction text.toList with
  | nil => rfl
  | cons c rest ih =>
      rw [List.flatMap_cons, List.append_assoc, pieces_encodeChar, ih]
      rfl

end Pieces

section Cutting

variable {progress next : Progress} {p : Pending} {b : UInt8}
  {front rest bytes : List UInt8} {found : List (Option Char)} {c : Char}

theorem leads_start (b : UInt8) : (start b).Leads [b] :=
  fun _ _ finishes => finishes_start_iff.mp finishes

theorem Progress.Leads.extend (leads : (Progress.unfinished p).Leads front)
    (extended : p.extend? b = some next) : next.Leads (front ++ [b]) := by
  intro rest c finishes
  rw [List.append_assoc, List.singleton_append]
  exact leads _ c (.more extended finishes)

-- What has been read, and what is read then, is cut into pieces.
theorem Progress.Leads.cut (leads : progress.Leads front) (nonempty : front ≠ [])
    (bytes : List UInt8) :
    Cut (progress.settle.1 ++ pieces progress.settle.2 bytes) (front ++ bytes) := by
  induction bytes generalizing progress front with
  | nil =>
      cases progress with
      | whole c =>
          rw [← (by simpa using leads [] c .whole : utf8EncodeChar c = front)]
          exact .character .nothing
      | unfinished | broken => exact .illFormed nonempty .nothing
  | cons b bytes ih =>
      have afresh : Cut (pieces none (b :: bytes)) (b :: bytes) :=
        ih (leads_start b) (List.cons_ne_nil b [])
      cases progress with
      | whole c =>
          rw [← (by simpa using leads [] c .whole : utf8EncodeChar c = front)]
          exact .character afresh
      | broken => exact .illFormed nonempty afresh
      | unfinished p =>
          show Cut (pieces (some p) (b :: bytes)) (front ++ b :: bytes)
          cases extended : p.extend? b with
          | some next =>
              rw [pieces_extend extended, List.append_cons front b bytes]
              exact ih (leads.extend extended) (by simp)
          | none =>
              rw [pieces_break extended]
              exact .illFormed nonempty afresh

/-- Bytes are cut into their pieces. -/
theorem cut_pieces (bytes : List UInt8) : Cut (pieces none bytes) bytes := by
  cases bytes with
  | nil => exact .nothing
  | cons b bytes => exact (leads_start b).cut (List.cons_ne_nil b []) bytes

theorem Cut.eq_nil (cut : Cut [] bytes) : bytes = [] := by
  cases cut
  rfl

-- Without an ill-formed piece there are only encodings of characters.
theorem Cut.wellFormed (cut : Cut found bytes) (each : none ∉ found) : WellFormed bytes := by
  induction cut with
  | nothing => exact ⟨"", rfl⟩
  | @character c _ _ _ ih =>
      exact (wellFormed_encodeChar c).append (ih fun mem => each (List.mem_cons_of_mem _ mem))
  | illFormed => exact absurd List.mem_cons_self each

-- Pieces that are all characters stand for the encoding of their text.
theorem Cut.eq_encode {text : List Char} (cut : Cut (text.map some) bytes) :
    bytes = encode (String.ofList text) := by
  rw [encode_ofList]
  induction text generalizing bytes with
  | nil => exact cut.eq_nil
  | cons c text ih =>
      cases cut with
      | character cut => rw [ih cut, List.flatMap_cons]

/-- Strict reading finds the text whose encoding the bytes are. -/
theorem decode?_eq_some_iff {text : String} : decode? bytes = some text ↔ bytes = encode text := by
  rw [decode?, Option.map_eq_some_iff]
  constructor
  · rintro ⟨found, each, rfl⟩
    have same : pieces none bytes = found.map some := by
      rw [← List.forall₂_eq_eq_eq, List.forall₂_map_right_iff]
      exact Text.mapM_eq_some_iff.mp each
    exact Cut.eq_encode (same ▸ cut_pieces bytes)
  · rintro rfl
    refine ⟨text.toList, ?_, String.ofList_toList⟩
    have same : pieces none (encode text) = text.toList.map some := by
      simpa [pieces] using pieces_encode text []
    rw [Text.mapM_eq_some_iff, same, List.forall₂_map_left_iff]
    exact List.forall₂_same.mpr fun c _ => rfl

theorem Cut.encodeChar_within (cut : Cut found bytes) (mem : some c ∈ found) :
    utf8EncodeChar c <:+: bytes := by
  induction cut with
  | nothing => cases mem
  | character _ ih =>
      rcases List.mem_cons.mp mem with same | later
      · cases same
        exact (List.prefix_append _ _).isInfix
      · exact (ih later).trans (List.suffix_append _ _).isInfix
  | illFormed _ _ ih =>
      rcases List.mem_cons.mp mem with same | later
      · cases same
      · exact (ih later).trans (List.suffix_append _ _).isInfix

end Cutting

section Parting

variable {p : Pending} {next : Progress} {b : UInt8} {front rest : List UInt8}
  {begun : Option Pending}

theorem awaits_of_bounds {need acc : Nat} {lo hi : UInt8} (low : 0x80 ≤ lo) (high : hi ≤ 0xBF) :
    Pending.Awaits ⟨need, lo, hi, acc⟩ := by
  intro b next extended
  rcases Option.ite_none_right_eq_some.mp extended with ⟨⟨above, below⟩, _⟩
  exact ⟨UInt8.le_iff_toNat_le.mp (UInt8.le_trans low above),
    UInt8.le_iff_toNat_le.mp (UInt8.le_trans below high)⟩

theorem awaits_start (b : UInt8) : ∀ p ∈ (start b).settle.2, p.Awaits := by
  intro p mem
  simp only [start] at mem
  split_ifs at mem <;>
    first
    | cases mem; done
    | rw [← Option.some.inj mem]
      exact awaits_of_bounds (by decide) (by decide)

theorem awaits_extend (extended : p.extend? b = some next) :
    ∀ q ∈ next.settle.2, q.Awaits := by
  rcases p with ⟨_ | need, lo, hi, acc⟩
  · rw [← (extend?_last_iff.mp extended).2]
    exact fun q mem => nomatch mem
  · rw [← (extend?_more_iff.mp extended).2]
    intro q mem
    rw [← Option.some.inj mem]
    exact awaits_of_bounds (by decide) (by decide)

theorem awaits_feed (begun : Option Pending) (b : UInt8) :
    ∀ q ∈ (feed begun b).2, q.Awaits := by
  cases begun with
  | none => exact awaits_start b
  | some p =>
      cases extended : p.extend? b with
      | some next =>
          simp only [feed, extended]
          exact awaits_extend extended
      | none =>
          simp only [feed, extended]
          exact awaits_start b

/-- Bytes are read apart where no encoding can be unfinished. -/
theorem pieces_append (begins : Begins rest) (awaits : ∀ p ∈ begun, p.Awaits) :
    pieces begun (front ++ rest) = pieces begun front ++ pieces none rest := by
  induction front generalizing begun with
  | nil =>
      cases begun with
      | none => rfl
      | some p =>
          cases rest with
          | nil => rfl
          | cons b bytes =>
              -- The first byte does not belong to what has begun, which ends there.
              have foreign : p.extend? b = none := by
                rw [Option.eq_none_iff_forall_ne_some]
                intro next extended
                exact begins b rfl (awaits p rfl b next extended)
              exact pieces_break foreign bytes
  | cons b front ih =>
      rw [List.cons_append, pieces, pieces, List.append_assoc, ih (awaits_feed begun b)]

end Parting

section Mending

variable {front rest bytes : List UInt8} {text : String} {c : Char}

theorem toList_mend (bytes : List UInt8) :
    (mend bytes).toList = (pieces none bytes).map (·.getD replacement) := by
  rw [mend, String.toList_ofList]

/-- Nothing about an encoding is mended. -/
theorem mend_encode (text : String) : mend (encode text) = text := by
  have read := pieces_encode text []
  rw [List.append_nil] at read
  rw [← String.toList_inj, toList_mend, read, pieces]
  simp [Function.comp_def]

/-- What is ill formed shows a replacement character. -/
theorem replacement_mem_mend (illFormed : ¬WellFormed bytes) :
    replacement ∈ (mend bytes).toList := by
  have mem : none ∈ pieces none bytes := by
    by_contra each
    exact illFormed ((cut_pieces bytes).wellFormed each)
  rw [toList_mend]
  exact List.mem_map.mpr ⟨none, mem, rfl⟩

-- Any other character of a mended text comes from its encoding.
theorem encodeChar_within_of_mem_mend (mem : c ∈ (mend bytes).toList) (other : c ≠ replacement) :
    utf8EncodeChar c <:+: bytes := by
  rw [toList_mend] at mem
  rcases List.mem_map.mp mem with ⟨piece, found, rfl⟩
  cases piece with
  | none => exact absurd rfl other
  | some d => exact (cut_pieces bytes).encodeChar_within found

theorem mend_ne_empty (some : bytes ≠ []) : mend bytes ≠ "" := by
  intro empty
  have none : pieces none bytes = [] := by
    rw [← List.map_eq_nil_iff, ← toList_mend, empty]
    rfl
  exact some (none ▸ cut_pieces bytes).eq_nil

/-- Bytes are mended apart where a character begins. -/
theorem mend_append (begins : Begins rest) : mend (front ++ rest) = mend front ++ mend rest := by
  have nothing : ∀ p ∈ (none : Option Pending), p.Awaits := fun p mem => by cases mem
  rw [← String.toList_inj, String.toList_append, toList_mend, toList_mend, toList_mend,
    pieces_append begins nothing, List.map_append]

theorem begins_encodeChar (c : Char) (bytes : List UInt8) : Begins (utf8EncodeChar c ++ bytes) := by
  rcases encodeChar_eq_cons c with ⟨b, rest, same, first⟩
  rw [same]
  intro d mem
  cases mem
  exact first

theorem mend_encodeChar (c : Char) (bytes : List UInt8) :
    (mend (utf8EncodeChar c ++ bytes)).toList = c :: (mend bytes).toList := by
  rw [toList_mend, pieces_encodeChar, toList_mend]
  rfl

end Mending

section Words

variable {words : List (List UInt8)} {word rest bytes : List UInt8}

theorem isSeparator_ne_nil : ∀ s, IsSeparator s → s ≠ [] := by
  rintro s ⟨c, _, rfl⟩
  exact String.utf8EncodeChar_ne_nil

theorem replacement_not_blank : Text.isBlank replacement = false := by decide

-- A word has no blank once it is mended.
theorem unbroken_mend (unbroken : Text.Unbroken IsSeparator word) :
    Text.Unbroken Text.IsSeparator (mend word).toList := by
  rw [Text.unbroken_iff]
  intro c mem
  by_cases other : c = replacement
  · rw [other, replacement_not_blank]
  · rw [Bool.eq_false_iff]
    intro blank
    exact unbroken _ ⟨c, blank, rfl⟩ (encodeChar_within_of_mem_mend mem other)

-- A blank that is not behind anything else is still there, and nothing before it takes it.
theorem begins_of_stops (stops : Text.Stops IsSeparator rest) : Begins rest := by
  rcases stops with rfl | ⟨s, ⟨c, _, rfl⟩, behind, rfl⟩
  · intro b mem
    cases mem
  · exact begins_encodeChar c behind

theorem stops_mend (stops : Text.Stops IsSeparator rest) :
    Text.Stops Text.IsSeparator (mend rest).toList := by
  rcases stops with rfl | ⟨s, ⟨c, blank, rfl⟩, behind, rfl⟩
  · exact Or.inl rfl
  · rw [mend_encodeChar]
    exact Or.inr ⟨[c], ⟨c, blank, rfl⟩, (mend behind).toList, rfl⟩

/-- The words of a mended text are the mended words of the bytes. -/
theorem spells_mend (spaced : Text.Spaced IsSeparator words bytes) :
    Text.Spells (mend bytes) (words.map mend) := by
  rw [Text.Spells]
  induction spaced with
  | nothing => exact .nothing
  | separator separates _ ih =>
      rcases separates with ⟨c, blank, rfl⟩
      rw [mend_encodeChar]
      exact .separator (s := [c]) ⟨c, blank, rfl⟩ ih
  | word some unbroken stops _ ih =>
      rw [mend_append (begins_of_stops stops), String.toList_append, List.map_cons, List.map_cons]
      refine .word ?_ (unbroken_mend unbroken) (stops_mend stops) ih
      simpa using mend_ne_empty some

-- Well-formed words with blanks between them are well formed.
theorem wellFormed_of_spaced (spaced : Text.Spaced IsSeparator words bytes)
    (each : ∀ word ∈ words, WellFormed word) : WellFormed bytes := by
  induction spaced with
  | nothing => exact ⟨"", rfl⟩
  | separator separates _ ih =>
      rcases separates with ⟨c, _, rfl⟩
      exact (wellFormed_encodeChar c).append (ih each)
  | word _ _ _ _ ih =>
      exact (each _ List.mem_cons_self).append
        (ih fun word mem => each word (List.mem_cons_of_mem _ mem))

end Words

end Utf8

end ShardConsole
