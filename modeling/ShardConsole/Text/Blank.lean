/-!
# Blank Characters

Which characters separate words, and how a text is cut into words or trimmed at
both ends.

A character is blank when it has the Unicode property `White_Space`. The
separators of ASCII (U+001C to U+001F), the zero-width space and the byte order
mark do not have that property, so they are ordinary parts of a word.

## Main definitions

* `isBlank`: The character separates words.
* `words`: The maximal runs of characters that are not blank, in order.
* `trim`: The text without its leading and trailing blanks.

## Theorems

* `words_ne_nil`: No word is empty.
-/

namespace ShardConsole

namespace Text

/-- The code points with the property `White_Space`, as closed ranges. -/
def blankRanges : List (Nat × Nat) :=
  [(0x9, 0xD), (0x20, 0x20), (0x85, 0x85), (0xA0, 0xA0), (0x1680, 0x1680), (0x2000, 0x200A),
    (0x2028, 0x2029), (0x202F, 0x202F), (0x205F, 0x205F), (0x3000, 0x3000)]

/-- Whether a code point lies in one of the closed ranges. -/
def inRanges (ranges : List (Nat × Nat)) (code : Nat) : Bool :=
  ranges.any fun r => r.1 ≤ code && code ≤ r.2

/-- Whether a character separates words. -/
def isBlank (c : Char) : Bool :=
  inRanges blankRanges c.toNat

/-- The maximal runs of characters that are not blank, in order. -/
def words (s : List Char) : List (List Char) :=
  (s.splitOnP isBlank).filter (!·.isEmpty)

/-- The text without its leading blanks. -/
def trimLeft (s : List Char) : List Char :=
  s.dropWhile isBlank

/-- The text without its trailing blanks. -/
def trimRight (s : List Char) : List Char :=
  (s.reverse.dropWhile isBlank).reverse

/-- The text without its leading and trailing blanks. -/
def trim (s : List Char) : List Char :=
  trimRight (trimLeft s)

/-- No word is empty. -/
theorem words_ne_nil {s w : List Char} (h : w ∈ words s) : w ≠ [] := by
  intro hw
  subst hw
  simp [words] at h

end Text

end ShardConsole
