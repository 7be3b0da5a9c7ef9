/-!
# Scanning

What the readers of several formats share: words and digits at the start of a text.

A reader works on a list of characters and gives what it has read with the rest, or
the rest alone if there is nothing to tell.

## Main definitions

* `afterWord?`, `after?`: The rest of a text after a word, or after a character.
* `digitValue?`: The value of a digit; letters go on after nine.
* `number`: The number that digits stand for in a base.
* `natural?`, `unsigned?`: The number that a whole text stands for.

## Theorems

* `natural?_eq_some_iff`: Only a text of digits stands for a number.
-/

namespace ShardConsole

namespace Text

/-- The rest of a text after a word. -/
def afterWord? (word s : List Char) : Option (List Char) :=
  if word.isPrefixOf s then some (s.drop word.length) else none

/-- The rest of a text after a character. -/
def after? (c : Char) (s : List Char) : Option (List Char) :=
  match s with
  | d :: rest => if d = c then some rest else none
  | [] => none

/-- The value of a digit of a base up to sixteen; letters of both cases go on after
    nine. -/
def digitValue? (c : Char) : Option Nat :=
  if c.isDigit then some (c.toNat - '0'.toNat)
  else if 'a' ≤ c ∧ c ≤ 'f' then some (c.toNat - 'a'.toNat + 10)
  else if 'A' ≤ c ∧ c ≤ 'F' then some (c.toNat - 'A'.toNat + 10)
  else none

/-- The number that digits stand for in a base. -/
def number (base : Nat) (digits : List Char) : Nat :=
  digits.foldl (fun n d => base * n + (digitValue? d).getD 0) 0

/-- The number that a text stands for: one decimal digit or more, and nothing else. -/
def natural? (s : List Char) : Option Nat :=
  if s ≠ [] ∧ s.all Char.isDigit then some (number 10 s) else none

/-- The number that a text stands for, with one plus sign in front of it or none. -/
def unsigned? (s : List Char) : Option Nat :=
  match s with
  | '+' :: rest => natural? rest
  | _ => natural? s

/-- Only a text of digits stands for a number, and it has at least one. -/
theorem natural?_eq_some_iff {s : List Char} {n : Nat} :
    natural? s = some n ↔ s ≠ [] ∧ (∀ c ∈ s, c.isDigit) ∧ number 10 s = n := by
  simp [natural?, and_assoc]

end Text

end ShardConsole
