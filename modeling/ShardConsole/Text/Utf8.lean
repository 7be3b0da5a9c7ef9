/-!
# UTF-8

Reading bytes as UTF-8 text, with and without mending.

The bytes are cut from left to right into *pieces*: either the encoding of one
character, or a maximal ill-formed piece, that is, the longest run of bytes that
starts like the encoding of a character but does not go on like one, and a single
byte where nothing starts. Reading strictly fails on an ill-formed piece; reading
with mending puts one replacement character in its place.

The second byte of an encoding is the one that is restricted: its range rules out
overlong forms, surrogates and code points above U+10FFFF.

## Main definitions

* `Pending`: An encoding that has begun and lacks bytes.
* `feed`: The effect of one byte.
* `pieces`: The bytes cut into characters and ill-formed pieces.
* `decode?`: Strict reading.
* `mend`: Reading with replacement characters.
* `encode`: The bytes of a text.

## Theorems

* `length_mend`: Mending gives one character for each piece.
-/

namespace ShardConsole

namespace Utf8

/-- An encoding that has begun: `need` more bytes than the next one are to come,
    the next one lies between `lo` and `hi`, and `acc` holds the bits so far. -/
structure Pending where
  need : Nat
  lo : UInt8
  hi : UInt8
  acc : Nat
deriving DecidableEq

/-- What the bytes read so far amount to. -/
inductive Progress
  | whole (c : Char)
  | unfinished (p : Pending)
  | broken
deriving DecidableEq

/-- What a byte amounts to when no encoding has begun. -/
def start (b : UInt8) : Progress :=
  let n := b.toNat
  if n < 0x80 then .whole (Char.ofNat n)
  else if n < 0xC2 then .broken
  else if n < 0xE0 then .unfinished ⟨0, 0x80, 0xBF, n - 0xC0⟩
  else if n = 0xE0 then .unfinished ⟨1, 0xA0, 0xBF, 0⟩
  else if n = 0xED then .unfinished ⟨1, 0x80, 0x9F, n - 0xE0⟩
  else if n < 0xF0 then .unfinished ⟨1, 0x80, 0xBF, n - 0xE0⟩
  else if n = 0xF0 then .unfinished ⟨2, 0x90, 0xBF, 0⟩
  else if n < 0xF4 then .unfinished ⟨2, 0x80, 0xBF, n - 0xF0⟩
  else if n = 0xF4 then .unfinished ⟨2, 0x80, 0x8F, n - 0xF0⟩
  else .broken

/-- What a begun encoding amounts to with one more byte, or nothing if the byte
    does not belong to it. -/
def Pending.extend? (p : Pending) (b : UInt8) : Option Progress :=
  if p.lo ≤ b ∧ b ≤ p.hi then
    let acc := p.acc * 64 + (b.toNat - 0x80)
    match p.need with
    | 0 => some (.whole (Char.ofNat acc))
    | need + 1 => some (.unfinished ⟨need, 0x80, 0xBF, acc⟩)
  else none

/-- The pieces that are complete once some progress is made, and what is left
    begun. -/
def Progress.settle : Progress → List (Option Char) × Option Pending
  | .whole c => ([some c], none)
  | .unfinished p => ([], some p)
  | .broken => ([none], none)

/-- The pieces completed by one byte, and what is left begun. A byte that does not
    belong to the begun encoding ends it as ill-formed and is read afresh. -/
def feed (begun : Option Pending) (b : UInt8) : List (Option Char) × Option Pending :=
  match begun with
  | none => (start b).settle
  | some p =>
    match p.extend? b with
    | some progress => progress.settle
    | none => (none :: (start b).settle.1, (start b).settle.2)

/-- The bytes cut into characters and, as `none`, ill-formed pieces, where an
    encoding may have begun before the first of them. -/
def pieces (begun : Option Pending) : List UInt8 → List (Option Char)
  | [] => if begun.isSome then [none] else []
  | b :: bs => (feed begun b).1 ++ pieces (feed begun b).2 bs

/-- Strict reading: the text whose encoding the bytes are, if there is one. -/
def decode? (bytes : List UInt8) : Option String :=
  ((pieces none bytes).mapM id).map String.ofList

/-- The character that stands for an ill-formed piece. -/
def replacement : Char := '\uFFFD'

/-- Reading with one replacement character for each ill-formed piece. -/
def mend (bytes : List UInt8) : String :=
  String.ofList ((pieces none bytes).map (·.getD replacement))

/-- The bytes of a text. -/
def encode (s : String) : List UInt8 :=
  s.toList.flatMap String.utf8EncodeChar

/-- Mending gives one character for each piece. -/
theorem length_mend (bytes : List UInt8) :
    (mend bytes).length = (pieces none bytes).length := by
  simp [mend]

end Utf8

end ShardConsole
