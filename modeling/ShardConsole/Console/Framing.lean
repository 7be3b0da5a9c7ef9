import ShardConsole.Text.Utf8

/-!
# Framing

Cutting a stream of bytes into lines.

Bytes are added as they arrive. A line ends at a newline, which does not belong to
it; when the input ends, what is left over is a last line unless it is empty. A line
may have only so many bytes, and as soon as more of them have come without a newline
the line is overlong. What has been searched in vain is not searched again.

A line is turned into text by dropping one carriage return at its end and mending
what is not well formed.

## Main definitions

* `Framer`: The bytes that are not yet cut.
* `Framer.next`: The next line, as far as it is known.
* `Framer.finish`: The next line when nothing more will come.
* `Framer.text`: The text of a line.
-/

namespace ShardConsole

/-- The bytes that are not yet cut into lines. -/
structure Framer where
  /-- The greatest number of bytes of a line. -/
  maxLength : Nat
  buffer : List UInt8
  /-- How many of the bytes are known to be no newline. -/
  scanned : Nat
deriving DecidableEq

namespace Framer

/-- The byte that ends a line. -/
def newline : UInt8 := 10

/-- The byte that may stand at the end of a line without being part of its text. -/
def carriageReturn : UInt8 := 13

/-- Before any byte has come. -/
def start (maxLength : Nat) : Framer :=
  ⟨maxLength, [], 0⟩

/-- Adds bytes that have arrived. -/
def add (f : Framer) (bytes : List UInt8) : Framer :=
  { f with buffer := f.buffer ++ bytes }

/-- What is known of the next line. -/
inductive Progress
  /-- It is complete, and the bytes after it are left. -/
  | line (bytes : List UInt8) (rest : Framer)
  /-- It has too many bytes. -/
  | overlong
  /-- Its end has not come yet. -/
  | unfinished (searched : Framer)
  /-- There is no line, and none will come. -/
  | exhausted
deriving DecidableEq

/-- What is known of the next line. The newline is looked for among the bytes that a
    line may have and the one after them. -/
def next (f : Framer) : Progress :=
  let window := f.buffer.take (f.maxLength + 1)
  match (window.drop f.scanned).findIdx? (· = newline) with
  | some i =>
    let length := f.scanned + i
    .line (f.buffer.take length) { f with buffer := f.buffer.drop (length + 1), scanned := 0 }
  | none =>
    if f.maxLength < f.buffer.length then .overlong
    else .unfinished { f with scanned := window.length }

/-- What is known of the next line when nothing more will come. -/
def finish (f : Framer) : Progress :=
  match f.next with
  | .unfinished f =>
    if f.buffer.isEmpty then .exhausted
    else .line f.buffer { f with buffer := [], scanned := 0 }
  | progress => progress

/-- The text of a line. -/
def text (line : List UInt8) : String :=
  Utf8.mend (if line.getLast? = some carriageReturn then line.dropLast else line)

end Framer

end ShardConsole
