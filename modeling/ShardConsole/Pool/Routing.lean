/-!
# Routing

Which worker owns a metric name.

The name is hashed with fixed keys and the hash is taken modulo the number of
workers, so a name always has the same owner. The hash folds the bytes of the name
into a 64-bit buffer: each round multiplies two words, taken from the bytes and
masked by two keys, to 128 bits, folds the product to 64 bits and rotates it into
the buffer. Words are read with the least significant byte first.

## Main definitions

* `Routing.hash`: The hash of a name.
* `Routing.owner`: The worker that owns a name.
-/

namespace ShardConsole

namespace Routing

/-- The fixed keys. -/
structure Keys where
  pad : UInt64
  start : UInt64
  left : UInt64
  right : UInt64

/-- The keys of this program: the seeds, each masked by a constant. -/
def keys : Keys where
  pad := 0x243f6a8885a308d3 ^^^ 0x452821e638d01377
  start := 0x13198a2e03707344 ^^^ 0xbe5466cf34e90c6c
  left := 0xa4093822299f31d0 ^^^ 0xc0ac29b7c97c50dd
  right := 0x082efa98ec4e6c89 ^^^ 0x3f84d5b5b5470917

/-- The factor that spreads a word over the buffer. -/
def multiplier : UInt64 := 6364136223846793005

/-- The product of two words, its upper half folded onto its lower half. -/
def foldedProduct (a b : UInt64) : UInt64 :=
  let product := a.toNat * b.toNat
  UInt64.ofNat product ^^^ UInt64.ofNat (product / UInt64.size)

/-- A word turned to the left by less than 64 bits. -/
def rotate (x : UInt64) (bits : UInt64) : UInt64 :=
  if bits = 0 then x else (x <<< bits) ||| (x >>> (64 - bits))

/-- The word whose bytes are given, the least significant one first. -/
def wordOf (bytes : List UInt8) : UInt64 :=
  UInt64.ofNat (bytes.foldr (fun b n => b.toNat + 256 * n) 0)

/-- One round: two words are mixed into the buffer. -/
def mix (buffer a b : UInt64) : UInt64 :=
  rotate ((buffer + keys.pad) ^^^ foldedProduct (a ^^^ keys.left) (b ^^^ keys.right)) 23

/-- Mixes sixteen bytes at a time while more than sixteen remain. -/
def mixBlocks (buffer : UInt64) (bytes : List UInt8) : UInt64 :=
  if _h : 16 < bytes.length then
    mixBlocks (mix buffer (wordOf (bytes.take 8)) (wordOf ((bytes.drop 8).take 8)))
      (bytes.drop 16)
  else buffer
termination_by bytes.length
decreasing_by simp only [List.length_drop]; omega

/-- The last bytes. -/
def suffix (bytes : List UInt8) (n : Nat) : List UInt8 :=
  bytes.drop (bytes.length - n)

/-- Mixes all bytes; how they form words depends on their number, and words may
    overlap. The last sixteen bytes of a long name come first. -/
def mixBytes (buffer : UInt64) (bytes : List UInt8) : UInt64 :=
  let n := bytes.length
  if 16 < n then
    mixBlocks (mix buffer (wordOf ((suffix bytes 16).take 8)) (wordOf (suffix bytes 8))) bytes
  else if 8 < n then mix buffer (wordOf (bytes.take 8)) (wordOf (suffix bytes 8))
  else if 4 ≤ n then mix buffer (wordOf (bytes.take 4)) (wordOf (suffix bytes 4))
  else if 2 ≤ n then mix buffer (wordOf (bytes.take 2)) (wordOf (suffix bytes 1))
  else mix buffer (wordOf bytes) (wordOf bytes)

/-- The hash of a name. -/
def hash (name : String) : UInt64 :=
  let bytes := name.toUTF8.toList
  let buffer := mixBytes ((keys.start + UInt64.ofNat bytes.length) * multiplier) bytes
  let buffer := foldedProduct (0xff ^^^ buffer) multiplier
  rotate (foldedProduct buffer keys.pad) (buffer % 64)

/-- The worker that owns a name among a number of workers. -/
def owner (name : String) (workers : Nat) : Nat :=
  (hash name).toNat % workers

end Routing

end ShardConsole
