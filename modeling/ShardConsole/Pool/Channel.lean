/-!
# Bounded Channels

A queue of texts between many senders and one receiver.

Texts leave in the order in which they came, and none is lost while the receiver
listens. A channel has room for a fixed number of texts. It is closed once every
sender has let go of it and every text has been taken.

Senders are told apart by who holds them, and nobody holds two senders of one
channel.

## Main definitions

* `Sender`: A sender, by who holds it.
* `Channel`: A bounded queue with its senders.
* `Channel.create?`: A channel with the sender of its closer, if its capacity is
  allowed.
* `Channel.isClosed`: Nothing is left and nothing can come.
-/

namespace ShardConsole

/-- A sender, by who holds it. -/
inductive Sender
  /-- The one that is let go of when everything has been waited for. -/
  | closer
  /-- The one that the work has with it, from which those of the hand-offs come. -/
  | work
  /-- The one of a worker's hand-off. -/
  | handoff (worker : Nat)
deriving DecidableEq

/-- A bounded queue with its senders. -/
structure Channel where
  capacity : Nat
  /-- The texts that wait, the oldest first. -/
  parts : List String
  senders : List Sender
  /-- Whether the receiver is still there. -/
  listening : Bool
deriving DecidableEq

namespace Channel

/-- The greatest capacity that a channel can have: an eighth of the greatest number of
    64 bits. -/
def maxCapacity : Nat :=
  (UInt64.size - 1) / 8

/-- A channel with the sender of its closer. A capacity of zero, or one that is too
    great, is not allowed. -/
def create? (capacity : Nat) : Option Channel :=
  if 1 ≤ capacity ∧ capacity ≤ maxCapacity then some ⟨capacity, [], [.closer], true⟩ else none

/-- Whether one more text fits. -/
def hasRoom (ch : Channel) : Bool :=
  ch.parts.length < ch.capacity

/-- Adds a text at the end. -/
def push (ch : Channel) (part : String) : Channel :=
  { ch with parts := ch.parts ++ [part] }

/-- Whether nothing is left and nothing can come. -/
def isClosed (ch : Channel) : Bool :=
  ch.senders.isEmpty && ch.parts.isEmpty

/-- There is one more sender. -/
def attach (ch : Channel) (sender : Sender) : Channel :=
  { ch with senders := sender :: ch.senders }

/-- A sender lets go of the channel. -/
def release (ch : Channel) (sender : Sender) : Channel :=
  { ch with senders := ch.senders.erase sender }

/-- The receiver goes away, and what it has not taken is lost. -/
def hangUp (ch : Channel) : Channel :=
  { ch with parts := [], listening := false }

end Channel

end ShardConsole
