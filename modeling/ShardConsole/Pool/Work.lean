import ShardConsole.Shard.Basic

/-!
# Work

What can be broadcast to all workers: a function that each worker applies to its own
shard.

The function has the shard to itself while it runs. It leaves a report for the
caller and a hand-off phase, which may not touch the shard any more; the worker
takes its next message only when the hand-off is over. The function may also fail,
and then the worker dies of it.

## Main definitions

* `Work`: A function from a worker and its shard to an outcome.
* `Work.list`, `Work.delete`: The work of the console's commands.
* `Work.inspect`, `Work.hold`, `Work.crash`: Work to look at workers, to hold them
  up and to make one fail.
-/

namespace ShardConsole

namespace Pool

/-- Workers are numbered from zero. -/
abbrev WorkerId := Nat

/-- Gates hold workers up until they are opened. A name can be used again: it then
    stands for another gate, which is as yet closed. -/
structure Gate where
  name : String
  /-- How many gates of this name had been opened before. -/
  turn : Nat
deriving DecidableEq

/-- What is seen of one shard. -/
structure View where
  /-- The number of distinct names of the kind that is looked at. -/
  size : Nat
  /-- Whether there are no metrics of any kind. -/
  isEmpty : Bool
  /-- The listing of the kind. -/
  text : String
deriving DecidableEq

/-- What an invocation reports to the caller. -/
structure Report where
  /-- The number of names that were removed. -/
  removed : Nat
  view : Option View
deriving DecidableEq

/-- The report of work that neither removes nor looks. -/
def Report.nothing : Report :=
  ⟨0, none⟩

/-- What a worker waits for before it takes its next message. -/
inductive Handoff
  /-- There is nothing to wait for. -/
  | done
  /-- A part of a listing is to be put into the caller's channel. -/
  | part (text : String)
  /-- A gate has to be open. -/
  | gate (gate : Gate)
deriving DecidableEq

/-- What an invocation leads to. -/
inductive Outcome
  /-- The worker dies. -/
  | failed
  | ran (shard : Shard) (report : Report) (handoff : Handoff)

/-- What each worker applies to its own shard. -/
structure Work where
  invoke : WorkerId → Shard → Outcome

namespace Work

/-- Hands over the listing of a kind, unless it is empty. -/
def list (kind : Kind) : Work where
  invoke _ shard :=
    let text := shard.text kind
    .ran shard Report.nothing (if text.isEmpty then .done else .part text)

/-- Deletes names and reports how many of them were there. -/
def delete (kind : Kind) (names : List String) : Work where
  invoke _ shard :=
    let (shard, removed) := shard.deleteAll kind names
    .ran shard ⟨removed, none⟩ .done

/-- Reports what is seen of the shard. -/
def inspect (kind : Kind) : Work where
  invoke _ shard :=
    .ran shard ⟨0, some ⟨shard.size kind, shard.isEmpty, shard.text kind⟩⟩ .done

/-- Holds up some workers, or all, until a gate is open. -/
def hold (gate : Gate) (only : Option (List WorkerId)) : Work where
  invoke worker shard :=
    let isHeld := match only with
      | none => true
      | some workers => workers.contains worker
    .ran shard Report.nothing (if isHeld then .gate gate else .done)

/-- Makes one worker fail. -/
def crash (victim : WorkerId) : Work where
  invoke worker shard :=
    if worker = victim then .failed else .ran shard Report.nothing .done

end Work

end Pool

end ShardConsole
