import ShardConsole.Pool.Basic
import ShardConsole.Pool.Routing

/-!
# Requests to a Pool

What can be done to a pool from outside: metrics are dispatched, calls are made,
cancelled and abandoned, and gates are opened.

A metric goes to the worker that owns its name, or to a worker of choice. Making a
call only records it; putting its work on the queues is the first thing that the
call then does by itself.

## Main definitions

* `dispatchTo`, `dispatch`: Put a metric on a queue.
* `beginList?`, `beginDelete`, `beginWork`: Make a call.
* `cancel`, `drop`: Cancel or abandon a call.
* `openGate`: Let held workers go on.
* `result?`, `refusal?`, `views`: What has become of a call.
-/

namespace ShardConsole

namespace Pool

/-- Puts a metric on the queue of a worker, unless the worker is missing or dead. -/
def dispatchTo (p : Pool) (w : WorkerId) (m : Metric) : Except Unavailable Pool :=
  match p.workers[w]? with
  | some worker => if worker.isAlive then .ok (p.enqueue w (.metric m)) else .error ⟨w⟩
  | none => .error ⟨w⟩

/-- Puts a metric on the queue of the worker that owns its name. -/
def dispatch (p : Pool) (m : Metric) : Except Unavailable Pool :=
  p.dispatchTo (Routing.owner m.name p.size) m

/-- A call that has not submitted anything yet. -/
def Call.start (work : Work) (purpose : Purpose) (cancelled : Bool) : Call :=
  ⟨work, purpose, cancelled, .submitting 0, [.caller], #[], []⟩

/-- Makes a call. -/
def begin (p : Pool) (call : Call) : Pool × CallId :=
  ({ p with calls := p.calls.push call }, p.calls.size)

/-- An intake before anything has come in; the work has a sender of its channel. -/
def Intake.start (channel : Channel) : Intake :=
  ⟨channel.attach .work, "", .absent⟩

/-- Makes a call that lists a kind, with a channel of at least one place. With a capacity
    that no channel can have, nothing is made. -/
def beginList? (p : Pool) (capacity : Nat) (kind : Kind) (cancelled : Bool) :
    Option (Pool × CallId) :=
  (Channel.create? (max capacity 1)).map fun channel =>
    p.begin (Call.start (Work.list kind) (.listing (Intake.start channel)) cancelled)

/-- Makes a call that deletes names of a kind and counts them. -/
def beginDelete (p : Pool) (kind : Kind) (names : List String) (cancelled : Bool) :
    Pool × CallId :=
  p.begin (Call.start (Work.delete kind names) .count cancelled)

/-- Makes a call that only waits for its work to be done. -/
def beginWork (p : Pool) (work : Work) : Pool × CallId :=
  p.begin (Call.start work .completion false)

/-- Cancels a call. -/
def cancel (p : Pool) (c : CallId) : Pool :=
  p.modifyCall c fun call => { call with cancelled := true }

/-- Abandons a call whose caller waits. -/
def drop (p : Pool) (c : CallId) : Pool :=
  p.modifyCall c fun call =>
    if call.phase.isWaiting then call.finishWith .dropped else call

/-- Opens the gate that a name stands for, which stays open; from now on the name stands
    for another one. -/
def openGate (p : Pool) (name : String) : Pool :=
  { p with opened := name :: p.opened }

/-- The gate that a name stands for is closed. -/
theorem isOpen_gate (p : Pool) (name : String) : p.isOpen (p.gate name) = false := by
  simp [isOpen, gate]

/-- Opening opens the gate that the name stood for. -/
theorem isOpen_openGate (p : Pool) (name : String) :
    (p.openGate name).isOpen (p.gate name) = true := by
  simp [isOpen, gate, openGate]

/-- The result of a call that has returned or was refused. -/
def result? (p : Pool) (c : CallId) : Option (Except Unavailable Reply) :=
  match p.calls[c]?.map Call.phase with
  | some (.returned result) => some result
  | some (.refused cause) => some (.error cause)
  | _ => none

/-- Why the work of a call could not be put on all queues, if it could not. -/
def refusal? (p : Pool) (c : CallId) : Option Unavailable :=
  match p.calls[c]?.map Call.phase with
  | some (.refused cause) => some cause
  | _ => none

/-- What the workers that have run the work of a call saw of their shards, in the order
    of the workers. -/
def views (p : Pool) (c : CallId) : List (WorkerId × View) :=
  match p.calls[c]? with
  | some call =>
    (call.reports.filterMap fun (w, report) => report.view.map fun view => (w, view)).mergeSort
      fun a b => a.1 ≤ b.1
  | none => []

end Pool

end ShardConsole
