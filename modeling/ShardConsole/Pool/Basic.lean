import ShardConsole.Console.Error
import ShardConsole.Pool.Channel
import ShardConsole.Pool.Work

/-!
# Worker Pools

The state of a pool of workers and of the calls that are made on it.

Each worker owns a shard and handles the messages of its queue one after the other.
A call broadcasts one piece of work: it is put on the queues of workers 0, 1, 2 and
so on, and each worker owes the call a completion signal for it, its *ticket*. A
ticket is lost when its worker dies.

The work is shared: the call holds it while it submits, and so does every worker that
has been given it, until it has run it. When the last of these holders lets go, the
work is gone with everything it had with it.

A call that lists metrics has an *intake*: the channel through which the workers
hand over their parts, and what the caller has taken from it. The work has a sender of
the channel with it, and every hand-off gets one of its own from there. One more sender
is the *closer*'s, which lets go of it only when every ticket has been resolved.

## Main definitions

* `Worker`: A shard, a queue and what the worker is doing.
* `Worker.owed`: The calls that a worker owes a ticket.
* `Call`: A broadcast and what its caller has got so far.
* `Pool`: The workers, the calls and the gates that have been opened.
* `Call.wait?`: The result of waiting for all tickets.
* `Pool.gate`, `Pool.isOpen`: The gate that a name stands for, and whether it is open.
-/

namespace ShardConsole

namespace Pool

/-- Calls are numbered in the order in which they are made. -/
abbrev CallId := Nat

/-- What is put on the queue of a worker. -/
inductive Message
  | metric (m : Metric)
  /-- The work of a call. -/
  | work (call : CallId) (work : Work)

/-- The call whose work a message is, if it is one. -/
def Message.call? : Message → Option CallId
  | .metric _ => none
  | .work c _ => some c

/-- The calls whose work is among some messages. -/
def callsOf (messages : List Message) : List CallId :=
  messages.filterMap Message.call?

@[simp] theorem callsOf_nil : callsOf [] = [] := rfl

@[simp] theorem callsOf_metric_cons (m : Metric) (messages : List Message) :
    callsOf (.metric m :: messages) = callsOf messages := rfl

@[simp] theorem callsOf_work_cons (c : CallId) (work : Work) (messages : List Message) :
    callsOf (.work c work :: messages) = c :: callsOf messages := rfl

@[simp] theorem callsOf_append (first last : List Message) :
    callsOf (first ++ last) = callsOf first ++ callsOf last :=
  List.filterMap_append

/-- What a worker is doing. -/
inductive Activity
  | idle
  /-- It has run the work of a call and still holds it. -/
  | holding (call : CallId) (handoff : Handoff)
  /-- It is in the hand-off phase of the work of a call. -/
  | handing (call : CallId) (handoff : Handoff)
  /-- Its hand-off is over, and it is about to give the call its completion signal. -/
  | signalling (call : CallId)
  | dead
deriving DecidableEq

/-- The call for which a worker is doing something, if there is one. -/
def Activity.call? : Activity → Option CallId
  | .idle | .dead => none
  | .holding c _ | .handing c _ | .signalling c => some c

/-- One worker. -/
structure Worker where
  shard : Shard
  /-- The messages that wait, the oldest first. -/
  queue : List Message
  activity : Activity

/-- The worker that has not been given anything. -/
def Worker.start : Worker :=
  ⟨Shard.empty, [], .idle⟩

/-- Whether a worker is not dead. -/
def Worker.isAlive (w : Worker) : Bool :=
  w.activity ≠ .dead

/-- The calls that a worker owes a ticket, in the order in which they get it. -/
def Worker.owed (w : Worker) : List CallId :=
  w.activity.call?.toList ++ callsOf w.queue

/-- Where the completion signal that a worker owes a call stands. -/
inductive Ticket
  | pending
  | done
  | lost
deriving DecidableEq

/-- Who holds the work of a call. -/
inductive Holder
  /-- The call itself, while it submits. -/
  | caller
  /-- A worker that has been given the work. -/
  | worker (w : WorkerId)
deriving DecidableEq

/-- The task that closes an intake: it begins when the work has been submitted and
    ends when every ticket has been resolved. -/
inductive Closer
  | absent
  | waiting
  | ended
deriving DecidableEq

/-- Where the parts of a listing come in. -/
structure Intake where
  channel : Channel
  /-- The parts that have been taken, one after the other. -/
  output : String
  closer : Closer
deriving DecidableEq

/-- What a caller wants of its broadcast. -/
inductive Purpose
  /-- The parts of a listing. -/
  | listing (intake : Intake)
  /-- The number of names removed. -/
  | count
  /-- To know that it is done; this wait cannot be cancelled. -/
  | completion

/-- What a call gives back. -/
inductive Reply
  | listing (text : String)
  | removed (count : Nat)
  | completed
deriving DecidableEq

/-- How far a call is. -/
inductive Phase
  /-- The work is being put on the queues; the next one is that of the given worker. -/
  | submitting (next : WorkerId)
  /-- A dead worker was met while the work was being put on the queues. -/
  | refused (cause : Unavailable)
  | waiting
  | returned (result : Except Unavailable Reply)
  /-- The caller has abandoned the call. -/
  | dropped

/-- Whether the caller waits for the workers. -/
def Phase.isWaiting : Phase → Bool
  | .waiting => true
  | _ => false

/-- A broadcast and what its caller has got so far. -/
structure Call where
  work : Work
  purpose : Purpose
  cancelled : Bool
  phase : Phase
  holders : List Holder
  /-- The tickets of the workers that have been given the work, in their order. -/
  tickets : Array Ticket
  /-- The reports of the workers that have run the work, in the order of running. -/
  reports : List (WorkerId × Report)

namespace Call

/-- Changes the intake, if there is one. -/
def mapIntake (c : Call) (change : Intake → Intake) : Call :=
  match c.purpose with
  | .listing intake => { c with purpose := .listing (change intake) }
  | _ => c

/-- Changes the channel, if there is one. -/
def mapChannel (c : Call) (change : Channel → Channel) : Call :=
  c.mapIntake fun intake => { intake with channel := change intake.channel }

/-- The intake, if there is one. -/
def intake? (c : Call) : Option Intake :=
  match c.purpose with
  | .listing intake => some intake
  | _ => none

/-- Whether every ticket has been resolved. -/
def isResolved (c : Call) : Bool :=
  c.tickets.all (· ≠ .pending)

/-- The worker with the lowest number that died before it was done, if there is one. -/
def firstLost? (c : Call) : Option WorkerId :=
  c.tickets.findIdx? (· = .lost)

/-- The result of waiting for all tickets, once they are resolved. -/
def wait? (c : Call) : Option (Except Unavailable Unit) :=
  if c.isResolved then
    match c.firstLost? with
    | some w => some (.error ⟨w⟩)
    | none => some (.ok ())
  else none

/-- The number of names that the workers have reported as removed. -/
def removed (c : Call) : Nat :=
  c.reports.foldl (fun count r => count + r.2.removed) 0

/-- Resolves the ticket of a worker. -/
def resolve (c : Call) (w : WorkerId) (t : Ticket) : Call :=
  { c with tickets := c.tickets.setIfInBounds w t }

/-- Somebody lets go of the work. When nobody holds it any more it is gone, and with it
    the sender that it had. -/
def dropWork (c : Call) (holder : Holder) : Call :=
  let left := c.holders.erase holder
  { c with holders := left }.mapChannel fun ch =>
    if left.isEmpty then ch.release .work else ch

/-- Ends a call; its receiver goes away with it. -/
def finishWith (c : Call) (phase : Phase) : Call :=
  { c with phase := phase }.mapChannel Channel.hangUp

/-- The call after its work has been put on the queue of a worker. -/
def give (c : Call) (w : WorkerId) : Call :=
  { c with
    phase := .submitting (w + 1)
    holders := .worker w :: c.holders
    tickets := c.tickets.push .pending }

/-- The call after it has met a dead worker: it lets go of everything. -/
def refuse (c : Call) (w : WorkerId) : Call :=
  ((c.finishWith (.refused ⟨w⟩)).dropWork .caller).mapChannel (·.release .closer)

/-- The call after its work has been put on all queues: it lets go of the work, and the
    closer begins. -/
def await (c : Call) : Call :=
  ({ c with phase := .waiting }.dropWork .caller).mapIntake fun intake =>
    { intake with closer := .waiting }

/-- The call after a worker has run its work, whose hand-off then has a sender. -/
def noteRun (c : Call) (w : WorkerId) (report : Report) : Call :=
  { c with reports := c.reports ++ [(w, report)] }.mapChannel (·.attach (.handoff w))

/-- The call after a worker has died that owed it a ticket. -/
def lose (c : Call) (w : WorkerId) : Call :=
  (c.resolve w .lost).dropWork (.worker w)

section Fields

variable (c : Call) (change : Intake → Intake) (holder : Holder)

@[simp] theorem work_mapIntake : (c.mapIntake change).work = c.work := by
  unfold mapIntake
  split <;> rfl

@[simp] theorem cancelled_mapIntake : (c.mapIntake change).cancelled = c.cancelled := by
  unfold mapIntake
  split <;> rfl

@[simp] theorem phase_mapIntake : (c.mapIntake change).phase = c.phase := by
  unfold mapIntake
  split <;> rfl

@[simp] theorem holders_mapIntake : (c.mapIntake change).holders = c.holders := by
  unfold mapIntake
  split <;> rfl

@[simp] theorem tickets_mapIntake : (c.mapIntake change).tickets = c.tickets := by
  unfold mapIntake
  split <;> rfl

@[simp] theorem reports_mapIntake : (c.mapIntake change).reports = c.reports := by
  unfold mapIntake
  split <;> rfl

@[simp] theorem intake?_mapIntake : (c.mapIntake change).intake? = c.intake?.map change := by
  rcases c with ⟨_, purpose, _, _, _, _, _⟩
  cases purpose <;> rfl

@[simp] theorem work_dropWork : (c.dropWork holder).work = c.work := by
  simp only [dropWork, mapChannel, work_mapIntake]

@[simp] theorem cancelled_dropWork : (c.dropWork holder).cancelled = c.cancelled := by
  simp only [dropWork, mapChannel, cancelled_mapIntake]

@[simp] theorem phase_dropWork : (c.dropWork holder).phase = c.phase := by
  simp only [dropWork, mapChannel, phase_mapIntake]

@[simp] theorem tickets_dropWork : (c.dropWork holder).tickets = c.tickets := by
  simp only [dropWork, mapChannel, tickets_mapIntake]

@[simp] theorem reports_dropWork : (c.dropWork holder).reports = c.reports := by
  simp only [dropWork, mapChannel, reports_mapIntake]

end Fields

end Call

end Pool

/-- The workers, the calls that have been made and the names of the gates that have
    been opened, once for each time. -/
structure Pool where
  workers : Array Pool.Worker
  calls : Array Pool.Call
  opened : List String

namespace Pool

/-- A pool of workers that have not been given anything; there is at least one. -/
def start (workers : Nat) : Pool :=
  ⟨Array.replicate (max workers 1) Worker.start, #[], []⟩

/-- The number of workers. -/
def size (p : Pool) : Nat :=
  p.workers.size

/-- The gate that a name stands for now: one that is closed until the name is opened
    again. -/
def gate (p : Pool) (name : String) : Gate :=
  ⟨name, p.opened.count name⟩

/-- Whether a gate has been opened since its name came to stand for it. -/
def isOpen (p : Pool) (gate : Gate) : Bool :=
  gate.turn < p.opened.count gate.name

/-- Changes one worker. -/
def modifyWorker (p : Pool) (w : WorkerId) (change : Worker → Worker) : Pool :=
  { p with workers := p.workers.modify w change }

/-- Changes one call. -/
def modifyCall (p : Pool) (c : CallId) (change : Call → Call) : Pool :=
  { p with calls := p.calls.modify c change }

/-- Puts a message on the queue of a worker. -/
def enqueue (p : Pool) (w : WorkerId) (m : Message) : Pool :=
  p.modifyWorker w fun worker => { worker with queue := worker.queue ++ [m] }

/-- Changes what a worker is doing. -/
def setActivity (p : Pool) (w : WorkerId) (activity : Activity) : Pool :=
  p.modifyWorker w fun worker => { worker with activity := activity }

section Fields

variable (p : Pool) (w : WorkerId) (c : CallId)

@[simp] theorem calls_modifyWorker (change : Worker → Worker) :
    (p.modifyWorker w change).calls = p.calls := rfl

@[simp] theorem opened_modifyWorker (change : Worker → Worker) :
    (p.modifyWorker w change).opened = p.opened := rfl

@[simp] theorem workers_modifyCall (change : Call → Call) :
    (p.modifyCall c change).workers = p.workers := rfl

@[simp] theorem opened_modifyCall (change : Call → Call) :
    (p.modifyCall c change).opened = p.opened := rfl

@[simp] theorem size_modifyWorker (change : Worker → Worker) :
    (p.modifyWorker w change).size = p.size := by
  simp only [size, modifyWorker, Array.size_modify]

@[simp] theorem size_modifyCall (change : Call → Call) :
    (p.modifyCall c change).size = p.size := rfl

/-- Only the worker that is changed is another one afterwards. -/
theorem getElem?_modifyWorker (change : Worker → Worker) (other : WorkerId) :
    (p.modifyWorker w change).workers[other]? =
      if w = other then p.workers[other]?.map change else p.workers[other]? := by
  rw [modifyWorker, Array.getElem?_modify]

/-- Only the call that is changed is another one afterwards. -/
theorem getElem?_modifyCall (change : Call → Call) (other : CallId) :
    (p.modifyCall c change).calls[other]? =
      if c = other then p.calls[other]?.map change else p.calls[other]? := by
  rw [modifyCall, Array.getElem?_modify]

end Fields

end Pool

end ShardConsole
