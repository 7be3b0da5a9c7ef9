import ShardConsole.Console.Request
import ShardConsole.Console.Step

/-!
# Settling

Letting a console run until nothing more can happen.

The order in which possible steps are taken is free. Here the *agents* of a console,
its workers, closers, callers and sessions, act one after the other. An agent acts
until it is stuck; the agents for which its steps have made a difference are *woken*
and wait for their turn, in the order of being woken. When nobody waits any more,
whoever can still act is woken, so that at the end nobody can.

Time stands still while a console settles. When time passes, the sessions whose idle
limit ends meanwhile give up one after the other at their deadlines.

## Main definitions

* `Console.Agent`: Who can act.
* `Console.moves`: The steps that an agent may take, the preferred ones first.
* `Console.wakes`: Who is woken by a step.
* `Console.settle`: Runs until nothing more can happen.
* `Console.elapse`: Lets time pass.
-/

namespace ShardConsole

namespace Console

open Pool (WorkerId CallId)

/-- Who can act. -/
inductive Agent
  | worker (w : WorkerId)
  | closer (call : CallId)
  /-- The caller of a call that is not a session. -/
  | caller (call : CallId)
  | session (s : SessionId)
deriving DecidableEq

/-- The steps that a caller may take. -/
def callerMoves (call : CallId) : List Step :=
  [.pool (.submit call), .pool (.receive call), .pool (.conclude call), .pool (.desist call)]

/-- The steps that a session may take. It writes and reads as much as it can at
    once. -/
def seatMoves (s : SessionId) (seat : Seat) : List Step :=
  match seat.call, seat.session.stage with
  | some call, _ => callerMoves call ++ [.resume s]
  | none, .ready => [.session s .begin]
  | none, .prompting => [.session s .prompt]
  | none, .writing rest _ => [.session s (.write rest.length), .session s .failWrite]
  | none, .awaiting _ =>
    [.session s .take, .session s (.read seat.session.inbox.length), .session s .leave,
      .session s .expire]
  | none, .executing _ => [.execute s]
  | none, .ended _ => []
  | none, .broken => []

/-- The steps that an agent may take, the preferred ones first. -/
def moves (c : Console) : Agent → List Step
  | .worker w =>
    [.pool (.dropWork w), .pool (.handOver w), .pool (.forgo w), .pool (.finish w),
      .pool (.signal w), .pool (.take w)]
  | .closer call => [.pool (.letGo call)]
  | .caller call => callerMoves call
  | .session s =>
    match c.seats[s]? with
    | some seat => seatMoves s seat
    | none => []

/-- The first step that an agent can take, and the console after it. -/
def act? (c : Console) (a : Agent) : Option (Step × Console) :=
  (c.moves a).findSome? fun step => (c.step? step).map fun after => (step, after)

/-- The agent that has made a call. -/
def callerOf (c : Console) (call : CallId) : Agent :=
  match c.seats.findIdx? (·.call == some call) with
  | some s => .session s
  | none => .caller call

/-- The agent that waits for the tickets of a call: the closer of a listing, or else
    the caller. -/
def ticketHolder (c : Console) (call : CallId) : Agent :=
  if (c.pool.calls[call]?.bind Pool.Call.intake?).isSome then .closer call else c.callerOf call

/-- What a worker is about to hand over, and for which call. -/
def handing? (c : Console) (w : WorkerId) : Option (CallId × Pool.Handoff) :=
  match c.pool.workers[w]?.map Pool.Worker.activity with
  | some (.handing call handoff) => some (call, handoff)
  | _ => none

/-- Whether a worker hands over a part for a call. -/
def handsPart (c : Console) (call : CallId) (w : WorkerId) : Bool :=
  match c.handing? w with
  | some (other, .part _) => other == call
  | _ => false

/-- The workers that hand over a part for a call. -/
def partHolders (c : Console) (call : CallId) : List WorkerId :=
  (List.range c.pool.size).filter (c.handsPart call)

/-- The workers that are held up by the gate that a name stands for. -/
def heldBy (c : Console) (name : String) : List WorkerId :=
  (List.range c.pool.size).filter fun w =>
    match c.handing? w with
    | some (_, .gate gate) => gate == c.pool.gate name
    | _ => false

/-- Who is woken by a submission. -/
def wokenBySubmit (c : Console) (call : CallId) : List Agent :=
  match c.pool.calls[call]?.map Pool.Call.phase with
  | some (.submitting next) =>
    if next < c.pool.size then [.worker next] else [c.ticketHolder call]
  | _ => []

/-- Who is woken when a worker has taken a message: if the worker died of it, those
    who wait for the tickets that it owed. -/
def wokenByTake (c after : Console) (w : WorkerId) : List Agent :=
  match c.pool.workers[w]?, after.pool.workers[w]? with
  | some before, some worker =>
    if worker.isAlive then [] else (Pool.callsOf before.queue).map c.ticketHolder
  | _, _ => []

/-- Who is woken when a worker hands something over, or drops it: the caller, if it was
    a part. -/
def wokenByHandOver (c : Console) (w : WorkerId) : List Agent :=
  match c.handing? w with
  | some (call, .part _) => [c.callerOf call]
  | _ => []

/-- Who is woken by the completion signal of a worker. -/
def wokenBySignal (c : Console) (w : WorkerId) : List Agent :=
  match c.pool.workers[w]?.map Pool.Worker.activity with
  | some (.signalling call) => [c.ticketHolder call]
  | _ => []

/-- Who is woken by a step of the pool. -/
def wokenByPool (c after : Console) : Pool.Step → List Agent
  | .submit call => c.wokenBySubmit call
  | .take w => c.wokenByTake after w
  | .dropWork _ | .finish _ => []
  | .handOver w | .forgo w => c.wokenByHandOver w
  | .signal w => c.wokenBySignal w
  | .letGo call => [c.callerOf call]
  | .receive call => ((c.partHolders call).map .worker).take 1
  | .conclude call | .desist call => (c.partHolders call).map .worker

/-- Who is woken by a step. -/
def wakes (c after : Console) : Step → List Agent
  | .pool step => c.wokenByPool after step
  | _ => []

/-- Every agent of a console. -/
def agents (c : Console) : List Agent :=
  (List.range c.pool.size).map .worker ++
    (List.range c.pool.calls.size).flatMap (fun call => [.closer call, .caller call]) ++
    (List.range c.seats.size).map .session

/-- An agent that can act, if there is one. -/
def restless? (c : Console) : Option Agent :=
  c.agents.find? fun a => (c.act? a).isSome

/-- Lets the agents in a queue act in turn, and those that they wake. -/
def settleFor : Nat → List Agent → Console → Console
  | 0, _, c => c
  | fuel + 1, [], c =>
    match c.restless? with
    | some a => settleFor fuel [a] c
    | none => c
  | fuel + 1, a :: queue, c =>
    match c.act? a with
    | none => settleFor fuel queue c
    | some (step, after) =>
      let woken := (c.wakes after step).filter fun b => b ≠ a ∧ b ∉ queue
      settleFor fuel (a :: (queue ++ woken)) after

/-- A number of turns that is large enough for a console to settle. A call takes a
    few turns for every worker, and a line of input takes a few turns and makes at most
    one call. -/
def patience (c : Console) : Nat :=
  let lines := c.seats.foldl
    (fun n seat => n + seat.session.inbox.length + seat.session.framer.buffer.length + 2) 0
  let messages := c.pool.workers.foldl (fun n w => n + w.queue.length) 0
  2 * ((c.pool.calls.size + lines) * (20 * (c.pool.size + 2)) + messages + c.agents.length)

/-- Runs until nothing more can happen, beginning with some agents. -/
def settle (c : Console) (first : List Agent) : Console :=
  settleFor (c.patience + first.length) first c

/-- The first deadline of a session up to some time, if there is one. -/
def nextDeadline? (c : Console) (limit : Nat) : Option Nat :=
  ((c.seats.toList.filterMap fun seat => seat.session.deadline?).filter (· ≤ limit)).min?

/-- Lets time pass until some moment, stopping at no more than so many deadlines. -/
def elapseTo (target : Nat) : Nat → Console → Console
  | 0, c => { c with now := target }.settle []
  | stops + 1, c =>
    match c.nextDeadline? target with
    | none => { c with now := target }
    | some deadline => elapseTo target stops ({ c with now := max c.now deadline }.settle [])

/-- Lets some milliseconds pass. Every session has at most one deadline on the way,
    since a session whose limit has passed is over. -/
def elapse (c : Console) (ms : Nat) : Console :=
  elapseTo (c.now + ms) c.seats.size c

end Console

end ShardConsole
