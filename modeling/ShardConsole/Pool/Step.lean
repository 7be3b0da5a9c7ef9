import ShardConsole.Pool.Basic

/-!
# Steps of a Pool

What can happen next in a pool by itself, one indivisible action at a time.

A step is named by who acts and how. It may or may not be possible in a state; if it
is, it has one result. All interleavings of the workers, the callers and the closers
are the sequences of possible steps.

## Main definitions

* `Step`: Who acts and how.
* `step?`: The state after a step, if the step is possible.
-/

namespace ShardConsole

namespace Pool

/-- An action of a worker, a caller or a closer. -/
inductive Step
  /-- A caller puts its work on the next queue, or goes on to wait. -/
  | submit (c : CallId)
  /-- An idle worker takes its next message and handles it. -/
  | take (w : WorkerId)
  /-- A worker lets go of the work that it has run. -/
  | dropWork (w : WorkerId)
  /-- A worker hands over what it has, or finds its gate open. -/
  | handOver (w : WorkerId)
  /-- A worker drops its part, because the call is cancelled. -/
  | forgo (w : WorkerId)
  /-- A worker ends its hand-off and lets go of the channel. -/
  | finish (w : WorkerId)
  /-- A worker gives its completion signal. -/
  | signal (w : WorkerId)
  /-- The closer of a call lets go of the channel. -/
  | letGo (c : CallId)
  /-- A caller takes a part. -/
  | receive (c : CallId)
  /-- A caller returns, because there is nothing more to wait for. -/
  | conclude (c : CallId)
  /-- A caller returns what it has got so far, because the call is cancelled. -/
  | desist (c : CallId)
deriving DecidableEq

/-- The state after a call has put its work on the queue of the next worker. A dead
    worker ends the call with an error; after the last worker the call waits. -/
def submit? (p : Pool) (c : CallId) : Option Pool := do
  let call ← p.calls[c]?
  match call.phase with
  | .submitting next =>
    match p.workers[next]? with
    | some worker =>
      if worker.isAlive then
        return (p.enqueue next (.work c call.work)).modifyCall c (·.give next)
      else return p.modifyCall c (·.refuse next)
    | none => return p.modifyCall c Call.await
  | _ => none

/-- The state after a worker has died: what was on its queue is lost. -/
def bury (p : Pool) (w : WorkerId) (lost : List Message) : Pool :=
  let p := p.modifyWorker w fun worker => { worker with queue := [], activity := .dead }
  { p with calls := p.calls.mapIdx fun c call =>
      if c ∈ callsOf lost then call.lose w else call }

/-- The state after an idle worker has handled its next message. -/
def take? (p : Pool) (w : WorkerId) : Option Pool := do
  let worker ← p.workers[w]?
  match worker.activity, worker.queue with
  | .idle, .metric m :: rest =>
    return p.modifyWorker w fun worker =>
      { worker with shard := worker.shard.receive m, queue := rest }
  | .idle, .work c work :: rest =>
    match work.invoke w worker.shard with
    | .failed => return p.bury w worker.queue
    | .ran shard report handoff =>
      return (p.modifyWorker w fun _ => ⟨shard, rest, .holding c handoff⟩).modifyCall c
        (·.noteRun w report)
  | _, _ => none

/-- The state after a worker has let go of the work that it has run. -/
def dropWork? (p : Pool) (w : WorkerId) : Option Pool := do
  let worker ← p.workers[w]?
  match worker.activity with
  | .holding c handoff =>
    return (p.setActivity w (.handing c handoff)).modifyCall c (·.dropWork (.worker w))
  | _ => none

/-- The state after a worker has handed over what it has. A part goes into the channel
    if there is room; if nobody listens any more it is dropped. -/
def handOver? (p : Pool) (w : WorkerId) : Option Pool := do
  let worker ← p.workers[w]?
  match worker.activity with
  | .handing c (.gate gate) =>
    if p.isOpen gate then some (p.setActivity w (.handing c .done)) else none
  | .handing c (.part text) =>
    let call ← p.calls[c]?
    match call.intake? with
    | none => return p.setActivity w (.handing c .done)
    | some intake =>
      if !intake.channel.listening then return p.setActivity w (.handing c .done)
      else if intake.channel.hasRoom then
        return (p.setActivity w (.handing c .done)).modifyCall c
          (·.mapChannel (·.push text))
      else none
  | _ => none

/-- The state after a worker has dropped the part of a cancelled call. -/
def forgo? (p : Pool) (w : WorkerId) : Option Pool := do
  let worker ← p.workers[w]?
  match worker.activity with
  | .handing c (.part _) =>
    let call ← p.calls[c]?
    if call.cancelled then some (p.setActivity w (.handing c .done)) else none
  | _ => none

/-- The state after a worker has ended its hand-off. -/
def finish? (p : Pool) (w : WorkerId) : Option Pool := do
  let worker ← p.workers[w]?
  match worker.activity with
  | .handing c .done =>
    return (p.setActivity w (.signalling c)).modifyCall c
      (·.mapChannel (·.release (.handoff w)))
  | _ => none

/-- The state after a worker has given its completion signal. -/
def signal? (p : Pool) (w : WorkerId) : Option Pool := do
  let worker ← p.workers[w]?
  match worker.activity with
  | .signalling c => return (p.setActivity w .idle).modifyCall c (·.resolve w .done)
  | _ => none

/-- The state after the closer of a call has let go of the channel. -/
def letGo? (p : Pool) (c : CallId) : Option Pool := do
  let call ← p.calls[c]?
  let intake ← call.intake?
  if intake.closer = .waiting ∧ call.isResolved then
    return p.modifyCall c fun call => call.mapIntake fun intake =>
      { intake with channel := intake.channel.release .closer, closer := .ended }
  else none

/-- The state after a caller has taken a part. -/
def receive? (p : Pool) (c : CallId) : Option Pool := do
  let call ← p.calls[c]?
  let intake ← call.intake?
  match call.phase, intake.channel.parts with
  | .waiting, part :: rest =>
    return p.modifyCall c fun call => call.mapIntake fun intake =>
      { intake with
        channel := { intake.channel with parts := rest }
        output := intake.output ++ part }
  | _, _ => none

/-- The result of a call that has nothing more to wait for. -/
def Call.conclusion? (call : Call) : Option (Except Unavailable Reply) :=
  match call.purpose with
  | .listing intake =>
    if intake.channel.isClosed then some (.ok (.listing intake.output)) else none
  | .count => call.wait?.map fun r => r.map fun _ => .removed call.removed
  | .completion => call.wait?.map fun r => r.map fun _ => .completed

/-- The state after a caller has returned with everything. -/
def conclude? (p : Pool) (c : CallId) : Option Pool := do
  let call ← p.calls[c]?
  if call.phase.isWaiting then
    let result ← call.conclusion?
    return p.modifyCall c fun call => call.finishWith (.returned result)
  else none

/-- What a caller has got so far, if its call can be cancelled. -/
def Call.soFar? (call : Call) : Option Reply :=
  match call.purpose with
  | .listing intake => some (.listing intake.output)
  | .count => some (.removed call.removed)
  | .completion => none

/-- The state after the caller of a cancelled call has returned. -/
def desist? (p : Pool) (c : CallId) : Option Pool := do
  let call ← p.calls[c]?
  if call.phase.isWaiting && call.cancelled then
    let reply ← call.soFar?
    return p.modifyCall c fun call => call.finishWith (.returned (.ok reply))
  else none

/-- The state after a step, if the step is possible. -/
def step? (p : Pool) : Step → Option Pool
  | .submit c => p.submit? c
  | .take w => p.take? w
  | .dropWork w => p.dropWork? w
  | .handOver w => p.handOver? w
  | .forgo w => p.forgo? w
  | .finish w => p.finish? w
  | .signal w => p.signal? w
  | .letGo c => p.letGo? c
  | .receive c => p.receive? c
  | .conclude c => p.conclude? c
  | .desist c => p.desist? c

end Pool

end ShardConsole
