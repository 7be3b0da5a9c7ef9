import ShardConsole.Proofs.Pool.Action
import ShardConsole.Proofs.Trace

/-!
# Runs of a Pool

A run is a trace of possible actions. What a worker has been given, what it has handled,
which shards a piece of work has met and which parts have gone into a channel are all read
off its history, and a pool needs no record of its past for the sake of a theorem.

A run starts in a fresh pool: no call has been made and no worker is at work, but the
shards are arbitrary and metrics may wait on the queues.

## Main definitions

* `IsFresh`: A pool in which no call has been made.
* `AllAlive`: A pool without dead workers.
* `Moment`, `Run`: Histories of possible actions.
* `Begun`: A call with the action that made it.
* `Moment.sent`, `enqueued`: What has been put on the queue of a worker.
* `Moment.handled`, `handled`: What a worker has taken from its queue.
* `Moment.met`, `invocations`: The shards that the work of a call has met.
* `Moment.handed`, `handed`: The parts that have gone into the channel of a call.
* `Moment.received`, `received`: The parts that the caller has taken.

## Theorems

* `begun_of_perform?`: Which of the actions that are possible made a call.
* `isFresh_start`: A pool whose workers have not been given anything is fresh.
-/

namespace ShardConsole

namespace Pool

deriving instance DecidableEq for Except

/-- A message that is a metric. -/
def Message.IsMetric : Message → Prop
  | .metric _ => True
  | .work _ _ => False

/-- A pool in which no call has been made and no worker is at work. -/
structure IsFresh (p : Pool) : Prop where
  calls : p.calls = #[]
  idle : ∀ (w : WorkerId) (worker : Worker), p.workers[w]? = some worker →
    worker.activity = .idle
  metrics : ∀ (w : WorkerId) (worker : Worker), p.workers[w]? = some worker →
    ∀ m ∈ worker.queue, m.IsMetric

/-- A pool without dead workers. -/
def AllAlive (p : Pool) : Prop :=
  ∀ (w : WorkerId) (worker : Worker), p.workers[w]? = some worker → worker.isAlive = true

/-- An action with the state in which it happened. -/
abbrev Moment := Trace.Moment Pool Action

/-- A history of possible actions, from a state to a state. -/
abbrev Run (start : Pool) : List Moment → Pool → Prop :=
  Trace act? start

/-- An action of a history made a call. -/
def Begun (h : List Moment) (c : CallId) (a : Action) : Prop :=
  ∃ m ∈ h, m.action = a ∧ m.before.calls.size = c ∧ ∃ call, a.Begins call

section Projections

/-- The queue of a worker. -/
def queueOf (p : Pool) (w : WorkerId) : List Message :=
  (p.workers[w]?.map Worker.queue).getD []

/-- The worker on whose queue a call is about to put its work, if that worker is alive. -/
def target? (p : Pool) (c : CallId) : Option WorkerId :=
  match p.calls[c]?.map Call.phase with
  | some (.submitting w) =>
    if (p.workers[w]?.map Worker.isAlive).getD false then some w else none
  | _ => none

/-- The message that a call puts on queues. -/
def messageOf? (p : Pool) (c : CallId) : Option Message :=
  p.calls[c]?.map fun call => .work c call.work

/-- What is put on the queue of a worker at a moment. -/
def Moment.sent (w : WorkerId) (m : Moment) : List Message :=
  match m.action with
  | .dispatch other metric => if other = w then [.metric metric] else []
  | .step (.submit c) =>
    if m.before.target? c = some w then (m.before.messageOf? c).toList else []
  | _ => []

/-- What a worker takes from its queue at a moment. -/
def Moment.handled (w : WorkerId) (m : Moment) : List Message :=
  match m.action with
  | .step (.take other) => if other = w then (m.before.queueOf w).head?.toList else []
  | _ => []

/-- The worker that runs the work of a call at a moment, with its shard. -/
def Moment.met (c : CallId) (m : Moment) : List (WorkerId × Shard) :=
  match m.action with
  | .step (.take w) =>
    match m.before.workers[w]? with
    | some worker =>
      if worker.queue.head?.bind Message.call? = some c then [(w, worker.shard)] else []
    | none => []
  | _ => []

/-- The worker that puts a part into the channel of a call at a moment, with the part. -/
def Moment.handed (c : CallId) (m : Moment) : List (WorkerId × String) :=
  match m.action with
  | .step (.handOver w) =>
    match m.before.workers[w]?.map Worker.activity, m.before.calls[c]?.bind Call.intake? with
    | some (.handing other (.part text)), some intake =>
      if other = c ∧ intake.channel.listening = true then [(w, text)] else []
    | _, _ => []
  | _ => []

/-- The part that the caller of a call takes at a moment. -/
def Moment.received (c : CallId) (m : Moment) : List String :=
  match m.action with
  | .step (.receive other) =>
    if other = c then
      ((m.before.calls[c]?.bind Call.intake?).map fun intake => intake.channel.parts.take 1).getD []
    else []
  | _ => []

/-- Everything that has been put on the queue of a worker, and before that what was
    there at the start. -/
def enqueued (start : Pool) (w : WorkerId) (h : List Moment) : List Message :=
  start.queueOf w ++ h.flatMap (Moment.sent w)

/-- Everything that a worker has taken from its queue. -/
def handled (w : WorkerId) (h : List Moment) : List Message :=
  h.flatMap (Moment.handled w)

/-- The workers that have run the work of a call, each with the shard that the work met. -/
def invocations (c : CallId) (h : List Moment) : List (WorkerId × Shard) :=
  h.flatMap (Moment.met c)

/-- The parts that have gone into the channel of a call, each with the worker that it
    came from. -/
def handed (c : CallId) (h : List Moment) : List (WorkerId × String) :=
  h.flatMap (Moment.handed c)

/-- The parts that the caller of a call has taken. -/
def received (c : CallId) (h : List Moment) : List String :=
  h.flatMap (Moment.received c)

variable (start : Pool) (w : WorkerId) (c : CallId) (h : List Moment) (m : Moment)

@[simp] theorem enqueued_snoc :
    enqueued start w (h ++ [m]) = enqueued start w h ++ m.sent w := by
  simp only [enqueued, List.flatMap_append, List.flatMap_singleton, List.append_assoc]

@[simp] theorem handled_snoc : handled w (h ++ [m]) = handled w h ++ m.handled w := by
  simp only [handled, List.flatMap_append, List.flatMap_singleton]

@[simp] theorem invocations_snoc :
    invocations c (h ++ [m]) = invocations c h ++ m.met c := by
  simp only [invocations, List.flatMap_append, List.flatMap_singleton]

@[simp] theorem handed_snoc : handed c (h ++ [m]) = handed c h ++ m.handed c := by
  simp only [handed, List.flatMap_append, List.flatMap_singleton]

@[simp] theorem received_snoc : received c (h ++ [m]) = received c h ++ m.received c := by
  simp only [received, List.flatMap_append, List.flatMap_singleton]

end Projections

-- One of the actions made a call if it is one that does, and the call has the number that
-- was the next one then.
theorem begun_of_perform? {actions : List Action} {h : List Moment} {p p' : Pool}
    {i : Nat} {c : CallId} {a : Action} {call : Call}
    (done : Trace.perform? act? [] p actions = some (h, p')) (found : actions[i]? = some a)
    (size : h[i]?.map (fun m => m.before.calls.size) = some c) (begins : a.Begins call) :
    Begun h c a := by
  rcases Option.map_eq_some_iff.mp size with ⟨m, hm, size⟩
  have same : (h.map Trace.Moment.action)[i]? = some a := by
    rw [Trace.actions_of_perform? done]
    exact found
  rw [List.getElem?_map, hm, Option.map_some, Option.some.injEq] at same
  exact ⟨m, List.mem_of_getElem? hm, same, size, call, begins⟩

/-- A pool whose workers have not been given anything is fresh. -/
theorem isFresh_start (workers : Nat) : IsFresh (start workers) where
  calls := rfl
  idle w worker hw := by
    simp only [start, Array.getElem?_replicate, Option.ite_none_right_eq_some] at hw
    rw [← Option.some.inj hw.2, Worker.start]
  metrics w worker hw := by
    simp only [start, Array.getElem?_replicate, Option.ite_none_right_eq_some] at hw
    simp [← Option.some.inj hw.2, Worker.start]

theorem allAlive_of_all {p : Pool} (alive : p.workers.all Worker.isAlive = true) :
    p.AllAlive := by
  intro w worker hw
  exact Array.all_eq_true'.mp alive worker (Array.mem_of_getElem? hw)

end Pool

end ShardConsole
