import ShardConsole.Proofs.Pool.Departures
import ShardConsole.Proofs.Pool.Signals

/-!
# Execution of Broadcast Work

Work of one's own is run by every worker, once, and in order.

Each worker goes through its queue by itself. It takes a message when it is idle, and it is
idle again only when the hand-off of what it took is over, so that the hand-offs that have
ended are at that moment all the works that have been taken. Nothing else touches the shard
meanwhile: it is the first shard of the worker with the messages applied that it has handled.

Every work is put once on every queue, so among living workers each of them has run it or has
it on its queue. What the caller does about it makes no difference: the tickets are kept
whether anybody waits for them or not, and neither leaving nor being cancelled takes a message
back from a queue. Waiting for the tickets succeeds only when all hand-offs are over.

How long a hand-off takes is up to the work, since it may stand at a gate that nobody opens.
When no step is left and nobody stands at a closed gate, everybody has run everything.

## Main definitions

* `Serves`: A worker handles its messages one at a time and in order.
* `Finished`: Every worker has run the work of a call and ended the hand-off.
* `Broadcasts`: The work of a call is run by every worker once.

## Theorems

* `Run.serves`: Living workers handle their messages one at a time and in order.
* `Run.finished_of_resolved`: When the tickets are resolved, all hand-offs are over.
* `Run.broadcasts`: Among living workers the work of every call is run by everybody once.
* `Run.everyone_of_ungated`: Everybody has run the work when no step is left.
* `Run.executed_once`: Exactly once, one at a time, in order, and finished when waited for.
-/

namespace ShardConsole

namespace Pool

/-- A worker handles its messages one at a time and in the order in which it is given them. -/
structure Serves (start : Pool) (h : List Moment) (w : WorkerId) (worker : Worker) : Prop where
  /-- What it was given is what it has handled, and then what still waits. -/
  order : enqueued start w h = handled w h ++ worker.queue
  /-- Nothing but what it has handled has touched its shard. -/
  shard : ∃ first, start.workers[w]? = some first ∧
    worker.shard = replay w first.shard (handled w h)
  /-- It takes one message at a time, when it is idle and all hand-offs are over. -/
  alone : ∀ h₁ m h₂, h = h₁ ++ m :: h₂ → m.handled w ≠ [] →
    ∃ first, m.before.workers[w]? = some first ∧ first.activity = .idle ∧
      m.handled w = first.queue.take 1 ∧ callsOf (handled w h₁) = finished w h₁

/-- Every worker has run the work of a call, once, and has ended the hand-off. -/
structure Finished (h : List Moment) (p : Pool) (c : CallId) : Prop where
  everyone : ((invocations c h).map Prod.fst).Perm (List.range p.size)
  complete : ∀ w < p.size, c ∈ finished w h

/-- The work of a call is run by every worker once. -/
structure Broadcasts (h : List Moment) (p : Pool) (c : CallId) (call : Call) : Prop where
  /-- It is put on all queues. -/
  accepted : ∀ cause, call.phase ≠ .refused cause
  /-- Whoever runs it has it from its own queue and applies it to its own shard, under its own
      number. -/
  runs : ∀ m ∈ h, ∀ visit ∈ m.met c, m.Runs c call.work visit
  once : ((invocations c h).map Prod.fst).Nodup
  /-- Once it is on all queues, everybody has run it or will come to it. -/
  each : p.Submitted c → ∀ (w : WorkerId) (worker : Worker), p.workers[w]? = some worker →
    ((invocations c h).map Prod.fst).count w + (callsOf worker.queue).count c = 1
  /-- Waiting for its completion, there and by whoever made the call, ends when it is done. -/
  waited : p.Submitted c → ∀ result, call.wait? = some result →
    result = .ok () ∧ Finished h p c
  returned : call.purpose.form = .completion → ∀ result, p.result? c = some result →
    result = .ok .completed ∧ Finished h p c

section Executing

variable {start p : Pool} {h : List Moment} {c : CallId} {w : WorkerId} {worker : Worker}
  {call : Call}

/-- A living worker handles its messages one at a time and in order. -/
theorem Run.serves (run : Run start h p) (fresh : IsFresh start)
    (hw : p.workers[w]? = some worker) (alive : worker.isAlive = true) :
    Serves start h w worker where
  order := run.enqueued_eq hw alive
  shard := run.shard_eq hw alive
  alone := by
    intro h₁ m h₂ split handling
    subst split
    exact run.handled_eq fresh handling

/-- When the tickets of a call that was put on all queues are resolved, all hand-offs are
    over. -/
theorem Run.finished_of_resolved (run : Run start h p) (fresh : IsFresh start)
    (alive : p.AllAlive) (hc : p.calls[c]? = some call) (given : call.tickets.size = p.size)
    (resolved : call.isResolved = true) : Finished h p c where
  everyone := by
    have perm := run.invocations_perm fresh alive hc resolved
    rwa [given] at perm
  complete := by
    intro w hlt
    have hw : p.workers[w]? = some p.workers[w] := Array.getElem?_eq_getElem hlt
    have ticket : w < call.tickets.size := by omega
    rcases run.finished_or_lost fresh hw hc resolved ticket with ⟨_, mem, _⟩ | ⟨_, _, _, dead⟩
    · exact mem
    · exact absurd (dead.symm.trans (alive w _ hw)) Bool.false_ne_true

-- Among living workers waiting for the tickets ends well.
theorem Run.wait?_eq (run : Run start h p) (fresh : IsFresh start) (alive : p.AllAlive)
    (hc : p.calls[c]? = some call) {result : Except Unavailable Unit}
    (wait : call.wait? = some result) : call.isResolved = true ∧ result = .ok () := by
  have kept := (run.accounts fresh).firstLost?_eq_none alive hc
  unfold Call.wait? at wait
  split at wait
  · rename_i resolved
    rw [kept] at wait
    cases wait
    exact ⟨resolved, rfl⟩
  · cases wait

/-- Among living workers the work of every call is run by everybody once, whatever its caller
    does. -/
theorem Run.broadcasts (run : Run start h p) (fresh : IsFresh start) (alive : p.AllAlive)
    (hc : p.calls[c]? = some call) : Broadcasts h p c call := by
  have given (submitted : p.Submitted c) := run.tickets_of_submitted fresh alive hc submitted
  constructor
  case accepted => exact run.not_refused fresh alive hc
  case runs =>
    intro m hm visit met
    exact run.runs_of_met fresh hc hm met (run.survives_of_met fresh alive hc hm met)
  case once => exact run.invocations_nodup fresh alive c
  case each =>
    intro submitted w worker hw
    exact run.once_each fresh alive submitted hw
  case waited =>
    intro submitted result wait
    rcases run.wait?_eq fresh alive hc wait with ⟨resolved, rfl⟩
    exact ⟨rfl, run.finished_of_resolved fresh alive hc (given submitted) resolved⟩
  case returned =>
    intro form result hr
    rcases run.phase_of_result fresh alive hr with ⟨same, hs, phase⟩
    cases hc.symm.trans hs
    -- A caller that waits for the completion cannot be made to leave early.
    rcases run.returned_verdict fresh hc (fun _ => form) phase with ⟨resolved, eq⟩
    have purpose := Purpose.eq_completion_of_form form
    have kept := (run.accounts fresh).firstLost?_eq_none alive hc
    have submitted : p.Submitted c := ⟨call, hc, by simp [phase]⟩
    refine ⟨?_, run.finished_of_resolved fresh alive hc (given submitted) resolved⟩
    rw [eq, call.verdict_of_kept kept, Call.answer, purpose]

/-- Everybody has run the work of every call when no step is left and nobody stands at a closed
    gate. -/
theorem Run.everyone_of_ungated (run : Run start h p) (fresh : IsFresh start)
    (alive : p.AllAlive) (stuck : p.Stuck) (ungated : p.Ungated)
    (hc : p.calls[c]? = some call) : Finished h p c := by
  have resolved : call.isResolved = true := by
    refine (run.accounts fresh).isResolved_of_not_owed hc fun w worker hw => ?_
    rw [run.not_owed_of_ungated fresh stuck ungated hw]
    exact List.not_mem_nil
  have submitted : p.Submitted c := ⟨call, hc, stuck.not_submitting hc⟩
  have given := run.tickets_of_submitted fresh alive hc submitted
  exact run.finished_of_resolved fresh alive hc given resolved

/-- Among living workers, whatever is submitted meanwhile and whatever the callers do, every
    worker handles its messages one at a time and in order, taking the next one only when the
    hand-off of the one before is over. All work is run by every worker once, under its own
    number and on its own shard, and waiting for it succeeds when all have run it and ended
    their hand-offs. Without further submissions there are at most as many steps as the load
    says, and when none is left and nobody stands at a closed gate everybody has run it. -/
theorem Run.executed_once (run : Run start h p) (fresh : IsFresh start) (alive : p.AllAlive) :
    (∀ (w : WorkerId) (worker : Worker), p.workers[w]? = some worker →
      Serves start h w worker) ∧
    (∀ c job, Begun h c (.process job) → ∃ call, p.calls[c]? = some call ∧ call.work = job ∧
      call.purpose = .completion ∧ Broadcasts h p c call ∧
      (p.Stuck → p.Ungated → Finished h p c)) ∧
    ∀ later q, Run p later q → (∀ m ∈ later, m.action.submits = false) →
      stepsOf later ≤ p.load := by
  refine ⟨fun w worker hw => run.serves fresh hw (alive w worker hw), fun c job begun => ?_,
    fun later q run' quiet => ?_⟩
  · rcases run.of_begun begun with ⟨_, call, _, hc, _⟩
    rcases run.process_of_begun begun hc with ⟨work, purpose⟩
    exact ⟨call, hc, work, purpose, run.broadcasts fresh alive hc,
      fun stuck ungated => run.everyone_of_ungated fresh alive stuck ungated hc⟩
  · have steps := run'.stepsOf_le quiet
    omega

end Executing

/-- Two pieces of work come to two workers in opposite orders. One of them holds the second
    worker up until a gate is open, and nobody waits for the other one. -/
def heldBroadcasts : List Action :=
  [.dispatch 1 ⟨"a", .empty, .counter 2⟩, .process (Work.hold ⟨"g", 0⟩ (some [1])),
    .process (Work.inspect .counter)] ++
  List.map Action.step [.submit 0, .submit 1, .submit 1, .submit 0, .submit 0, .submit 1] ++
  [.drop 1] ++
  List.map Action.step
    [.take 0, .take 1, .take 1, .dropWork 0, .dropWork 1, .finish 1, .signal 1, .take 1,
      .dropWork 1, .finish 0, .signal 0, .take 0, .dropWork 0, .finish 0, .signal 0] ++
  [.openGate "g"] ++ List.map Action.step [.handOver 1, .finish 1, .signal 1, .conclude 0]

deriving instance DecidableEq for Phase

theorem heldBroadcasts_executed : ∃ h p, Run (start 2) h p ∧
    (∀ (w : WorkerId) (worker : Worker), p.workers[w]? = some worker →
      Serves (start 2) h w worker) ∧ Finished h p 0 ∧ Finished h p 1 := by
  have done : (Trace.perform? act? [] (start 2) heldBroadcasts).map (fun r =>
      (r.2.result? 0, r.2.workers.all Worker.isAlive)) = some (some (.ok .completed), true) := by
    decide +kernel
  have numbers : (Trace.perform? act? [] (start 2) heldBroadcasts).map (fun r =>
      (r.1[1]?.map fun m => m.before.calls.size, r.1[2]?.map fun m => m.before.calls.size)) =
      some (some 0, some 1) := by
    decide +kernel
  have abandoned : (Trace.perform? act? [] (start 2) heldBroadcasts).map (fun r =>
      r.2.calls[1]?.map fun call => (call.wait?, call.phase)) =
      some (some (some (.ok ()), .dropped)) := by
    decide +kernel
  rcases Option.map_eq_some_iff.mp done with ⟨⟨h, p⟩, performed, facts⟩
  rw [performed, Option.map_some, Option.some.injEq] at numbers abandoned
  simp only [Prod.mk.injEq] at facts numbers
  rcases Option.map_eq_some_iff.mp abandoned with ⟨left, hc, facts'⟩
  rw [Prod.mk.injEq] at facts'
  have run : Run (start 2) h p := Trace.of_perform? .start performed
  have submitted : p.Submitted 1 := ⟨left, hc, by simp [facts'.2]⟩
  rcases run.executed_once (isFresh_start 2) (allAlive_of_all facts.2) with ⟨serves, executed, _⟩
  rcases executed 0 _ (begun_of_perform? performed rfl numbers.1 .process) with
    ⟨_, _, _, purpose, broadcasts, _⟩
  rcases executed 1 _ (begun_of_perform? performed rfl numbers.2 .process) with
    ⟨same, hs, _, _, broadcasts', _⟩
  cases hc.symm.trans hs
  exact ⟨h, p, run, serves, (broadcasts.returned (by rw [purpose]; rfl) _ facts.1).2,
    (broadcasts'.waited submitted _ facts'.1).2⟩

end Pool

end ShardConsole
