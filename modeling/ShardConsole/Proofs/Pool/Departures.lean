import ShardConsole.Proofs.Pool.Histories
import ShardConsole.Proofs.Pool.Intakes
import ShardConsole.Proofs.Pool.Progress

/-!
# Departures of Callers

What it takes for a caller to return, and what it leaves behind.

A caller returns at one moment of a run, at which it waits. Either there is nothing more to
wait for, or the call is cancelled, and in both cases it returns what the call shows at that
moment. So whatever is known about a call that waits is known about its result.

A cancelled caller needs nobody for that. Putting the work on the queues never blocks, and
once it is there the caller can leave at any time.

The workers do not know about it. Each of them runs the work once, unless it still waits on
its queue, and when everything has come to rest everybody has run it, whether or not the
caller has stayed.

## Main definitions

* `IsCount`: What a deletion can give.

## Theorems

* `Run.returned_at`: When a call has returned, and with what.
* `Run.count_of_result`: A deletion gives a number, or it fails.
* `returns_by_itself`: A cancelled caller returns by its own steps.
* `Run.once_each`: Every worker has run the work once, or has it on its queue.
* `Run.everyone_of_stuck`: Everybody has run the work when no step is left.
-/

namespace ShardConsole

namespace Pool

/-- What a deletion can give: a number, unless it fails. -/
inductive IsCount : Except Unavailable Reply → Prop
  | failed (cause : Unavailable) : IsCount (.error cause)
  | removed (count : Nat) : IsCount (.ok (.removed count))

section Returning

variable {start p : Pool} {h : List Moment} {c : CallId} {call : Call}
  {result : Except Unavailable Reply}

-- What a cancelled caller has got so far is what the call shows.
theorem Call.answer_of_soFar? {reply : Reply} (soFar : call.soFar? = some reply) :
    reply = call.answer := by
  unfold Call.soFar? at soFar
  split at soFar
  · rename_i purpose
    cases soFar
    rw [Call.answer, purpose]
  · rename_i purpose
    cases soFar
    rw [Call.answer, purpose]
  · cases soFar

/-- A call that has returned did so at a moment at which its caller waited, with what the
    call showed then. -/
theorem Run.returned_at (run : Run start h p) (fresh : IsFresh start) (alive : p.AllAlive)
    (hc : p.calls[c]? = some call) (phase : call.phase = .returned result) :
    ∃ h₁ m h₂ first, h = h₁ ++ m :: h₂ ∧ m.before.calls[c]? = some first ∧
      first.work = call.work ∧ first.purpose.form = call.purpose.form ∧
      first.phase = .waiting ∧
      (m.action = .step (.conclude c) ∨ m.action = .step (.desist c)) ∧
      result = .ok first.answer := by
  induction run generalizing call with
  | start => simp [fresh.calls] at hc
  | @next h p p' a run act ih =>
      have before := alive.of_act? act
      rcases (change_of_act? act).callChange hc with ⟨_, begins⟩ | ⟨first, hf, changed⟩
      · cases begins <;> cases phase
      · rw [changed.work_eq, changed.form_eq]
        rcases changed.of_returned phase with returned | ⟨rfl, waiting, conclusion⟩ |
          ⟨rfl, waiting, _, reply, soFar, rfl⟩
        · rcases ih before hf returned with ⟨h₁, m, h₂, first, rfl, at_return⟩
          exact ⟨h₁, m, h₂ ++ [⟨p, a⟩], first, by simp, at_return⟩
        · have unlost := (Run.accounts run fresh).firstLost?_eq_none before hf
          rcases Call.resolved_of_conclusion? conclusion
              (fun intake hi => waiting ▸ Run.supervised run fresh hf hi) unlost with ⟨_, same⟩
          exact ⟨h, ⟨p, _⟩, [], first, rfl, hf, rfl, rfl, waiting, Or.inl rfl, same⟩
        · exact ⟨h, ⟨p, _⟩, [], first, rfl, hf, rfl, rfl, waiting, Or.inr rfl,
            congrArg _ (Call.answer_of_soFar? soFar)⟩

-- Among living workers the calls that have a result are those that have returned.
theorem Run.phase_of_result (run : Run start h p) (fresh : IsFresh start) (alive : p.AllAlive)
    (hr : p.result? c = some result) :
    ∃ call, p.calls[c]? = some call ∧ call.phase = .returned result := by
  unfold result? at hr
  cases hc : p.calls[c]? with
  | none => simp [hc] at hr
  | some call =>
      rw [hc, Option.map_some] at hr
      split at hr
      · rename_i same
        cases hr
        exact ⟨call, rfl, Option.some.inj same⟩
      · rename_i same
        exact absurd (Option.some.inj same) (run.not_refused fresh alive hc _)
      · cases hr

end Returning

section Counting

variable {start p : Pool} {h : List Moment} {c : CallId} {call : Call} {kind : Kind}
  {names : List String} {cancelled : Bool} {result : Except Unavailable Reply}

theorem Run.count_of_returned (run : Run start h p) (fresh : IsFresh start)
    (hc : p.calls[c]? = some call) (form : call.purpose.form = .count)
    (phase : call.phase = .returned result) :
    IsCount result := by
  induction run generalizing call with
  | start => simp [fresh.calls] at hc
  | @next h p p' a run act ih =>
      rcases (change_of_act? act).callChange hc with ⟨_, begins⟩ | ⟨first, hf, changed⟩
      · cases begins <;> cases phase
      · have earlier : first.purpose.form = .count := changed.form_eq.symm.trans form
        have purpose := Purpose.eq_count_of_form earlier
        rcases changed.of_returned phase with
          returned | ⟨_, _, conclusion⟩ | ⟨_, _, _, reply, soFar, rfl⟩
        · exact ih hf earlier returned
        · rw [Call.conclusion?, purpose] at conclusion
          rcases Option.map_eq_some_iff.mp conclusion with ⟨waited, _, rfl⟩
          cases waited with
          | error cause => exact .failed cause
          | ok => exact .removed _
        · rw [Call.soFar?, purpose] at soFar
          cases soFar
          exact .removed _

/-- A deletion gives a number, or it fails. -/
theorem Run.count_of_result (run : Run start h p) (fresh : IsFresh start)
    (begun : Begun h c (.delete kind names cancelled)) (hr : p.result? c = some result) :
    IsCount result := by
  unfold result? at hr
  cases hc : p.calls[c]? with
  | none => simp [hc] at hr
  | some call =>
      have form : call.purpose.form = .count := by
        rw [(run.deletion_of_begun begun hc).2]
        rfl
      rw [hc, Option.map_some] at hr
      split at hr
      · rename_i phase
        cases hr
        exact run.count_of_returned fresh hc form (Option.some.inj phase)
      · cases hr
        exact .failed _
      · cases hr

end Counting

section Leaving

variable {p : Pool} {c : CallId} {call : Call} {w : Nat}

-- Putting the work of a call on a queue kills nobody.
theorem AllAlive.enqueue {m : Message} (alive : p.AllAlive) : (p.enqueue w m).AllAlive := by
  intro v worker' hv
  rcases of_modifyWorker hv with ⟨_, worker, hw, rfl⟩ | ⟨_, hw⟩
  · exact alive v worker hw
  · exact alive v worker' hw

-- A caller that submits can always go on: to the next worker, or to wait.
theorem act?_submit (alive : p.AllAlive) (hc : p.calls[c]? = some call)
    (phase : call.phase = .submitting w) :
    ∃ p' call', p.act? (.step (.submit c)) = some p' ∧ p'.AllAlive ∧ p'.size = p.size ∧
      p'.calls[c]? = some call' ∧ call'.cancelled = call.cancelled ∧
      call'.purpose.form = call.purpose.form ∧
      call'.phase = if w < p.size then .submitting (w + 1) else .waiting := by
  cases hw : p.workers[w]? with
  | some worker =>
      refine ⟨(p.enqueue w (.work c call.work)).modifyCall c (·.give w), call.give w, ?_,
        alive.enqueue, size_modifyWorker p w _, ?_, rfl, rfl, ?_⟩
      · simp [act?, step?, submit?, hc, phase, hw, alive w worker hw]
      · rw [getElem?_modifyCall, if_pos rfl]
        simp [Pool.enqueue, hc]
      · rw [if_pos (lt_size_of_worker hw)]
        rfl
  | none =>
      refine ⟨p.modifyCall c Call.await, call.await, ?_, alive, rfl, ?_, ?_, ?_, ?_⟩
      · simp [act?, step?, submit?, hc, phase, hw]
      · rw [getElem?_modifyCall, if_pos rfl, hc, Option.map_some]
      · simp
      · simp [Call.dropWork]
      · have outside : ¬ w < p.size := Nat.not_lt.mpr (Array.getElem?_eq_none_iff.mp hw)
        rw [if_neg outside]
        simp

-- The work of a call gets onto all queues without anybody's help.
theorem waits_by_itself (alive : p.AllAlive) (hc : p.calls[c]? = some call)
    (phase : call.phase = .submitting w) :
    ∃ later q call', Run p later q ∧ q.AllAlive ∧ (∀ m ∈ later, m.action = .step (.submit c)) ∧
      q.calls[c]? = some call' ∧ call'.cancelled = call.cancelled ∧
      call'.purpose.form = call.purpose.form ∧ call'.phase = .waiting := by
  -- The number of workers that have not been given the work becomes smaller.
  generalize left : p.size - w = n
  induction n generalizing p call w with
  | zero =>
      rcases act?_submit alive hc phase with ⟨p', call', act, alive', _, hc', cancelled, form, next⟩
      rw [if_neg (by omega)] at next
      exact ⟨_, p', call', Trace.single act, alive', by simp, hc', cancelled, form, next⟩
  | succ n ih =>
      rcases act?_submit alive hc phase with
        ⟨p', call', act, alive', size, hc', cancelled, form, next⟩
      rw [if_pos (by omega)] at next
      rcases ih alive' hc' next (by omega) with
        ⟨later, q, last, run, aliveq, own, hq, cancelled', form', waiting⟩
      refine ⟨[⟨p, .step (.submit c)⟩] ++ later, q, last, (Trace.single act).trans run,
        aliveq, ?_, hq, cancelled'.trans cancelled, form'.trans form, waiting⟩
      intro m hm
      rcases List.mem_append.mp hm with first | rest
      · rw [List.mem_singleton.mp first]
      · exact own m rest

-- The caller of a cancelled call that waits can return.
theorem act?_desist (hc : p.calls[c]? = some call) (waiting : call.phase = .waiting)
    (cancelled : call.cancelled = true) (form : call.purpose.form ≠ .completion) :
    ∃ p' result, p.act? (.step (.desist c)) = some p' ∧ p'.workers = p.workers ∧
      p'.result? c = some result := by
  have soFar : ∃ reply, call.soFar? = some reply := by
    cases purpose : call.purpose with
    | listing intake => exact ⟨.listing intake.output, by rw [Call.soFar?, purpose]⟩
    | count => exact ⟨.removed call.removed, by rw [Call.soFar?, purpose]⟩
    | completion => exact absurd (by rw [purpose]; rfl) form
  rcases soFar with ⟨reply, soFar⟩
  refine ⟨p.modifyCall c fun call => call.finishWith (.returned (.ok reply)), .ok reply, ?_,
    rfl, ?_⟩
  · simp [act?, step?, desist?, hc, waiting, cancelled, Phase.isWaiting, soFar]
  · rw [result?, getElem?_modifyCall, if_pos rfl, hc]
    simp

/-- The caller of a cancelled call that has not returned returns by its own steps: it puts
    the rest of its work on the queues and leaves. -/
theorem returns_by_itself (alive : p.AllAlive) (hc : p.calls[c]? = some call)
    (cancelled : call.cancelled = true) (form : call.purpose.form ≠ .completion)
    (opens : call.phase.isOpen = true) :
    ∃ later q result, Run p later q ∧ q.AllAlive ∧
      (∀ m ∈ later, m.action = .step (.submit c) ∨ m.action = .step (.desist c)) ∧
      q.result? c = some result := by
  have waits : ∃ later q call', Run p later q ∧ q.AllAlive ∧
      (∀ m ∈ later, m.action = .step (.submit c)) ∧ q.calls[c]? = some call' ∧
      call'.cancelled = call.cancelled ∧ call'.purpose.form = call.purpose.form ∧
      call'.phase = .waiting := by
    cases phase : call.phase with
    | submitting w => exact waits_by_itself alive hc phase
    | waiting => exact ⟨[], p, call, .start, alive, by simp, hc, rfl, rfl, phase⟩
    | _ => simp [phase, Phase.isOpen] at opens
  rcases waits with ⟨later, q, call', run, aliveq, own, hq, same, form', waiting⟩
  rcases act?_desist hq waiting (same.trans cancelled) (by rwa [form']) with
    ⟨q', result, act, workers, hr⟩
  refine ⟨later ++ [⟨q, .step (.desist c)⟩], q', result, run.next act, ?_, ?_, hr⟩
  · intro v worker hv
    exact aliveq v worker (workers ▸ hv)
  · intro m hm
    rcases List.mem_append.mp hm with first | last
    · exact Or.inl (own m first)
    · rw [List.mem_singleton.mp last]
      exact Or.inr rfl

end Leaving

section Remaining

variable {start p : Pool} {h : List Moment} {c : CallId} {call : Call} {w : WorkerId}
  {worker : Worker}

-- A call that has been put on all queues has a ticket from every worker.
theorem Run.tickets_of_submitted (run : Run start h p) (fresh : IsFresh start)
    (alive : p.AllAlive) (hc : p.calls[c]? = some call) (submitted : p.Submitted c) :
    call.tickets.size = p.size := by
  rcases submitted with ⟨same, hs, past⟩
  cases hc.symm.trans hs
  rw [((run.accounts fresh).given c call hc).1, Call.given]
  cases phase : call.phase with
  | submitting v => exact absurd phase (past v)
  | refused cause => exact absurd phase (run.not_refused fresh alive hc cause)
  | _ => rfl

/-- When the work of a call has been put on all queues, every worker has run it once, or it
    is on the queue of the worker once, whatever has become of the caller. -/
theorem Run.once_each (run : Run start h p) (fresh : IsFresh start) (alive : p.AllAlive)
    (submitted : p.Submitted c) (hw : p.workers[w]? = some worker) :
    ((invocations c h).map Prod.fst).count w + (callsOf worker.queue).count c = 1 := by
  have deliveries := run.deliveries fresh
  rcases submitted with ⟨call, hc, past⟩
  have size := run.tickets_of_submitted fresh alive hc ⟨call, hc, past⟩
  have given : c ∈ callsOf (enqueued start w h) :=
    (deliveries.given w c).mpr ⟨call, hc, size ▸ lt_size_of_worker hw⟩
  exact run.once_of_given fresh hw (alive w worker hw) given

/-- Everybody has run the work of a call when no step is left, whether or not the caller has
    stayed. -/
theorem Run.everyone_of_stuck (run : Run start h p) (fresh : IsFresh start)
    (plain : ∀ m ∈ h, m.action.isOrdinary = true) (stuck : p.Stuck)
    (hc : p.calls[c]? = some call) :
    ((invocations c h).map Prod.fst).Perm (List.range p.size) := by
  have settled := run.settled_of_stuck fresh plain stuck
  have alive := (run.ordinary fresh plain).allAlive
  have resolved := (run.accounts fresh).isResolved_of_idle hc settled.idle
  have submitted : p.Submitted c := by
    refine ⟨call, hc, fun v phase => ?_⟩
    rcases settled.calls c call hc with ⟨result, returned⟩ | dropped
    · cases phase.symm.trans returned
    · cases phase.symm.trans dropped
  rw [← run.tickets_of_submitted fresh alive hc submitted]
  exact run.invocations_perm fresh alive hc resolved

end Remaining

end Pool

end ShardConsole
