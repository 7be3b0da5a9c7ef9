import ShardConsole.Proofs.Pool.Deletions
import ShardConsole.Proofs.Pool.Execution

/-!
# Failures of Workers

What becomes of a broadcast when workers die, and what its caller is told.

A worker dies of a message that it takes, and everything on its queue is lost with it. The
death of a worker can come before a call gets to it, or after the call has put its work on
the queue, and the caller is told in two different ways. A call that comes to a dead worker
ends there. It has gone through the workers in the order of their numbers and each was alive
when the work was put on its queue, so the one that it names is the first that it has found
dead, and exactly the workers below it have been given the work. A call that gets past all
workers waits until every ticket is done or lost, in whatever order that happens, and names
the lowest worker whose ticket is lost.

In both cases the living go on. A worker that was given the work and is alive has run it, or
has it on its queue and will run it.

## Main definitions

* `Moment.Reaches`: A call comes to a worker at a moment.
* `Submits`: Whom a call has been given to, and when it is refused.
* `Awaits`: What waiting for the tickets of a call comes to.
* `Deletes`: What a deletion returns, and what it does on the living.

## Theorems

* `Run.refusal?_iff`: A call is refused exactly if it has come to a dead worker.
* `Run.reached_of_given`: Whoever has been given the work was alive at that moment.
* `Run.isResolved_iff`: When the tickets of a call are resolved.
* `Run.wait?_eq_some_iff`: What waiting for the tickets comes to.
* `Run.submits`, `Run.awaits`, `Run.deletes`: These hold for every call of every run.
* `Run.failures_reported`: All of it, and that everybody gets there.
-/

namespace ShardConsole

namespace Pool

/-- At a moment a call that puts its work on the queues comes to a worker. -/
structure Moment.Reaches (m : Moment) (c : CallId) (w : WorkerId) (worker : Worker) : Prop where
  action : m.action = .step (.submit c)
  submitting : ∃ call, m.before.calls[c]? = some call ∧ call.phase = .submitting w
  found : m.before.workers[w]? = some worker

/-- Whom a call has been given to. It is refused exactly if it comes to a dead worker, and until
    then it has come to living ones, in the order of their numbers. -/
structure Submits (start : Pool) (h : List Moment) (p : Pool) (c : CallId) : Prop where
  refused_iff : ∀ d, p.refusal? c = some ⟨d⟩ ↔
    ∃ m ∈ h, ∃ worker, m.Reaches c d worker ∧ worker.isAlive = false
  reached : ∀ w, c ∈ callsOf (enqueued start w h) →
    ∃ m ∈ h, ∃ worker, m.Reaches c w worker ∧ worker.isAlive = true
  given_of_refused : ∀ d, p.refusal? c = some ⟨d⟩ →
    ∀ w, (callsOf (enqueued start w h)).count c = if w < d then 1 else 0
  given_of_accepted : p.Submitted c → p.refusal? c = none →
    ∀ w, (callsOf (enqueued start w h)).count c = if w < p.size then 1 else 0
  /-- Whoever has been given the work and is alive has run it or will come to it. -/
  executed : ∀ (w : WorkerId) (worker : Worker), p.workers[w]? = some worker →
    worker.isAlive = true → c ∈ callsOf (enqueued start w h) →
      ((invocations c h).map Prod.fst).count w + (callsOf worker.queue).count c = 1

/-- What waiting for the tickets of a call comes to that has been given to all workers. -/
structure Awaits (h : List Moment) (p : Pool) (c : CallId) (call : Call) : Prop where
  /-- It ends when every worker has given its signal or has died with the work. -/
  ends_iff : (∃ result, call.wait? = some result) ↔
    ∀ w < p.size, c ∈ signalled w h ∨ c ∈ lost w h
  /-- By then every worker has ended its hand-off or is dead. -/
  settled : ∀ result, call.wait? = some result → ∀ (w : WorkerId) (worker : Worker),
    p.workers[w]? = some worker →
      c ∈ finished w h ∨ (c ∉ finished w h ∧ c ∈ lost w h ∧ worker.isAlive = false)
  ok_iff : ∀ result, call.wait? = some result →
    (result = .ok () ↔ ∀ w < p.size, c ∈ finished w h)
  error_iff : ∀ result, call.wait? = some result → ∀ d,
    (result = .error ⟨d⟩ ↔ c ∈ lost d h ∧ ∀ w < d, c ∈ finished w h)
  /-- Whoever has called with work of one's own is told just that. -/
  returned : call.purpose = .completion → ∀ result, p.result? c = some result →
    ∃ waited, call.wait? = some waited ∧ result = waited.map fun _ => .completed

/-- What a deletion returns, and what it does to the shards of the living. -/
structure Deletes (start : Pool) (h : List Moment) (p : Pool) (c : CallId) (kind : Kind)
    (names : List String) (call : Call) : Prop where
  /-- It returns the error with which it was refused, or that of waiting for it. -/
  result : ∀ result, p.result? c = some result →
    (∃ cause, p.refusal? c = some cause ∧ result = .error cause) ∨
      (p.refusal? c = none ∧ ∃ waited, call.wait? = some waited ∧
        result = waited.map fun _ => .removed call.removed)
  /-- Whoever runs it removes the names from its shard. -/
  applied : ∀ m ∈ h, ∀ visit ∈ m.met c, ∃ next worker, m.before.act? m.action = some next ∧
    next.workers[visit.1]? = some worker ∧ Shard.Removes kind names visit.2 worker.shard
  /-- Whoever has it on its queue will do so. -/
  queued : ∀ (w : WorkerId) (worker : Worker) (job : Work), p.workers[w]? = some worker →
    .work c job ∈ worker.queue → job = Work.delete kind names

section Refusals

variable {start p p' : Pool} {h : List Moment} {a : Action} {m : Moment} {c : CallId}
  {d w : WorkerId} {worker : Worker} {call call' : Call} {cause : Unavailable}

theorem refusal?_eq_some_iff : p.refusal? c = some cause ↔
    ∃ call, p.calls[c]? = some call ∧ call.phase = .refused cause := by
  unfold refusal?
  cases hc : p.calls[c]? with
  | none => simp
  | some call => cases phase : call.phase <;> simp [phase]

theorem refusal?_eq_none (hc : p.calls[c]? = some call) (none : p.refusal? c = none)
    (cause : Unavailable) : call.phase ≠ .refused cause := by
  intro phase
  have some := refusal?_eq_some_iff.mpr ⟨call, hc, phase⟩
  rw [none] at some
  cases some

-- A call that has a result is past putting its work on queues.
theorem submitted_of_result {result : Except Unavailable Reply}
    (hr : p.result? c = some result) : p.Submitted c := by
  unfold result? at hr
  cases hc : p.calls[c]? with
  | none => simp [hc] at hr
  | some call =>
      refine ⟨call, hc, fun w phase => ?_⟩
      rw [hc, Option.map_some, phase] at hr
      cases hr

-- A call that is refused was refused before, or it comes to a dead worker at this moment.
theorem CallChange.of_refused (change : CallChange p c call a call')
    (hc : p.calls[c]? = some call) (phase : call'.phase = .refused cause) :
    call.phase = .refused cause ∨
      ∃ worker, Moment.Reaches ⟨p, a⟩ c cause.worker worker ∧ worker.isAlive = false := by
  cases change with
  | stay => exact Or.inl phase
  | cancel => exact Or.inl phase
  | @refuse w worker submitting hw dead =>
      simp only [Call.refuse, Call.finishWith, Call.mapChannel, Call.phase_mapIntake,
        Call.phase_dropWork, Phase.refused.injEq] at phase
      subst phase
      exact Or.inr ⟨worker, ⟨rfl, ⟨call, hc, submitting⟩, hw⟩, dead⟩
  | _ => simp at phase <;> exact Or.inl phase

-- A call that has been refused stays refused.
theorem CallChange.refused (change : CallChange p c call a call')
    (phase : call.phase = .refused cause) : call'.phase = .refused cause := by
  cases change with
  | drop waiting => cases phase.symm.trans waiting
  | give submitting => cases phase.symm.trans submitting
  | refuse submitting => cases phase.symm.trans submitting
  | await submitting => cases phase.symm.trans submitting
  | conclude waiting => cases phase.symm.trans waiting
  | desist waiting => cases phase.symm.trans waiting
  | _ => simpa using phase

-- A call that comes to a dead worker is refused.
theorem Change.refused_of_reaches (change : Change p a p')
    (reaches : Moment.Reaches ⟨p, a⟩ c d worker) (dead : worker.isAlive = false) :
    ∃ call, p'.calls[c]? = some call ∧ call.phase = .refused ⟨d⟩ := by
  rcases reaches with ⟨rfl, ⟨call, hc, phase⟩, found⟩
  cases change with
  | begin begins => cases begins
  | give hc' phase' hw alive =>
      cases hc.symm.trans hc'
      cases phase.symm.trans phase'
      cases found.symm.trans hw
      exact absurd (dead.symm.trans alive) Bool.false_ne_true
  | refuse hc' phase' hw =>
      cases hc.symm.trans hc'
      cases phase.symm.trans phase'
      refine ⟨call.refuse d, ?_, ?_⟩
      · rw [getElem?_modifyCall, if_pos rfl, hc, Option.map_some]
      · simp
  | await hc' phase' hw =>
      cases hc.symm.trans hc'
      cases phase.symm.trans phase'
      cases found.symm.trans hw

-- A worker on whose queue a call puts its work is alive.
theorem Change.reaches_of_sent (change : Change p a p')
    (sent : c ∈ callsOf (Moment.sent w ⟨p, a⟩)) :
    ∃ worker, Moment.Reaches ⟨p, a⟩ c w worker ∧ worker.isAlive = true := by
  rcases submitting_of_mem_sent sent with ⟨rfl, call, hc, phase⟩
  cases change with
  | begin begins => cases begins
  | give hc' phase' hw alive =>
      cases hc.symm.trans hc'
      cases phase.symm.trans phase'
      exact ⟨_, ⟨rfl, ⟨call, hc, phase⟩, hw⟩, alive⟩
  | refuse hc' phase' hw dead =>
      rw [sent_of_refuse hc' phase' hw dead] at sent
      cases sent
  | await hc' phase' hw =>
      rw [sent_of_await hc' phase' hw] at sent
      cases sent

/-- A call is refused exactly if it has come to a dead worker, which is the one it names. -/
theorem Run.refusal?_iff (run : Run start h p) (fresh : IsFresh start) :
    p.refusal? c = some ⟨d⟩ ↔
      ∃ m ∈ h, ∃ worker, m.Reaches c d worker ∧ worker.isAlive = false := by
  rw [refusal?_eq_some_iff]
  induction run with
  | start => simp [fresh.calls]
  | @next h p p' a run act ih =>
      have change := change_of_act? act
      constructor
      · rintro ⟨call, hc, phase⟩
        rcases change.callChange hc with ⟨_, begins⟩ | ⟨before, hb, changed⟩
        · cases begins <;> cases phase
        · rcases changed.of_refused hb phase with earlier | now
          · rcases ih.mp ⟨before, hb, earlier⟩ with ⟨m, hm, met⟩
            exact ⟨m, List.mem_append_left _ hm, met⟩
          · exact ⟨⟨p, a⟩, by simp, now⟩
      · rintro ⟨m, hm, worker, reaches, dead⟩
        rcases List.mem_append.mp hm with earlier | now
        · rcases ih.mpr ⟨m, earlier, worker, reaches, dead⟩ with ⟨call, hc, phase⟩
          rcases change.callChange_of hc with ⟨call', hc', changed⟩
          exact ⟨call', hc', changed.refused phase⟩
        · cases List.mem_singleton.mp now
          exact change.refused_of_reaches reaches dead

/-- A call that has put its work on a queue came to the worker when that was alive. -/
theorem Run.reached_of_given (run : Run start h p) (fresh : IsFresh start)
    (given : c ∈ callsOf (enqueued start w h)) :
    ∃ m ∈ h, ∃ worker, m.Reaches c w worker ∧ worker.isAlive = true := by
  induction run with
  | start => simp [enqueued, fresh.callsOf_queueOf] at given
  | @next h p p' a run act ih =>
      rw [enqueued_snoc, callsOf_append, List.mem_append] at given
      rcases given with earlier | now
      · rcases ih earlier with ⟨m, hm, met⟩
        exact ⟨m, List.mem_append_left _ hm, met⟩
      · exact ⟨⟨p, a⟩, by simp, (change_of_act? act).reaches_of_sent now⟩

-- A call that was not refused and has come to the end has a ticket from every worker.
theorem Run.tickets_of_accepted (run : Run start h p) (fresh : IsFresh start)
    (hc : p.calls[c]? = some call) (submitted : p.Submitted c)
    (accepted : ∀ cause, call.phase ≠ .refused cause) : call.tickets.size = p.size := by
  rcases submitted with ⟨same, hs, past⟩
  cases hc.symm.trans hs
  rw [((run.accounts fresh).given c call hc).1, Call.given]
  cases phase : call.phase with
  | submitting v => exact absurd phase (past v)
  | refused cause => exact absurd phase (accepted cause)
  | _ => rfl

/-- In every run, whoever dies and whenever, a call has been given to the workers below the
    first dead one that it has come to. -/
theorem Run.submits (run : Run start h p) (fresh : IsFresh start)
    (hc : p.calls[c]? = some call) : Submits start h p c := by
  constructor
  case refused_iff => exact fun d => run.refusal?_iff fresh
  case reached => exact fun w given => run.reached_of_given fresh given
  case given_of_refused =>
    intro d refusal w
    rcases refusal?_eq_some_iff.mp refusal with ⟨same, hs, phase⟩
    cases hc.symm.trans hs
    rw [run.count_enqueued fresh hc, ((run.accounts fresh).given c call hc).1, Call.given, phase]
  case given_of_accepted =>
    intro submitted none w
    rw [run.count_enqueued fresh hc, run.tickets_of_accepted fresh hc submitted
      (refusal?_eq_none hc none)]
  case executed => exact fun w worker hw alive given => run.once_of_given fresh hw alive given

end Refusals

section Waiting

variable {start p : Pool} {h : List Moment} {c : CallId} {w : WorkerId} {worker : Worker}
  {call : Call} {result : Except Unavailable Unit}

-- Only workers have tickets.
theorem Run.worker_of_ticket (run : Run start h p) (fresh : IsFresh start)
    (hc : p.calls[c]? = some call) (hlt : w < call.tickets.size) :
    ∃ worker, p.workers[w]? = some worker := by
  have given := (run.accounts fresh).given c call hc
  have inside : w < p.workers.size := Nat.lt_of_lt_of_le (given.1 ▸ hlt) given.2
  exact ⟨_, Array.getElem?_eq_getElem inside⟩

/-- The tickets of a call are resolved when each worker that it was given to has given its
    signal or has died with the work. -/
theorem Run.isResolved_iff (run : Run start h p) (fresh : IsFresh start)
    (hc : p.calls[c]? = some call) : call.isResolved = true ↔
      ∀ w < call.tickets.size, c ∈ signalled w h ∨ c ∈ lost w h := by
  rw [Call.isResolved, Array.all_eq_true]
  constructor
  · intro resolved w hlt
    rcases run.worker_of_ticket fresh hc hlt with ⟨worker, hw⟩
    have given := ((run.deliveries fresh).given w c).mpr ⟨call, hc, hlt⟩
    rcases run.ticket_of_given fresh hw hc given with ⟨_, mem, _⟩ | ⟨_, _, mem⟩ | ⟨pending, _⟩
    · exact Or.inl mem
    · exact Or.inr mem
    · rw [Array.getElem?_eq_getElem hlt, Option.some.injEq] at pending
      simpa [pending] using resolved w hlt
  · intro settled w hlt
    rcases run.worker_of_ticket fresh hc hlt with ⟨worker, hw⟩
    have ticket : call.tickets[w]? = some call.tickets[w] := Array.getElem?_eq_getElem hlt
    rcases settled w hlt with mem | mem
    · rw [(run.done_iff fresh hw hc).mpr mem, Option.some.injEq] at ticket
      simp [← ticket]
    · rw [(run.lost_iff fresh hw hc).mpr mem, Option.some.injEq] at ticket
      simp [← ticket]

-- When the tickets of a call are resolved, a worker has ended its hand-off exactly if its
-- ticket is not lost.
theorem Run.finished_iff (run : Run start h p) (fresh : IsFresh start)
    (hc : p.calls[c]? = some call) (resolved : call.isResolved = true)
    (hlt : w < call.tickets.size) : c ∈ finished w h ↔ call.tickets[w] ≠ .lost := by
  rcases run.worker_of_ticket fresh hc hlt with ⟨worker, hw⟩
  rcases run.finished_or_lost fresh hw hc resolved hlt with ⟨done, mem, _⟩ | ⟨gone, other, _⟩
  · rw [Array.getElem?_eq_getElem hlt, Option.some.injEq] at done
    simp [done, mem]
  · rw [Array.getElem?_eq_getElem hlt, Option.some.injEq] at gone
    simp [gone, other]

-- The first lost ticket is that of the lowest worker that has died with the work.
theorem Run.firstLost?_eq_some_iff (run : Run start h p) (fresh : IsFresh start)
    (hc : p.calls[c]? = some call) (resolved : call.isResolved = true) :
    call.firstLost? = some w ↔ c ∈ lost w h ∧ ∀ v < w, c ∈ finished v h := by
  rw [Call.firstLost?, Array.findIdx?_eq_some_iff_getElem]
  constructor
  · rintro ⟨hlt, gone, below⟩
    refine ⟨run.lost_of_ticket fresh hc ?_, fun v hv => ?_⟩
    · rw [Array.getElem?_eq_getElem hlt, of_decide_eq_true gone]
    · rw [run.finished_iff fresh hc resolved (Nat.lt_trans hv hlt)]
      simpa using below v hv
  · rintro ⟨mem, below⟩
    rcases run.worker_of_lost mem with ⟨worker, hw⟩
    have ticket := (run.lost_iff fresh hw hc).mpr mem
    rcases Array.getElem?_eq_some_iff.mp ticket with ⟨hlt, gone⟩
    refine ⟨hlt, by simp [gone], fun v hv => ?_⟩
    have kept := (run.finished_iff fresh hc resolved (Nat.lt_trans hv hlt)).mp (below v hv)
    simpa using kept

-- No ticket is lost exactly if all hand-offs are over.
theorem Run.firstLost?_eq_none_iff (run : Run start h p) (fresh : IsFresh start)
    (hc : p.calls[c]? = some call) (resolved : call.isResolved = true)
    (given : call.tickets.size = p.size) :
    call.firstLost? = none ↔ ∀ w < p.size, c ∈ finished w h := by
  rw [Call.firstLost?, Array.findIdx?_eq_none_iff]
  constructor
  · intro kept w hlt
    rw [run.finished_iff fresh hc resolved (given ▸ hlt)]
    simpa using kept _ (Array.getElem_mem (given ▸ hlt))
  · intro everyone t ht
    rcases Array.mem_iff_getElem.mp ht with ⟨w, hlt, rfl⟩
    simpa using (run.finished_iff fresh hc resolved hlt).mp (everyone w (given ▸ hlt))

/-- Waiting for the tickets of a call that was given to all workers succeeds if all of them
    have ended their hand-offs, and names the lowest one that has not if there is one. -/
theorem Run.wait?_eq_some_iff (run : Run start h p) (fresh : IsFresh start)
    (hc : p.calls[c]? = some call) (given : call.tickets.size = p.size) :
    call.wait? = some result ↔ call.isResolved = true ∧
      match result with
      | .ok () => ∀ w < p.size, c ∈ finished w h
      | .error cause => c ∈ lost cause.worker h ∧ ∀ w < cause.worker, c ∈ finished w h := by
  unfold Call.wait?
  by_cases resolved : call.isResolved = true
  · rw [if_pos resolved]
    cases result with
    | ok =>
        rw [← run.firstLost?_eq_none_iff fresh hc resolved given]
        cases call.firstLost? <;> simp [resolved]
    | error cause =>
        refine Iff.trans ?_ (and_congr_right fun _ => run.firstLost?_eq_some_iff fresh hc resolved)
        cases first : call.firstLost? with
        | none => simp
        | some w =>
            rcases cause with ⟨v⟩
            simp [resolved]
  · rw [if_neg resolved]
    simp [resolved]

-- Whoever waits for the tickets is told what that comes to.
theorem Call.verdict_of_resolved {call : Call} (unheard : call.intake? = none)
    (resolved : call.isResolved = true) : ∃ waited, call.wait? = some waited ∧
      call.verdict = waited.map fun _ => call.answer := by
  unfold Call.wait? Call.verdict
  rw [if_pos resolved, unheard]
  cases call.firstLost? with
  | none => exact ⟨.ok (), rfl, rfl⟩
  | some w => exact ⟨.error ⟨w⟩, rfl, rfl⟩

/-- A call whose caller waits for the tickets, and does not leave early, returns the error with
    which it was refused, or what waiting for the tickets comes to. -/
theorem Run.result_of_patient (run : Run start h p) (fresh : IsFresh start)
    (hc : p.calls[c]? = some call) (patient : call.IsPatient) (unheard : call.intake? = none)
    {reply : Except Unavailable Reply} (hr : p.result? c = some reply) :
    (∃ cause, p.refusal? c = some cause ∧ reply = .error cause) ∨
      (p.refusal? c = none ∧ ∃ waited, call.wait? = some waited ∧
        reply = waited.map fun _ => call.answer) := by
  unfold result? at hr
  rw [hc, Option.map_some] at hr
  split at hr
  · rename_i same
    cases hr
    have phase := Option.some.inj same
    rcases run.returned_verdict fresh hc patient phase with ⟨resolved, eq⟩
    refine Or.inr ⟨?_, ?_⟩
    · rw [refusal?, hc, Option.map_some, phase]
    · rw [eq]
      exact Call.verdict_of_resolved unheard resolved
  · rename_i cause same
    cases hr
    exact Or.inl ⟨cause, refusal?_eq_some_iff.mpr ⟨call, hc, Option.some.inj same⟩, rfl⟩
  · cases hr

/-- In every run, whoever dies and whenever, waiting for the tickets of a call that was given
    to all workers ends when each of them has given its signal or died, and tells the lowest
    one that died before its hand-off was over. -/
theorem Run.awaits (run : Run start h p) (fresh : IsFresh start) (hc : p.calls[c]? = some call)
    (given : call.tickets.size = p.size) (accepted : p.refusal? c = none) :
    Awaits h p c call := by
  have wait (result : Except Unavailable Unit) : call.wait? = some result ↔ _ :=
    run.wait?_eq_some_iff fresh hc given
  constructor
  case ends_iff =>
    rw [← given, ← run.isResolved_iff fresh hc]
    constructor
    · rintro ⟨result, waited⟩
      exact ((wait result).mp waited).1
    · intro resolved
      unfold Call.wait?
      rw [if_pos resolved]
      cases call.firstLost? <;> exact ⟨_, rfl⟩
  case settled =>
    intro result waited w worker hw
    have resolved := ((wait result).mp waited).1
    have hlt : w < call.tickets.size := given ▸ lt_size_of_worker hw
    rcases run.finished_or_lost fresh hw hc resolved hlt with ⟨_, mem, _⟩ | ⟨_, dies⟩
    · exact Or.inl mem
    · exact Or.inr dies
  case ok_iff =>
    intro result waited
    have resolved := ((wait result).mp waited).1
    constructor
    · rintro rfl
      exact ((wait _).mp waited).2
    · intro everyone
      have ok := (wait (.ok ())).mpr ⟨resolved, everyone⟩
      rw [waited, Option.some.injEq] at ok
      exact ok
  case error_iff =>
    intro result waited d
    have resolved := ((wait result).mp waited).1
    constructor
    · rintro rfl
      exact ((wait _).mp waited).2
    · intro lowest
      have error := (wait (.error ⟨d⟩)).mpr ⟨resolved, lowest⟩
      rw [waited, Option.some.injEq] at error
      exact error
  case returned =>
    intro purpose reply hr
    have patient : call.IsPatient := fun _ => by rw [purpose]; rfl
    have unheard : call.intake? = none := by rw [Call.intake?, purpose]
    rcases run.result_of_patient fresh hc patient unheard hr with ⟨_, refused, _⟩ | ⟨_, told⟩
    · rw [accepted] at refused
      cases refused
    · rwa [Call.answer, purpose] at told

end Waiting

section Deleting

variable {start p : Pool} {h : List Moment} {c : CallId} {w : WorkerId} {worker : Worker}
  {call : Call} {kind : Kind} {names : List String} {cancelled : Bool}

/-- In every run, whoever dies and whenever, an uncancelled deletion returns the error of the
    first worker that it could not be given to, or of the lowest one that died before it was
    done, and the living remove the names. -/
theorem Run.deletes (run : Run start h p) (fresh : IsFresh start)
    (begun : Begun h c (.delete kind names cancelled)) (hc : p.calls[c]? = some call)
    (uncancelled : call.cancelled = false) : Deletes start h p c kind names call := by
  rcases run.deletion_of_begun begun hc with ⟨work, purpose⟩
  constructor
  case result =>
    intro result hr
    have unheard : call.intake? = none := by rw [Call.intake?, purpose]
    have told := run.result_of_patient fresh hc (.of_uncancelled uncancelled) unheard hr
    rwa [Call.answer, purpose] at told
  case applied =>
    intro m hm visit met
    have survives : call.work.invoke visit.1 visit.2 ≠ .failed := by
      rw [work]
      exact fun failed => by cases failed
    rcases run.runs_of_met fresh hc hm met survives with
      ⟨rest, after, report, handoff, next, _, _, ran, act, hw⟩
    rw [work] at ran
    cases ran
    exact ⟨next, _, act, hw, Shard.removes_deleteAll visit.2 kind names⟩
  case queued =>
    intro w worker job hw queued
    rcases (run.deliveries fresh).work w c job (run.mem_enqueued hw queued) with ⟨same, hs, rfl⟩
    cases hc.symm.trans hs
    exact work

end Deleting

section Ending

variable {start p : Pool} {h : List Moment} {c : CallId} {w : WorkerId} {worker : Worker}
  {call : Call}

-- A living worker has run what it was given when no step is left.
theorem Run.ran_of_stuck (run : Run start h p) (fresh : IsFresh start) (stuck : p.Stuck)
    (ungated : p.Ungated) (hw : p.workers[w]? = some worker) (alive : worker.isAlive = true)
    (given : c ∈ callsOf (enqueued start w h)) :
    ((invocations c h).map Prod.fst).count w = 1 := by
  have once := run.once_of_given fresh hw alive given
  have owed := run.not_owed_of_ungated fresh stuck ungated hw
  rw [Worker.owed, List.append_eq_nil_iff] at owed
  rwa [owed.2] at once

/-- In every run, whoever dies and whenever: a call is refused exactly if it comes to a dead
    worker, it names that worker, and it has been given once to each worker below and to no
    other one. If it gets past all workers, waiting for it ends when each of them has ended its
    hand-off or died, and names the lowest one that died before. An uncancelled deletion returns
    just these errors. Whoever was given the work and is alive runs it once, and a deletion
    removes the names there. -/
theorem Run.failures_reported (run : Run start h p) (fresh : IsFresh start)
    (hc : p.calls[c]? = some call) :
    Submits start h p c ∧
    (p.Submitted c → p.refusal? c = none → Awaits h p c call) ∧
    (∀ kind names cancelled, Begun h c (.delete kind names cancelled) →
      call.cancelled = false → Deletes start h p c kind names call) ∧
    (p.Stuck → p.Ungated →
      (∀ (w : WorkerId) (worker : Worker), p.workers[w]? = some worker → worker.isAlive = true →
        c ∈ callsOf (enqueued start w h) → ((invocations c h).map Prod.fst).count w = 1) ∧
      (call.intake? = none → call.phase ≠ .dropped → ∃ result, p.result? c = some result)) := by
  refine ⟨run.submits fresh hc, fun submitted none => ?_,
    fun kind names cancelled begun uncancelled => run.deletes fresh begun hc uncancelled,
    fun stuck ungated => ⟨fun w worker hw alive given => ?_, fun _ kept => ?_⟩⟩
  · have given := run.tickets_of_accepted fresh hc submitted (refusal?_eq_none hc none)
    exact run.awaits fresh hc given none
  · exact run.ran_of_stuck fresh stuck ungated hw alive given
  · exact run.result_of_stuck fresh stuck ungated hc kept

end Ending

/-- The third of three workers dies while a deletion is on its queue, and another deletion comes
    to it when it is dead. -/
def brokenDeletions : List Action :=
  [.dispatch 0 ⟨"a", .empty, .counter 2⟩, .dispatch 1 ⟨"a", .empty, .counter 1⟩,
    .process (Work.crash 2), .delete .counter ["a"] false, .delete .counter ["a"] false] ++
  List.map Action.step
    [.submit 0, .submit 0, .submit 0, .submit 0, .submit 1, .submit 1, .submit 1, .submit 1,
      .take 2, .submit 2, .submit 2, .submit 2,
      .take 0, .take 0, .dropWork 0, .finish 0, .signal 0, .take 0, .dropWork 0, .finish 0,
      .signal 0, .take 0, .dropWork 0, .take 1, .take 1, .dropWork 1, .finish 1, .signal 1,
      .take 1, .dropWork 1, .finish 1, .signal 1, .conclude 0, .conclude 1]

theorem brokenDeletions_reported : ∃ h p, Run (start 3) h p ∧
    (1 ∈ lost 2 h ∧ ∀ w < 2, 1 ∈ finished w h) ∧
    (∃ m ∈ h, ∃ worker, m.Reaches 2 2 worker ∧ worker.isAlive = false) ∧
    (∀ w, (callsOf (enqueued (start 3) w h)).count 2 = if w < 2 then 1 else 0) ∧
    ((invocations 2 h).map Prod.fst).count 0 = 1 := by
  have done : (Trace.perform? act? [] (start 3) brokenDeletions).map (fun r =>
      (r.2.result? 1, r.2.refusal? 1, r.2.refusal? 2)) =
      some (some (.error ⟨2⟩), none, some ⟨2⟩) := by
    decide +kernel
  have numbers : (Trace.perform? act? [] (start 3) brokenDeletions).map (fun r =>
      r.1[3]?.map fun m => m.before.calls.size) = some (some 1) := by
    decide +kernel
  have calls : (Trace.perform? act? [] (start 3) brokenDeletions).map (fun r =>
      (r.2.calls[1]?.map Call.cancelled, r.2.calls[2]?.isSome, r.2.workers[0]?.map fun worker =>
        (worker.isAlive, callsOf worker.queue))) = some (some false, true, some (true, [])) := by
    decide +kernel
  rcases Option.map_eq_some_iff.mp done with ⟨⟨h, p⟩, performed, facts⟩
  rw [performed, Option.map_some, Option.some.injEq] at numbers calls
  simp only [Prod.mk.injEq] at facts calls
  rcases facts with ⟨result, accepted, refusal⟩
  rcases calls with ⟨cancelled, later, survivor⟩
  rcases Option.map_eq_some_iff.mp cancelled with ⟨first, hf, uncancelled⟩
  rcases Option.isSome_iff_exists.mp later with ⟨second, hs⟩
  rcases Option.map_eq_some_iff.mp survivor with ⟨worker, hw, facts⟩
  rw [Prod.mk.injEq] at facts
  have run : Run (start 3) h p := Trace.of_perform? .start performed
  have begun : Begun h 1 (.delete .counter ["a"] false) :=
    begun_of_perform? performed rfl numbers .delete
  rcases run.failures_reported (isFresh_start 3) hf with ⟨_, awaits, deletes, _⟩
  rcases run.failures_reported (isFresh_start 3) hs with ⟨submits, _⟩
  -- The first deletion gets past all workers and is told who died.
  rcases (deletes _ _ _ begun uncancelled).result _ result with
    ⟨cause, refused, _⟩ | ⟨_, waited, wait, error⟩
  · rw [accepted] at refused
    cases refused
  have lowest : waited = .error ⟨2⟩ := by
    cases waited with
    | ok => simp [Except.map] at error
    | error cause => simpa [Except.map, eq_comm] using error
  refine ⟨h, p, run, ((awaits (submitted_of_result result) accepted).error_iff _ wait 2).mp lowest,
    (submits.refused_iff 2).mp refusal, submits.given_of_refused 2 refusal, ?_⟩
  -- The second one is refused, and done by those that had been given it.
  have given : 2 ∈ callsOf (enqueued (start 3) 0 h) := by
    rw [← List.count_pos_iff, submits.given_of_refused 2 refusal 0]
    decide
  have once := submits.executed 0 worker hw facts.1 given
  rw [facts.2] at once
  simpa using once

end Pool

end ShardConsole
