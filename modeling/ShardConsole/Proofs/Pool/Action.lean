import ShardConsole.Pool.Request
import ShardConsole.Pool.Step

/-!
# Actions on a Pool

Everything that can happen to a pool, and what it does.

A pool changes by its own steps and by requests from outside. Both are `Action`s here,
and `act?` is their common transition function, so that a run of a pool is one sequence
of actions and every interleaving of producers, callers, workers and closers is such a
sequence.

`act?` is computed from nested functions, and every proof about runs would have to open
all of them. `Change` says once what an action can do: one constructor for each way in
which an action is possible, with the conditions under which it is and with the state
that it leads to. `change_of_act?` is the inversion, and the proofs about runs are case
distinctions over `Change`.

## Main definitions

* `Action`: A step, or a request from outside.
* `act?`: The state after an action, if the action is possible.
* `Action.Begins`: The call that an action makes.
* `Change`: What an action does to a pool.

## Theorems

* `change_of_act?`: A possible action is one of the changes.
-/

namespace ShardConsole

namespace Pool

/-- Something that happens to a pool. -/
inductive Action
  | step (step : Step)
  /-- A metric is put on the queue of a worker. -/
  | dispatch (w : WorkerId) (m : Metric)
  | list (capacity : Nat) (kind : Kind) (cancelled : Bool)
  | delete (kind : Kind) (names : List String) (cancelled : Bool)
  | process (work : Work)
  | cancel (c : CallId)
  | drop (c : CallId)
  | openGate (name : String)

/-- The state after an action, if the action is possible. -/
def act? (p : Pool) : Action → Option Pool
  | .step step => p.step? step
  | .dispatch w m => (p.dispatchTo w m).toOption
  | .list capacity kind cancelled => (p.beginList? capacity kind cancelled).map Prod.fst
  | .delete kind names cancelled => some (p.beginDelete kind names cancelled).1
  | .process work => some (p.beginWork work).1
  | .cancel c => some (p.cancel c)
  | .drop c => some (p.drop c)
  | .openGate name => some (p.openGate name)

/-- The call that an action makes. -/
inductive Action.Begins : Action → Call → Prop
  | list {capacity : Nat} {kind : Kind} {cancelled : Bool} {channel : Channel}
      (created : Channel.create? (max capacity 1) = some channel) :
      Begins (.list capacity kind cancelled)
        (Call.start (Work.list kind) (.listing (Intake.start channel)) cancelled)
  | delete {kind : Kind} {names : List String} {cancelled : Bool} :
      Begins (.delete kind names cancelled)
        (Call.start (Work.delete kind names) .count cancelled)
  | process {work : Work} : Begins (.process work) (Call.start work .completion false)

/-- What an action does to a pool. -/
inductive Change (p : Pool) : Action → Pool → Prop
  | dispatch {w : WorkerId} {worker : Worker} {m : Metric}
      (hw : p.workers[w]? = some worker) (alive : worker.isAlive = true) :
      Change p (.dispatch w m) (p.enqueue w (.metric m))
  | begin {a : Action} {call : Call} (begins : a.Begins call) : Change p a (p.begin call).1
  | cancel {c : CallId} : Change p (.cancel c) (p.cancel c)
  | drop {c : CallId} : Change p (.drop c) (p.drop c)
  | openGate {name : String} : Change p (.openGate name) (p.openGate name)
  | give {c : CallId} {call : Call} {w : WorkerId} {worker : Worker}
      (hc : p.calls[c]? = some call) (phase : call.phase = .submitting w)
      (hw : p.workers[w]? = some worker) (alive : worker.isAlive = true) :
      Change p (.step (.submit c))
        ((p.enqueue w (.work c call.work)).modifyCall c (·.give w))
  | refuse {c : CallId} {call : Call} {w : WorkerId} {worker : Worker}
      (hc : p.calls[c]? = some call) (phase : call.phase = .submitting w)
      (hw : p.workers[w]? = some worker) (dead : worker.isAlive = false) :
      Change p (.step (.submit c)) (p.modifyCall c (·.refuse w))
  | await {c : CallId} {call : Call} {w : WorkerId}
      (hc : p.calls[c]? = some call) (phase : call.phase = .submitting w)
      (hw : p.workers[w]? = none) : Change p (.step (.submit c)) (p.modifyCall c Call.await)
  | merge {w : WorkerId} {worker : Worker} {m : Metric} {rest : List Message}
      (hw : p.workers[w]? = some worker) (idle : worker.activity = .idle)
      (queue : worker.queue = .metric m :: rest) :
      Change p (.step (.take w)) (p.modifyWorker w fun worker =>
        { worker with shard := worker.shard.receive m, queue := rest })
  | run {w : WorkerId} {worker : Worker} {c : CallId} {work : Work} {rest : List Message}
      {shard : Shard} {report : Report} {handoff : Handoff}
      (hw : p.workers[w]? = some worker) (idle : worker.activity = .idle)
      (queue : worker.queue = .work c work :: rest)
      (ran : work.invoke w worker.shard = .ran shard report handoff) :
      Change p (.step (.take w))
        ((p.modifyWorker w fun _ => ⟨shard, rest, .holding c handoff⟩).modifyCall c
          (·.noteRun w report))
  | die {w : WorkerId} {worker : Worker} {c : CallId} {work : Work} {rest : List Message}
      (hw : p.workers[w]? = some worker) (idle : worker.activity = .idle)
      (queue : worker.queue = .work c work :: rest)
      (failed : work.invoke w worker.shard = .failed) :
      Change p (.step (.take w)) (p.bury w worker.queue)
  | dropWork {w : WorkerId} {worker : Worker} {c : CallId} {handoff : Handoff}
      (hw : p.workers[w]? = some worker) (activity : worker.activity = .holding c handoff) :
      Change p (.step (.dropWork w))
        ((p.setActivity w (.handing c handoff)).modifyCall c (·.dropWork (.worker w)))
  | passGate {w : WorkerId} {worker : Worker} {c : CallId} {gate : Gate}
      (hw : p.workers[w]? = some worker) (activity : worker.activity = .handing c (.gate gate))
      (isOpen : p.isOpen gate = true) :
      Change p (.step (.handOver w)) (p.setActivity w (.handing c .done))
  | discard {w : WorkerId} {worker : Worker} {c : CallId} {text : String} {call : Call}
      (hw : p.workers[w]? = some worker) (activity : worker.activity = .handing c (.part text))
      (hc : p.calls[c]? = some call)
      (unheard : ∀ intake, call.intake? = some intake → intake.channel.listening = false) :
      Change p (.step (.handOver w)) (p.setActivity w (.handing c .done))
  | push {w : WorkerId} {worker : Worker} {c : CallId} {text : String} {call : Call}
      {intake : Intake}
      (hw : p.workers[w]? = some worker) (activity : worker.activity = .handing c (.part text))
      (hc : p.calls[c]? = some call) (hi : call.intake? = some intake)
      (listening : intake.channel.listening = true) (room : intake.channel.hasRoom = true) :
      Change p (.step (.handOver w))
        ((p.setActivity w (.handing c .done)).modifyCall c (·.mapChannel (·.push text)))
  | forgo {w : WorkerId} {worker : Worker} {c : CallId} {text : String} {call : Call}
      (hw : p.workers[w]? = some worker) (activity : worker.activity = .handing c (.part text))
      (hc : p.calls[c]? = some call) (cancelled : call.cancelled = true) :
      Change p (.step (.forgo w)) (p.setActivity w (.handing c .done))
  | finish {w : WorkerId} {worker : Worker} {c : CallId}
      (hw : p.workers[w]? = some worker) (activity : worker.activity = .handing c .done) :
      Change p (.step (.finish w))
        ((p.setActivity w (.signalling c)).modifyCall c
          (·.mapChannel (·.release (.handoff w))))
  | signal {w : WorkerId} {worker : Worker} {c : CallId}
      (hw : p.workers[w]? = some worker) (activity : worker.activity = .signalling c) :
      Change p (.step (.signal w))
        ((p.setActivity w .idle).modifyCall c (·.resolve w .done))
  | letGo {c : CallId} {call : Call} {intake : Intake}
      (hc : p.calls[c]? = some call) (hi : call.intake? = some intake)
      (closer : intake.closer = .waiting) (resolved : call.isResolved = true) :
      Change p (.step (.letGo c)) (p.modifyCall c fun call => call.mapIntake fun intake =>
        { intake with channel := intake.channel.release .closer, closer := .ended })
  | receive {c : CallId} {call : Call} {intake : Intake} {part : String} {rest : List String}
      (hc : p.calls[c]? = some call) (hi : call.intake? = some intake)
      (phase : call.phase = .waiting) (parts : intake.channel.parts = part :: rest) :
      Change p (.step (.receive c)) (p.modifyCall c fun call => call.mapIntake fun intake =>
        { intake with
          channel := { intake.channel with parts := rest }
          output := intake.output ++ part })
  | conclude {c : CallId} {call : Call} {result : Except Unavailable Reply}
      (hc : p.calls[c]? = some call) (phase : call.phase = .waiting)
      (conclusion : call.conclusion? = some result) :
      Change p (.step (.conclude c))
        (p.modifyCall c fun call => call.finishWith (.returned result))
  | desist {c : CallId} {call : Call} {reply : Reply}
      (hc : p.calls[c]? = some call) (phase : call.phase = .waiting)
      (cancelled : call.cancelled = true) (soFar : call.soFar? = some reply) :
      Change p (.step (.desist c))
        (p.modifyCall c fun call => call.finishWith (.returned (.ok reply)))

section Inversion

variable {p p' : Pool}

theorem change_of_submit? {c : CallId} (h : p.submit? c = some p') :
    Change p (.step (.submit c)) p' := by
  simp only [submit?, Option.bind_eq_bind, Option.bind_eq_some_iff] at h
  rcases h with ⟨call, hc, h⟩
  split at h
  · rename_i w phase
    -- The next worker is alive, dead or not there.
    split at h
    · rename_i worker hw
      split at h
      · rename_i alive
        cases h
        exact .give hc phase hw alive
      · rename_i dead
        cases h
        exact .refuse hc phase hw (by simpa using dead)
    · rename_i hw
      cases h
      exact .await hc phase hw
  · cases h

theorem change_of_take? {w : WorkerId} (h : p.take? w = some p') :
    Change p (.step (.take w)) p' := by
  simp only [take?, Option.bind_eq_bind, Option.bind_eq_some_iff] at h
  rcases h with ⟨worker, hw, h⟩
  split at h
  · rename_i m rest idle queue
    cases h
    exact .merge hw idle queue
  · rename_i c work rest idle queue
    -- The worker survives the work or dies of it.
    split at h
    · rename_i failed
      cases h
      exact .die hw idle queue failed
    · rename_i ran
      cases h
      exact .run hw idle queue ran
  · cases h

theorem change_of_dropWork? {w : WorkerId} (h : p.dropWork? w = some p') :
    Change p (.step (.dropWork w)) p' := by
  simp only [dropWork?, Option.bind_eq_bind, Option.bind_eq_some_iff] at h
  rcases h with ⟨worker, hw, h⟩
  split at h
  · rename_i activity
    cases h
    exact .dropWork hw activity
  · cases h

theorem change_of_handOver? {w : WorkerId} (h : p.handOver? w = some p') :
    Change p (.step (.handOver w)) p' := by
  simp only [handOver?, Option.bind_eq_bind, Option.bind_eq_some_iff] at h
  rcases h with ⟨worker, hw, h⟩
  split at h
  · rename_i c gate activity
    split at h
    · rename_i isOpen
      cases h
      exact .passGate hw activity isOpen
    · cases h
  · rename_i c text activity
    -- Nobody listens, there is room, or the worker has to wait.
    rcases Option.bind_eq_some_iff.mp h with ⟨call, hc, h⟩
    split at h
    · rename_i hi
      cases h
      exact .discard hw activity hc (by simp [hi])
    · rename_i intake hi
      split at h
      · rename_i unheard
        cases h
        exact .discard hw activity hc (by simpa [hi] using unheard)
      · rename_i listening
        split at h
        · rename_i room
          cases h
          exact .push hw activity hc hi (by simpa using listening) room
        · cases h
  · cases h

theorem change_of_forgo? {w : WorkerId} (h : p.forgo? w = some p') :
    Change p (.step (.forgo w)) p' := by
  simp only [forgo?, Option.bind_eq_bind, Option.bind_eq_some_iff] at h
  rcases h with ⟨worker, hw, h⟩
  split at h
  · rename_i c text activity
    rcases Option.bind_eq_some_iff.mp h with ⟨call, hc, h⟩
    split at h
    · rename_i cancelled
      cases h
      exact .forgo hw activity hc cancelled
    · cases h
  · cases h

theorem change_of_finish? {w : WorkerId} (h : p.finish? w = some p') :
    Change p (.step (.finish w)) p' := by
  simp only [finish?, Option.bind_eq_bind, Option.bind_eq_some_iff] at h
  rcases h with ⟨worker, hw, h⟩
  split at h
  · rename_i activity
    cases h
    exact .finish hw activity
  · cases h

theorem change_of_signal? {w : WorkerId} (h : p.signal? w = some p') :
    Change p (.step (.signal w)) p' := by
  simp only [signal?, Option.bind_eq_bind, Option.bind_eq_some_iff] at h
  rcases h with ⟨worker, hw, h⟩
  split at h
  · rename_i activity
    cases h
    exact .signal hw activity
  · cases h

theorem change_of_letGo? {c : CallId} (h : p.letGo? c = some p') :
    Change p (.step (.letGo c)) p' := by
  simp only [letGo?, Option.bind_eq_bind, Option.bind_eq_some_iff] at h
  rcases h with ⟨call, hc, intake, hi, h⟩
  split at h
  · rename_i guard
    cases h
    exact .letGo hc hi guard.1 guard.2
  · cases h

theorem change_of_receive? {c : CallId} (h : p.receive? c = some p') :
    Change p (.step (.receive c)) p' := by
  simp only [receive?, Option.bind_eq_bind, Option.bind_eq_some_iff] at h
  rcases h with ⟨call, hc, intake, hi, h⟩
  split at h
  · rename_i phase parts
    cases h
    exact .receive hc hi phase parts
  · cases h

theorem isWaiting_iff {phase : Phase} : phase.isWaiting = true ↔ phase = .waiting := by
  cases phase <;> simp [Phase.isWaiting]

theorem change_of_conclude? {c : CallId} (h : p.conclude? c = some p') :
    Change p (.step (.conclude c)) p' := by
  simp only [conclude?, Option.bind_eq_bind, Option.bind_eq_some_iff] at h
  rcases h with ⟨call, hc, h⟩
  split at h
  · rename_i waiting
    rcases Option.bind_eq_some_iff.mp h with ⟨result, conclusion, h⟩
    cases h
    exact .conclude hc (isWaiting_iff.mp waiting) conclusion
  · cases h

theorem change_of_desist? {c : CallId} (h : p.desist? c = some p') :
    Change p (.step (.desist c)) p' := by
  simp only [desist?, Option.bind_eq_bind, Option.bind_eq_some_iff] at h
  rcases h with ⟨call, hc, h⟩
  split at h
  · rename_i guard
    rcases Bool.and_eq_true_iff.mp guard with ⟨waiting, cancelled⟩
    rcases Option.bind_eq_some_iff.mp h with ⟨reply, soFar, h⟩
    cases h
    exact .desist hc (isWaiting_iff.mp waiting) cancelled soFar
  · cases h

theorem change_of_step? {step : Step} (h : p.step? step = some p') :
    Change p (.step step) p' := by
  cases step with
  | submit c => exact change_of_submit? h
  | take w => exact change_of_take? h
  | dropWork w => exact change_of_dropWork? h
  | handOver w => exact change_of_handOver? h
  | forgo w => exact change_of_forgo? h
  | finish w => exact change_of_finish? h
  | signal w => exact change_of_signal? h
  | letGo c => exact change_of_letGo? h
  | receive c => exact change_of_receive? h
  | conclude c => exact change_of_conclude? h
  | desist c => exact change_of_desist? h

theorem change_of_dispatchTo {w : WorkerId} {m : Metric} (h : p.dispatchTo w m = .ok p') :
    Change p (.dispatch w m) p' := by
  unfold dispatchTo at h
  split at h
  · rename_i worker hw
    split at h
    · rename_i alive
      cases h
      exact .dispatch hw alive
    · cases h
  · cases h

/-- A possible action is one of the changes. -/
theorem change_of_act? {a : Action} (h : p.act? a = some p') : Change p a p' := by
  cases a with
  | step step => exact change_of_step? h
  | dispatch w m =>
      simp only [act?] at h
      cases hd : p.dispatchTo w m with
      | error cause => rw [hd] at h; cases h
      | ok q =>
          rw [hd] at h
          cases h
          exact change_of_dispatchTo hd
  | list capacity kind cancelled =>
      -- There is no call without a channel.
      simp only [act?, beginList?, Option.map_map, Option.map_eq_some_iff] at h
      rcases h with ⟨channel, created, rfl⟩
      exact .begin (.list created)
  | delete kind names cancelled =>
      cases h
      exact .begin .delete
  | process work =>
      cases h
      exact .begin .process
  | cancel c =>
      cases h
      exact .cancel
  | drop c =>
      cases h
      exact .drop
  | openGate name =>
      cases h
      exact .openGate

end Inversion

end Pool

end ShardConsole
