import ShardConsole.Proofs.Pool.Run

/-!
# Queues of Workers

What a worker does to its queue and to its shard, over a whole run.

A queue grows at its end and is taken from at its front, so what a worker has been given
is what it has handled followed by what still waits. Nobody else touches a shard, so it
is the first shard of the worker with every handled message applied to it in turn. Both
hold whatever other workers, callers and closers do in between, and both end with the
worker's death.

`Change.workerChange` is where the actions are looked at: to one worker, an action either puts
something on its queue, or takes something from it, or is its death. The two invariants
then need three cases and not one for every action.

## Main definitions

* `Message.apply`, `replay`: What messages do to a shard.
* `WorkerChange`: What becomes of a worker at a moment.

## Theorems

* `Change.workerChange`: A change of the pool is one of these for every worker.
* `Run.mem_enqueued`: What is on a queue has been put there.
* `Run.enqueued_eq`: A living worker has handled, in order, what is not on its queue.
* `Run.shard_eq`: The shard of a living worker has had all handled messages applied.
* `Run.size_eq`: The number of workers does not change.
* `Run.allAlive_before`, `Run.allAlive_after`: Who is alive at the end was so all the time.
-/

namespace ShardConsole

namespace Pool

/-- A shard after a message has been handled. -/
def Message.apply (w : WorkerId) (shard : Shard) : Message → Shard
  | .metric m => shard.receive m
  | .work _ job =>
    match job.invoke w shard with
    | .failed => shard
    | .ran after _ _ => after

/-- A shard after messages have been handled one after the other. -/
def replay (w : WorkerId) (shard : Shard) (messages : List Message) : Shard :=
  messages.foldl (Message.apply w) shard

/-- What becomes of a worker at a moment. -/
inductive WorkerChange (m : Moment) (w : WorkerId) (worker worker' : Worker) : Prop
  | stay (queue : worker'.queue = worker.queue ++ m.sent w) (shard : worker'.shard = worker.shard)
      (handled : m.handled w = []) (alive : worker'.isAlive = worker.isAlive)
  | handle {message : Message} (queue : worker.queue = message :: worker'.queue)
      (shard : worker'.shard = message.apply w worker.shard)
      (handled : m.handled w = [message]) (sent : m.sent w = []) (alive : worker.isAlive = true)
      (still : worker'.isAlive = true)
  | die {c : CallId} {job : Work} {rest : List Message} (queue : worker'.queue = [])
      (dead : worker'.isAlive = false) (take : m.action = .step (.take w))
      (idle : worker.activity = .idle) (front : worker.queue = .work c job :: rest)
      (failed : job.invoke w worker.shard = .failed)

section Looking

variable {p : Pool} {v w : WorkerId} {c : CallId} {worker worker' : Worker} {call : Call}

theorem lt_size_of_worker (hw : p.workers[w]? = some worker) : w < p.size :=
  (Array.getElem?_eq_some_iff.mp hw).1

theorem lt_size_of_call (hc : p.calls[c]? = some call) : c < p.calls.size :=
  (Array.getElem?_eq_some_iff.mp hc).1

theorem queueOf_eq (hw : p.workers[w]? = some worker) : p.queueOf w = worker.queue := by
  rw [queueOf, hw, Option.map_some, Option.getD_some]

-- A call that submits has the next worker as its target, if that worker is alive.
theorem target?_eq (hc : p.calls[c]? = some call) (phase : call.phase = .submitting v)
    (hw : p.workers[v]? = some worker) :
    p.target? c = if worker.isAlive = true then some v else none := by
  rw [target?, hc, Option.map_some, phase]
  simp only [hw, Option.map_some, Option.getD_some]

theorem target?_eq_none (hc : p.calls[c]? = some call) (phase : call.phase = .submitting v)
    (hw : p.workers[v]? = none) : p.target? c = none := by
  rw [target?, hc, Option.map_some, phase]
  simp only [hw, Option.map_none, Option.getD_none, Bool.false_eq_true, if_false]

theorem messageOf?_eq (hc : p.calls[c]? = some call) :
    p.messageOf? c = some (.work c call.work) := by
  rw [messageOf?, hc, Option.map_some]

-- What a call puts on the queues, depending on whom it comes to.
theorem sent_of_give (hc : p.calls[c]? = some call) (phase : call.phase = .submitting v)
    (hv : p.workers[v]? = some worker) (alive : worker.isAlive = true) (w : WorkerId) :
    Moment.sent w ⟨p, .step (.submit c)⟩ = if v = w then [.work c call.work] else [] := by
  simp only [Moment.sent, target?_eq hc phase hv, alive, if_true, Option.some.injEq,
    messageOf?_eq hc, Option.toList_some]

theorem sent_of_refuse (hc : p.calls[c]? = some call) (phase : call.phase = .submitting v)
    (hv : p.workers[v]? = some worker) (dead : worker.isAlive = false) (w : WorkerId) :
    Moment.sent w ⟨p, .step (.submit c)⟩ = [] := by
  simp only [Moment.sent, target?_eq hc phase hv, dead, Bool.false_eq_true, if_false,
    reduceCtorEq]

theorem sent_of_await (hc : p.calls[c]? = some call) (phase : call.phase = .submitting v)
    (hv : p.workers[v]? = none) (w : WorkerId) : Moment.sent w ⟨p, .step (.submit c)⟩ = [] := by
  simp only [Moment.sent, target?_eq_none hc phase hv, reduceCtorEq, if_false]

-- A worker that is found after one was changed is that one or was there before.
theorem of_modifyWorker {change : Worker → Worker}
    (h : (p.modifyWorker v change).workers[w]? = some worker') :
    (v = w ∧ ∃ worker, p.workers[w]? = some worker ∧ worker' = change worker) ∨
      (v ≠ w ∧ p.workers[w]? = some worker') := by
  rw [getElem?_modifyWorker] at h
  by_cases hv : v = w
  · rw [if_pos hv] at h
    rcases Option.map_eq_some_iff.mp h with ⟨worker, hw, rfl⟩
    exact Or.inl ⟨hv, worker, hw, rfl⟩
  · rw [if_neg hv] at h
    exact Or.inr ⟨hv, h⟩

-- A fresh pool has no work on its queues.
theorem IsFresh.metric_of_mem (fresh : IsFresh p) {m : Message} (hm : m ∈ p.queueOf w) :
    m.IsMetric := by
  unfold queueOf at hm
  cases hw : p.workers[w]? with
  | none => simp [hw] at hm
  | some worker =>
      rw [hw, Option.map_some, Option.getD_some] at hm
      exact fresh.metrics w worker hw m hm

theorem IsFresh.callsOf_queueOf (fresh : IsFresh p) (w : WorkerId) :
    callsOf (p.queueOf w) = [] := by
  refine List.filterMap_eq_nil_iff.mpr fun m hm => ?_
  have metric := fresh.metric_of_mem hm
  cases m with
  | metric => rfl
  | work => cases metric

end Looking

section Workers

variable {p p' : Pool} {a : Action} {v w : WorkerId} {worker worker' : Worker} {m : Moment}

-- A worker that is not touched stays as it is.
theorem WorkerChange.refl (sent : m.sent w = []) (handled : m.handled w = []) :
    WorkerChange m w worker worker :=
  .stay (by rw [sent, List.append_nil]) rfl handled rfl

-- A worker that goes on to do something else stays as it is.
theorem workerChange_of_setActivity {activity : Activity}
    (h : (p.setActivity v activity).workers[w]? = some worker')
    (hv : p.workers[v]? = some worker) (alive : worker.activity ≠ .dead)
    (alive' : activity ≠ .dead) (sent : m.sent w = []) (handled : m.handled w = []) :
    ∃ worker, p.workers[w]? = some worker ∧ WorkerChange m w worker worker' := by
  rcases of_modifyWorker h with ⟨rfl, before, hw, rfl⟩ | ⟨_, hw⟩
  · rw [hv] at hw
    cases hw
    refine ⟨worker, hv, .stay (by rw [sent, List.append_nil]) rfl handled ?_⟩
    simp only [Worker.isAlive, alive, alive', ne_eq, not_false_eq_true]
  · exact ⟨worker', hw, .refl sent handled⟩

-- A worker on whose queue a message is put stays as it is but for that message.
theorem workerChange_of_enqueue {message : Message}
    (h : (p.enqueue v message).workers[w]? = some worker')
    (sent : m.sent w = if v = w then [message] else []) (handled : m.handled w = []) :
    ∃ worker, p.workers[w]? = some worker ∧ WorkerChange m w worker worker' := by
  rcases of_modifyWorker h with ⟨rfl, worker, hw, rfl⟩ | ⟨hv, hw⟩
  · rw [if_pos rfl] at sent
    exact ⟨worker, hw, .stay (by rw [sent]) rfl handled rfl⟩
  · rw [if_neg hv] at sent
    exact ⟨worker', hw, .refl sent handled⟩

/-- A change of the pool is, to every worker, something that is put on its queue, or
    something that it handles, or its death. -/
theorem Change.workerChange (change : Change p a p') (h : p'.workers[w]? = some worker') :
    ∃ worker, p.workers[w]? = some worker ∧ WorkerChange ⟨p, a⟩ w worker worker' := by
  cases change with
  | dispatch => exact workerChange_of_enqueue h rfl rfl
  | begin begins => cases begins <;> exact ⟨worker', h, .refl rfl rfl⟩
  | cancel => exact ⟨worker', h, .refl rfl rfl⟩
  | drop => exact ⟨worker', h, .refl rfl rfl⟩
  | openGate => exact ⟨worker', h, .refl rfl rfl⟩
  | give hc phase hv alive =>
      exact workerChange_of_enqueue h (sent_of_give hc phase hv alive w) rfl
  | refuse hc phase hv dead =>
      exact ⟨worker', h, .refl (sent_of_refuse hc phase hv dead w) rfl⟩
  | await hc phase hv =>
      exact ⟨worker', h, .refl (sent_of_await hc phase hv w) rfl⟩
  | @merge v worker metric rest hv idle queue =>
      -- The worker takes what is at the front of its queue, and the others do nothing.
      rcases of_modifyWorker h with ⟨rfl, _, hw, rfl⟩ | ⟨hne, hw⟩
      · cases hv.symm.trans hw
        refine ⟨worker, hv, .handle queue rfl ?_ rfl ?_ ?_⟩
        · simp only [Moment.handled, if_true, queueOf_eq hv, queue, List.head?_cons,
            Option.toList_some]
        · simp only [Worker.isAlive, idle, ne_eq, reduceCtorEq, not_false_eq_true, decide_true]
        · simp only [Worker.isAlive, idle, ne_eq, reduceCtorEq, not_false_eq_true, decide_true]
      · exact ⟨worker', hw, .refl rfl (by simp only [Moment.handled, if_neg hne])⟩
  | @run v worker c job rest shard report handoff hv idle queue ran =>
      rw [workers_modifyCall] at h
      rcases of_modifyWorker h with ⟨rfl, _, hw, rfl⟩ | ⟨hne, hw⟩
      · cases hv.symm.trans hw
        refine ⟨worker, hv, .handle queue ?_ ?_ rfl ?_ rfl⟩
        · simp only [Message.apply, ran]
        · simp only [Moment.handled, if_true, queueOf_eq hv, queue, List.head?_cons,
            Option.toList_some]
        · simp only [Worker.isAlive, idle, ne_eq, reduceCtorEq, not_false_eq_true, decide_true]
      · exact ⟨worker', hw, .refl rfl (by simp only [Moment.handled, if_neg hne])⟩
  | @die v worker _ _ _ hv idle queue failed =>
      have h : (p.modifyWorker v fun worker =>
        { worker with queue := [], activity := .dead }).workers[w]? = some worker' := h
      rcases of_modifyWorker h with ⟨rfl, _, hw, rfl⟩ | ⟨hne, hw⟩
      · cases hv.symm.trans hw
        exact ⟨worker, hv, .die rfl rfl rfl idle queue failed⟩
      · exact ⟨worker', hw, .refl rfl (by simp only [Moment.handled, if_neg hne])⟩
  | dropWork hv activity =>
      exact workerChange_of_setActivity h hv (by simp [activity]) (by simp) rfl rfl
  | passGate hv activity =>
      exact workerChange_of_setActivity h hv (by simp [activity]) (by simp) rfl rfl
  | discard hv activity =>
      exact workerChange_of_setActivity h hv (by simp [activity]) (by simp) rfl rfl
  | push hv activity =>
      exact workerChange_of_setActivity h hv (by simp [activity]) (by simp) rfl rfl
  | forgo hv activity =>
      exact workerChange_of_setActivity h hv (by simp [activity]) (by simp) rfl rfl
  | finish hv activity =>
      exact workerChange_of_setActivity h hv (by simp [activity]) (by simp) rfl rfl
  | signal hv activity =>
      exact workerChange_of_setActivity h hv (by simp [activity]) (by simp) rfl rfl
  | letGo => exact ⟨worker', h, .refl rfl rfl⟩
  | receive => exact ⟨worker', h, .refl rfl rfl⟩
  | conclude => exact ⟨worker', h, .refl rfl rfl⟩
  | desist => exact ⟨worker', h, .refl rfl rfl⟩

-- The dead do not come back.
theorem WorkerChange.isAlive_before (change : WorkerChange m w worker worker')
    (alive : worker'.isAlive = true) : worker.isAlive = true := by
  cases change with
  | stay _ _ _ same => exact same.symm.trans alive
  | handle _ _ _ _ before => exact before
  | die _ dead => exact absurd (dead.symm.trans alive) Bool.false_ne_true

end Workers

section Runs

variable {start p : Pool} {h : List Moment} {w : WorkerId} {worker : Worker}

-- What is on the queue of a worker, dead or alive, has been put there.
theorem Run.mem_enqueued {message : Message} (run : Run start h p)
    (hw : p.workers[w]? = some worker) (queued : message ∈ worker.queue) :
    message ∈ enqueued start w h := by
  induction run generalizing worker with
  | start =>
      rw [enqueued, queueOf_eq hw]
      exact List.mem_append_left _ queued
  | @next h p p' a run act ih =>
      rcases (change_of_act? act).workerChange hw with ⟨before, hb, change⟩
      rw [enqueued_snoc, List.mem_append]
      cases change with
      | stay queue =>
          rw [queue, List.mem_append] at queued
          exact queued.imp_left (ih hb)
      | handle queue =>
          refine Or.inl (ih hb ?_)
          rw [queue]
          exact List.mem_cons_of_mem _ queued
      | die none =>
          rw [none] at queued
          cases queued

-- Nothing is put on the queue of the dead.
theorem Change.sent_of_dead {p' : Pool} {a : Action} (change : Change p a p')
    (hw : p.workers[w]? = some worker) (dead : worker.isAlive = false) :
    Moment.sent w ⟨p, a⟩ = [] := by
  have other {v : WorkerId} {living : Worker} (hv : p.workers[v]? = some living)
      (alive : living.isAlive = true) : v ≠ w := by
    intro same
    subst same
    cases hw.symm.trans hv
    exact absurd (dead.symm.trans alive) Bool.false_ne_true
  cases change with
  | dispatch hv alive => exact if_neg (other hv alive)
  | begin begins => cases begins <;> rfl
  | give hc phase hv alive => rw [sent_of_give hc phase hv alive, if_neg (other hv alive)]
  | refuse hc phase hv gone => exact sent_of_refuse hc phase hv gone w
  | await hc phase hv => exact sent_of_await hc phase hv w
  | _ => rfl

/-- The queue of a dead worker is empty. -/
theorem Run.queue_of_dead (run : Run start h p) (fresh : IsFresh start)
    (hw : p.workers[w]? = some worker) (dead : worker.isAlive = false) : worker.queue = [] := by
  induction run generalizing worker with
  | start =>
      have idle := fresh.idle w worker hw
      simp [Worker.isAlive, idle] at dead
  | @next h p p' a run act ih =>
      have change := change_of_act? act
      rcases change.workerChange hw with ⟨before, hb, changed⟩
      cases changed with
      | stay queue _ _ same =>
          have gone := same.symm.trans dead
          rw [queue, ih hb gone, change.sent_of_dead hb gone, List.append_nil]
      | handle _ _ _ _ _ still => exact absurd (dead.symm.trans still) Bool.false_ne_true
      | die none => exact none

/-- A worker that is alive has handled, in the order in which it was given them, the
    messages that are not on its queue. -/
theorem Run.enqueued_eq (run : Run start h p) (hw : p.workers[w]? = some worker)
    (alive : worker.isAlive = true) : enqueued start w h = handled w h ++ worker.queue := by
  induction run generalizing worker with
  | start =>
      rw [enqueued, queueOf_eq hw, handled, List.flatMap_nil, List.flatMap_nil,
        List.append_nil, List.nil_append]
  | @next h p p' a run act ih =>
      rcases (change_of_act? act).workerChange hw with ⟨before, hb, change⟩
      rw [enqueued_snoc, handled_snoc]
      -- A message comes in at the end of the queue, or it moves from its front to what has
      -- been handled; nothing is said of a worker that dies.
      cases change with
      | stay queue shard handled alive' =>
          rw [ih hb (alive'.symm.trans alive), handled, queue, List.append_nil, List.append_assoc]
      | handle queue shard handled sent alive' =>
          rw [ih hb alive', handled, sent, queue, List.append_nil, List.append_assoc,
            List.singleton_append]
      | die _ dead => simp only [dead, Bool.false_eq_true] at alive

/-- The shard of a worker that is alive is the one with which it started, with the
    messages applied that it has handled. -/
theorem Run.shard_eq (run : Run start h p) (hw : p.workers[w]? = some worker)
    (alive : worker.isAlive = true) : ∃ first, start.workers[w]? = some first ∧
      worker.shard = replay w first.shard (handled w h) := by
  induction run generalizing worker with
  | start => exact ⟨worker, hw, rfl⟩
  | @next h p p' a run act ih =>
      rcases (change_of_act? act).workerChange hw with ⟨before, hb, change⟩
      rw [handled_snoc]
      cases change with
      | stay queue shard handled alive' =>
          rcases ih hb (alive'.symm.trans alive) with ⟨first, hf, eq⟩
          exact ⟨first, hf, by rw [handled, List.append_nil, shard, eq]⟩
      | handle queue shard handled sent alive' =>
          rcases ih hb alive' with ⟨first, hf, eq⟩
          refine ⟨first, hf, ?_⟩
          rw [handled, shard, eq, replay, replay, List.foldl_append, List.foldl_cons,
            List.foldl_nil]
      | die _ dead => simp only [dead, Bool.false_eq_true] at alive

-- The number of workers does not change.
theorem Change.size_eq {p' : Pool} {a : Action} (change : Change p a p') : p'.size = p.size := by
  cases change with
  | dispatch => exact size_modifyWorker p _ _
  | begin => rfl
  | cancel => rfl
  | drop => rfl
  | openGate => rfl
  | die => exact size_modifyWorker p _ _
  | _ => simp only [enqueue, setActivity, size_modifyWorker, size_modifyCall]

theorem Run.size_eq (run : Run start h p) : p.size = start.size := by
  induction run with
  | start => rfl
  | next run act ih => rw [(change_of_act? act).size_eq, ih]

-- A worker stays where it is, and what becomes of it is one of the changes of workers.
theorem Change.workerChange_of {p' : Pool} {a : Action} (change : Change p a p')
    (hw : p.workers[w]? = some worker) :
    ∃ worker', p'.workers[w]? = some worker' ∧ WorkerChange ⟨p, a⟩ w worker worker' := by
  have hlt : w < p'.size := by
    rw [change.size_eq]
    exact lt_size_of_worker hw
  have hw' : p'.workers[w]? = some p'.workers[w] := Array.getElem?_eq_getElem hlt
  rcases change.workerChange hw' with ⟨before, hb, changed⟩
  cases hw.symm.trans hb
  exact ⟨_, hw', changed⟩

-- Workers that are alive after an action were alive before it.
theorem AllAlive.of_act? {p' : Pool} {a : Action} (alive : p'.AllAlive)
    (act : p.act? a = some p') : p.AllAlive := by
  intro w worker hw
  rcases (change_of_act? act).workerChange_of hw with ⟨worker', hw', changed⟩
  exact changed.isAlive_before (alive w worker' hw')

-- Whoever has been buried is dead.
theorem not_allAlive_bury {lost : List Message} (hw : p.workers[w]? = some worker) :
    ¬ (p.bury w lost).AllAlive := by
  intro alive
  have buried : (p.bury w lost).workers[w]? =
      some { worker with queue := [], activity := .dead } := by
    refine (getElem?_modifyWorker p w _ w).trans ?_
    rw [if_pos rfl, hw, Option.map_some]
  cases alive w _ buried

/-- Workers that are alive at the end of a run were alive at each of its moments. -/
theorem Run.allAlive_before {h₁ h₂ : List Moment} {m : Moment}
    (run : Run start (h₁ ++ m :: h₂) p) (alive : p.AllAlive) : m.before.AllAlive := by
  induction h₂ using List.reverseRecOn generalizing p with
  | nil => exact alive.of_act? run.unsnoc.2
  | append_singleton h₂ last ih =>
      rw [← List.cons_append, ← List.append_assoc] at run
      exact ih run.unsnoc.1 (alive.of_act? run.unsnoc.2)

/-- Workers that are alive at the end of a run were alive after each of its moments. -/
theorem Run.allAlive_after {q : Pool} {h₁ h₂ : List Moment} {m : Moment}
    (run : Run start (h₁ ++ m :: h₂) p) (alive : p.AllAlive)
    (act : m.before.act? m.action = some q) : q.AllAlive := by
  induction h₂ using List.reverseRecOn generalizing p with
  | nil =>
      cases act.symm.trans run.unsnoc.2
      exact alive
  | append_singleton h₂ last ih =>
      rw [← List.cons_append, ← List.append_assoc] at run
      exact ih run.unsnoc.1 (alive.of_act? run.unsnoc.2)

theorem enqueued_append (start : Pool) (w : WorkerId) (h₁ h₂ : List Moment) :
    enqueued start w (h₁ ++ h₂) = enqueued start w h₁ ++ h₂.flatMap (Moment.sent w) := by
  simp only [enqueued, List.flatMap_append, List.append_assoc]

end Runs

end Pool

end ShardConsole
