import Mathlib.Data.List.Nodup
import ShardConsole.Proofs.Pool.Tickets

/-!
# Deliveries in a Run

How often the work of a call is put on the queues, and how often it is run.

A call goes through the workers in the order of their numbers, so it is put on each queue
at most once, and it is on the queues, or has been, of the workers from which it has a
ticket. What a living worker has been given it has run, unless it still waits. Together
with the accounts of tickets this says when everybody is done: once all tickets of a call
are resolved, its work has been run by each worker that it was given to, by each of them
exactly once, and by nobody else.

## Main definitions

* `Deliveries`: The work of a call has been given once to each worker that has a ticket.
* `Moment.Runs`: A worker runs the work of a call at a moment.

## Theorems

* `CallChange.work_eq`: A call keeps its work.
* `met_eq_nil`, `handed_eq_nil`: Nothing happens for a call that nobody has to do with.
* `Run.deliveries`: Deliveries are right in every state of a run.
* `Run.count_enqueued`: On which queues the work of a call has been put, and how often.
* `Run.once_of_given`: A living worker has run what it was given, or has it on its queue.
* `Moment.count_met`: Work that is taken from a queue is run by the owner of the queue.
* `Run.invocations_nodup`: No worker runs the work of a call twice.
* `Run.invocations_perm`: Once all tickets are resolved, every worker has run the work.
* `Run.work_of_queue`: The work that a worker runs for a call is the work of the call.
* `Run.runs_of_met`: A worker that meets the work of a call and survives runs it.
* `Run.silent`: Nothing has happened yet for a call that has not been made.
-/

namespace ShardConsole

namespace Pool

/-- The work of a call has been given, once, to each worker from which it has a ticket. -/
structure Deliveries (start : Pool) (h : List Moment) (p : Pool) : Prop where
  once : ∀ w : WorkerId, (callsOf (enqueued start w h)).Nodup
  given : ∀ (w : WorkerId) (c : CallId), c ∈ callsOf (enqueued start w h) ↔
    ∃ call, p.calls[c]? = some call ∧ w < call.tickets.size
  work : ∀ (w : WorkerId) (c : CallId) (job : Work), .work c job ∈ enqueued start w h →
    ∃ call, p.calls[c]? = some call ∧ call.work = job

/-- At a moment a worker runs the work of a call. It is idle and takes the work from the front
    of its queue, applies it, under its own number, to its own shard, and then holds it for
    the hand-off. -/
def Moment.Runs (m : Moment) (c : CallId) (job : Work) (visit : WorkerId × Shard) : Prop :=
  ∃ rest after report handoff next,
    m.action = .step (.take visit.1) ∧
    m.before.workers[visit.1]? = some ⟨visit.2, .work c job :: rest, .idle⟩ ∧
    job.invoke visit.1 visit.2 = .ran after report handoff ∧
    m.before.act? m.action = some next ∧
    next.workers[visit.1]? = some ⟨after, rest, .holding c handoff⟩

section Steps

variable {p p' : Pool} {a : Action} {c : CallId} {w : WorkerId} {call call' : Call} {job : Work}

-- A call that has been made stays, and what becomes of it is one of the changes of calls.
theorem Change.callChange_of (change : Change p a p') (hc : p.calls[c]? = some call) :
    ∃ call', p'.calls[c]? = some call' ∧ CallChange p c call a call' := by
  have hlt : c < p.calls.size := (lt_size_of_call hc)
  have hc' := Array.getElem?_eq_getElem (Nat.lt_of_lt_of_le hlt change.calls_size_le)
  refine ⟨_, hc', ?_⟩
  rcases change.callChange hc' with ⟨same, _⟩ | ⟨before, hb, changed⟩
  · exact absurd hlt (same ▸ Nat.lt_irrefl _)
  · cases hc.symm.trans hb
    exact changed

/-- A call keeps its work. -/
theorem CallChange.work_eq (change : CallChange p c call a call') : call'.work = call.work := by
  cases change with
  | _ =>
    simp

-- A call gets a ticket exactly when its work is put on a queue.
theorem CallChange.lt_tickets_size_iff (change : CallChange p c call a call')
    (size : call.tickets.size = call.given p.size) :
    w < call'.tickets.size ↔
      w < call.tickets.size ∨ c ∈ callsOf (Moment.sent w ⟨p, a⟩) := by
  cases change with
  | stay avoids => simp [avoids.sent w]
  | @give v phase inside sent =>
      simp only [Call.given, phase] at size
      rw [sent w, Call.give, Array.size_push, size]
      by_cases hv : v = w
      · simp [hv]
      · simp only [if_neg hv, callsOf_nil, List.not_mem_nil, or_false]
        exact ⟨fun hlt => Nat.lt_of_le_of_ne (Nat.le_of_lt_succ hlt) (Ne.symm hv),
          Nat.lt_succ_of_lt⟩
  | refuse phase hw dead sent =>
      simp [sent w]
  | await phase outside sent => simp [sent w]
  | _ =>
    simp [Moment.sent]

-- What a call puts on a queue is its work.
theorem work_of_mem_sent (hm : .work c job ∈ Moment.sent w ⟨p, a⟩) :
    ∃ call, p.calls[c]? = some call ∧ call.work = job := by
  unfold Moment.sent at hm
  split at hm
  · split at hm <;> simp at hm
  · split at hm
    · unfold messageOf? at hm
      rw [Option.mem_toList, Option.map_eq_some_iff] at hm
      rcases hm with ⟨call, hc, same⟩
      cases same
      exact ⟨call, hc, rfl⟩
    · cases hm
  · cases hm

/-- Nothing is handed over for a call for which nobody is busy. -/
theorem handed_eq_nil (idle : ∀ (w : WorkerId) (worker : Worker), p.workers[w]? = some worker →
    worker.activity.call? ≠ some c) : Moment.handed c ⟨p, a⟩ = [] := by
  unfold Moment.handed
  split
  · split
    · rename_i w _ _ _ d text intake activity _
      rcases Option.map_eq_some_iff.mp activity with ⟨worker, hw, activity⟩
      refine if_neg fun guard => idle w worker hw ?_
      rw [activity, guard.1]
      rfl
    · rfl
  · rfl

/-- The work of a call is not run while it is on no queue. -/
theorem met_eq_nil (unqueued : ∀ (w : WorkerId) (worker : Worker),
    p.workers[w]? = some worker → c ∉ callsOf worker.queue) : Moment.met c ⟨p, a⟩ = [] := by
  refine List.eq_nil_iff_forall_not_mem.mpr ?_
  rintro ⟨w, shard⟩ met
  rcases queue_of_met met with ⟨_, worker, job, rest, hw, _, queue⟩
  exact unqueued w worker hw (by simp [queue])

-- Only a caller that waits takes parts.
theorem Change.received_eq_nil (change : Change p a p')
    (waiting : ∀ call, p.calls[c]? = some call → call.phase ≠ .waiting) :
    Moment.received c ⟨p, a⟩ = [] := by
  cases change with
  | begin begins => cases begins <;> rfl
  | receive hd hi phase parts =>
      refine if_neg fun same => ?_
      subst same
      exact waiting _ hd phase
  | _ => rfl

end Steps

section Runs

variable {start p : Pool} {h : List Moment} {c : CallId} {w : WorkerId} {worker : Worker}
  {call : Call}

/-- Deliveries are right in every state of a run. -/
theorem Run.deliveries (run : Run start h p) (fresh : IsFresh start) : Deliveries start h p := by
  induction run with
  | start =>
      constructor
      case once => simp [enqueued, fresh.callsOf_queueOf]
      case given => simp [enqueued, fresh.callsOf_queueOf, fresh.calls]
      case work =>
        intro w c job hm
        rw [enqueued, List.flatMap_nil, List.append_nil] at hm
        exact absurd (fresh.metric_of_mem hm) not_false
  | @next h p p' a run act ih =>
      have acc := Run.accounts run fresh
      have change := change_of_act? act
      constructor
      case once =>
        intro w
        rw [enqueued_snoc, callsOf_append]
        refine List.nodup_append.mpr ⟨ih.once w, nodup_sent, ?_⟩
        rintro c before _ sent rfl
        -- A call puts its work on the queue of the worker from which it has no ticket yet.
        rcases (ih.given w c).mp before with ⟨call, hc, hlt⟩
        rcases submitting_of_mem_sent sent with ⟨_, same, hc', phase⟩
        cases hc.symm.trans hc'
        have size := (acc.given c call hc).1
        simp only [Call.given, phase] at size
        exact absurd hlt (size ▸ Nat.lt_irrefl _)
      case given =>
        intro w c
        rw [enqueued_snoc, callsOf_append, List.mem_append, ih.given w c]
        constructor
        · intro given
          have known : ∃ call, p.calls[c]? = some call := by
            rcases given with ⟨call, hc, _⟩ | sent
            · exact ⟨call, hc⟩
            · rcases submitting_of_mem_sent sent with ⟨_, call, hc, _⟩
              exact ⟨call, hc⟩
          rcases known with ⟨call, hc⟩
          rcases change.callChange_of hc with ⟨call', hc', changed⟩
          refine ⟨call', hc', (changed.lt_tickets_size_iff (acc.given c call hc).1).mpr ?_⟩
          rcases given with ⟨same, hs, hlt⟩ | sent
          · cases hc.symm.trans hs
            exact Or.inl hlt
          · exact Or.inr sent
        · rintro ⟨call', hc', hlt⟩
          rcases change.callChange hc' with ⟨_, begins⟩ | ⟨call, hc, changed⟩
          · cases begins <;> simp [Call.start] at hlt
          · rw [changed.lt_tickets_size_iff (acc.given c call hc).1] at hlt
            exact hlt.imp_left fun hlt => ⟨call, hc, hlt⟩
      case work =>
        intro w c job hm
        rw [enqueued_snoc, List.mem_append] at hm
        have known : ∃ call, p.calls[c]? = some call ∧ call.work = job := by
          rcases hm with before | sent
          · exact ih.work w c job before
          · exact work_of_mem_sent sent
        rcases known with ⟨call, hc, rfl⟩
        rcases change.callChange_of hc with ⟨call', hc', changed⟩
        exact ⟨call', hc', changed.work_eq⟩

/-- The work of a call has been put once on the queue of each worker from which it has a
    ticket, and on no other one. -/
theorem Run.count_enqueued (run : Run start h p) (fresh : IsFresh start)
    (hc : p.calls[c]? = some call) (w : WorkerId) :
    (callsOf (enqueued start w h)).count c = if w < call.tickets.size then 1 else 0 := by
  have deliveries := run.deliveries fresh
  by_cases hlt : w < call.tickets.size
  · rw [if_pos hlt]
    exact List.count_eq_one_of_mem (deliveries.once w) ((deliveries.given w c).mpr ⟨call, hc, hlt⟩)
  · rw [if_neg hlt, List.count_eq_zero]
    intro mem
    rcases (deliveries.given w c).mp mem with ⟨same, hs, given⟩
    cases hc.symm.trans hs
    exact hlt given

/-- Work that is taken from a queue is run by the owner of the queue. -/
theorem Moment.count_met (m : Moment) (c : CallId) (w : WorkerId) :
    ((m.met c).map Prod.fst).count w = (callsOf (m.handled w)).count c := by
  rcases m with ⟨p, a⟩
  unfold Moment.met Moment.handled
  split
  · rename_i v _
    cases hv : p.workers[v]? with
    | none =>
        by_cases same : v = w
        · subst same
          simp [queueOf, hv]
        · simp [same]
    | some worker =>
        by_cases same : v = w
        · subst same
          rw [if_pos rfl, queueOf_eq hv]
          cases queue : worker.queue with
          | nil => simp [queue]
          | cons message rest =>
              cases message with
              | metric => simp [queue, Message.call?]
              | work d job =>
                  by_cases hd : d = c <;> simp [queue, Message.call?, hd]
        · simp only [if_neg same, callsOf_nil, List.count_nil]
          split <;> simp [same]
  · simp

theorem count_invocations (h : List Moment) (c : CallId) (w : WorkerId) :
    ((invocations c h).map Prod.fst).count w = (callsOf (handled w h)).count c := by
  induction h using List.reverseRecOn with
  | nil => simp [invocations, handled]
  | append_singleton h m ih =>
      rw [invocations_snoc, handled_snoc, List.map_append, callsOf_append, List.count_append,
        List.count_append, ih, m.count_met c w]

-- Nobody but the workers takes anything from a queue.
theorem Run.handled_eq_nil (run : Run start h p) (outside : p.workers[w]? = none) :
    handled w h = [] := by
  induction run with
  | start => rfl
  | @next h p p' a run act ih =>
      have size : p'.workers.size = p.workers.size := (change_of_act? act).size_eq
      rw [Array.getElem?_eq_none_iff, size, ← Array.getElem?_eq_none_iff] at outside
      rw [handled_snoc, ih outside, List.nil_append]
      unfold Moment.handled
      split
      · split
        · simp [queueOf, outside]
        · rfl
      · rfl

/-- A living worker has run the work of a call once that it was given, or it has the work on
    its queue once. -/
theorem Run.once_of_given (run : Run start h p) (fresh : IsFresh start)
    (hw : p.workers[w]? = some worker) (alive : worker.isAlive = true)
    (given : c ∈ callsOf (enqueued start w h)) :
    ((invocations c h).map Prod.fst).count w + (callsOf worker.queue).count c = 1 := by
  have once := List.count_eq_one_of_mem ((run.deliveries fresh).once w) given
  rw [run.enqueued_eq hw alive, callsOf_append, List.count_append] at once
  rw [count_invocations]
  exact once

-- A living worker takes the work of a call from its queue at most once.
theorem Run.nodup_handled (run : Run start h p) (fresh : IsFresh start) (alive : p.AllAlive)
    (w : WorkerId) : (callsOf (handled w h)).Nodup := by
  cases hw : p.workers[w]? with
  | none => simp [run.handled_eq_nil hw]
  | some worker =>
      have once := (run.deliveries fresh).once w
      rw [run.enqueued_eq hw (alive w worker hw), callsOf_append] at once
      exact (List.nodup_append.mp once).1

/-- No worker runs the work of a call twice. -/
theorem Run.invocations_nodup (run : Run start h p) (fresh : IsFresh start)
    (alive : p.AllAlive) (c : CallId) : ((invocations c h).map Prod.fst).Nodup := by
  rw [List.nodup_iff_count_le_one]
  intro w
  rw [count_invocations]
  exact List.nodup_iff_count_le_one.mp (run.nodup_handled fresh alive w) c

/-- Once all tickets of a call are resolved, each worker that it was given to has run its
    work, exactly once, and nobody else has. -/
theorem Run.invocations_perm (run : Run start h p) (fresh : IsFresh start) (alive : p.AllAlive)
    (hc : p.calls[c]? = some call) (resolved : call.isResolved = true) :
    ((invocations c h).map Prod.fst).Perm (List.range call.tickets.size) := by
  have acc := run.accounts fresh
  have deliveries := run.deliveries fresh
  rw [List.perm_ext_iff_of_nodup (run.invocations_nodup fresh alive c) List.nodup_range]
  intro w
  rw [← List.count_pos_iff, count_invocations, List.count_pos_iff, List.mem_range]
  have given : c ∈ callsOf (enqueued start w h) ↔ w < call.tickets.size := by
    rw [deliveries.given w c]
    constructor
    · rintro ⟨same, hs, hlt⟩
      cases hc.symm.trans hs
      exact hlt
    · exact fun hlt => ⟨call, hc, hlt⟩
  cases hw : p.workers[w]? with
  | none =>
      -- Only workers are given anything, and only they take anything.
      have inside := acc.given c call hc
      have outside : p.size ≤ w := Array.getElem?_eq_none_iff.mp hw
      rw [run.handled_eq_nil hw, callsOf_nil]
      simp only [List.not_mem_nil, false_iff]
      omega
  | some worker =>
      -- What is not owed any more does not wait on the queue.
      have notOwed := acc.not_owed hw hc resolved
      rw [Worker.owed, List.mem_append, not_or] at notOwed
      rw [← given, run.enqueued_eq hw (alive w worker hw), callsOf_append, List.mem_append]
      simp only [notOwed.2, or_false]

/-- A worker that runs the work of a call in a run runs the work that the call has. -/
theorem Run.work_of_queue {job : Work} {rest : List Message} (run : Run start h p)
    (fresh : IsFresh start) (hw : p.workers[w]? = some worker)
    (queue : worker.queue = .work c job :: rest) (hc : p.calls[c]? = some call) :
    job = call.work := by
  have mem : .work c job ∈ enqueued start w h :=
    run.mem_enqueued hw (by rw [queue]; exact List.mem_cons_self)
  rcases (run.deliveries fresh).work w c job mem with ⟨same, hs, eq⟩
  cases hc.symm.trans hs
  exact eq.symm

-- The queues that a moment of a run met held the work that the call has.
theorem Run.work_of_met {m : Moment} {visit : WorkerId × Shard} (run : Run start h p)
    (fresh : IsFresh start) (hc : p.calls[c]? = some call) (hm : m ∈ h)
    (met : visit ∈ m.met c) :
    m.action = .step (.take visit.1) ∧ ∃ worker rest, m.before.workers[visit.1]? = some worker ∧
      worker.shard = visit.2 ∧ worker.queue = .work c call.work :: rest := by
  rcases List.append_of_mem hm with ⟨h₁, h₂, rfl⟩
  rcases queue_of_met met with ⟨action, worker, job, rest, hw, shard, queue⟩
  -- What is on a queue has been put there by its call, whose work does not change.
  have before := Run.mem_enqueued run.split.1 hw (by rw [queue]; exact List.mem_cons_self)
  have mem : .work c job ∈ enqueued start visit.1 (h₁ ++ m :: h₂) := by
    rw [enqueued_append]
    exact List.mem_append_left _ before
  rcases (run.deliveries fresh).work visit.1 c job mem with ⟨same, hs, rfl⟩
  cases hc.symm.trans hs
  exact ⟨action, worker, rest, hw, shard, queue⟩

/-- A worker that meets the work of a call and survives it runs it on its own shard. -/
theorem Run.runs_of_met {m : Moment} {visit : WorkerId × Shard} (run : Run start h p)
    (fresh : IsFresh start) (hc : p.calls[c]? = some call) (hm : m ∈ h) (met : visit ∈ m.met c)
    (survives : call.work.invoke visit.1 visit.2 ≠ .failed) : m.Runs c call.work visit := by
  rcases visit with ⟨w, shard⟩
  rcases run.work_of_met fresh hc hm met with ⟨action, worker, rest, hw, rfl, queue⟩
  rcases List.append_of_mem hm with ⟨h₁, h₂, rfl⟩
  rcases run.split with ⟨_, next, act, _⟩
  rcases m with ⟨q, a⟩
  subst action
  cases change_of_act? act with
  | begin begins => cases begins
  | merge hv _ other =>
      cases hw.symm.trans hv
      rw [queue] at other
      cases other
  | die hv _ same failed =>
      cases hw.symm.trans hv
      cases queue.symm.trans same
      exact absurd failed survives
  | run hv idle same ran =>
      cases hw.symm.trans hv
      cases queue.symm.trans same
      refine ⟨rest, _, _, _, _, rfl, ?_, ran, act, ?_⟩
      · rw [← queue, ← idle]
        exact hw
      · rw [workers_modifyCall, getElem?_modifyWorker, if_pos rfl, hw, Option.map_some]

/-- Nothing has happened yet for a call that has not been made. -/
theorem Run.silent (run : Run start h p) (fresh : IsFresh start) (unknown : p.calls.size ≤ c) :
    invocations c h = [] ∧ handed c h = [] ∧ received c h = [] := by
  induction run with
  | start => exact ⟨rfl, rfl, rfl⟩
  | @next h p p' a run act ih =>
      have acc := Run.accounts run fresh
      have change := change_of_act? act
      have unknown : p.calls.size ≤ c := Nat.le_trans change.calls_size_le unknown
      rcases ih unknown with ⟨met, handed, received⟩
      -- Whoever is busy for a call or has its work on the queue owes it a ticket.
      have owed (w : WorkerId) (worker : Worker) (hw : p.workers[w]? = some worker) :
          c ∉ worker.owed := fun owed =>
        absurd (acc.known w worker hw c owed) (Nat.not_lt.mpr unknown)
      rw [invocations_snoc, handed_snoc, received_snoc, met, handed, received, met_eq_nil,
        handed_eq_nil, change.received_eq_nil]
      · exact ⟨rfl, rfl, rfl⟩
      · intro call hc
        exact absurd (lt_size_of_call hc) (Nat.not_lt.mpr unknown)
      · intro w worker hw busy
        exact owed w worker hw (Worker.mem_owed_of_busy busy)
      · intro w worker hw queued
        exact owed w worker hw (Worker.mem_owed_of_queued queued)

end Runs

end Pool

end ShardConsole
