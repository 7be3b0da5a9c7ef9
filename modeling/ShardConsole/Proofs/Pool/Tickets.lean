import ShardConsole.Proofs.Pool.Calls

/-!
# Tickets in a Run

Which tickets are owed, and when.

A worker owes a ticket to every call whose work it has been given and to which it has not
yet given the completion signal: the call for which it is doing something, and the calls
whose work waits on its queue. `Change.owed_append` says how that list moves. What is put
on the queue comes in at its end, and what is signalled, or lost by the worker's death,
goes out at its front. A call knows about its tickets by itself, and `Accounts` is the
invariant that the two sides agree: a worker owes a call a ticket exactly if the call has
that ticket as a pending one.

From this follows what waiting for all tickets is worth. A call that has been put on all
queues has a ticket from every worker, so when all are resolved no worker is still busy
for the call or has its work on the queue.

## Main definitions

* `Call.given`: How many workers a call has been given to, by its phase.
* `Accounts`: Calls and workers agree on the tickets that are owed.

## Theorems

* `Change.owed_append`: How the list of owed tickets moves.
* `Run.accounts`: Accounts agree in every state of a run.
* `Accounts.not_owed`: Nobody owes a ticket to a call whose tickets are resolved.
-/

namespace ShardConsole

namespace Pool

/-- How many workers the work of a call has been given to, as far as its phase tells. -/
def Call.given (workers : Nat) (call : Call) : Nat :=
  match call.phase with
  | .submitting next => next
  | .refused cause => cause.worker
  | .waiting | .returned _ | .dropped => workers

/-- Calls and workers agree on the tickets that are owed. -/
structure Accounts (p : Pool) : Prop where
  /-- A call has a ticket from each worker that it has been given to. -/
  given : ∀ (c : CallId) (call : Call), p.calls[c]? = some call →
    call.tickets.size = call.given p.size ∧ call.given p.size ≤ p.size
  /-- Only calls that have been made are owed anything. -/
  known : ∀ (w : WorkerId) (worker : Worker), p.workers[w]? = some worker →
    ∀ c ∈ worker.owed, c < p.calls.size
  /-- No call is owed two tickets by one worker. -/
  once : ∀ (w : WorkerId) (worker : Worker), p.workers[w]? = some worker → worker.owed.Nodup
  /-- The tickets that are owed are the pending ones. -/
  owes : ∀ (w : WorkerId) (worker : Worker) (c : CallId) (call : Call),
    p.workers[w]? = some worker → p.calls[c]? = some call →
    (c ∈ worker.owed ↔ call.tickets[w]? = some .pending)
  /-- Only the dead have lost a ticket. -/
  lost : ∀ (w : WorkerId) (worker : Worker) (c : CallId) (call : Call),
    p.workers[w]? = some worker → p.calls[c]? = some call →
    call.tickets[w]? = some .lost → worker.isAlive = false

section Owed

variable {p p' : Pool} {a : Action} {c : CallId} {v w : WorkerId} {worker worker' : Worker}

theorem Worker.mem_owed_of_busy (busy : worker.activity.call? = some c) : c ∈ worker.owed := by
  rw [owed, busy, Option.toList_some]
  exact List.mem_append_left _ (List.mem_singleton_self c)

theorem Worker.mem_owed_of_queued (queued : c ∈ callsOf worker.queue) : c ∈ worker.owed :=
  List.mem_append_right _ queued

-- A worker that goes on to do something else for the same call owes what it owed.
theorem owed_append_of_setActivity {activity : Activity} {m : Moment}
    (h : (p.setActivity v activity).workers[w]? = some worker')
    (hv : p.workers[v]? = some worker) (same : activity.call? = worker.activity.call?)
    (sent : m.sent w = []) (gone : m.signalled w ++ m.lost w = []) :
    ∃ worker, p.workers[w]? = some worker ∧
      worker.owed ++ callsOf (m.sent w) = m.signalled w ++ m.lost w ++ worker'.owed := by
  rw [sent, gone, callsOf_nil]
  rcases of_modifyWorker h with ⟨rfl, before, hw, rfl⟩ | ⟨_, hw⟩
  · cases hv.symm.trans hw
    refine ⟨worker, hv, ?_⟩
    simp only [Worker.owed, same, List.append_nil, List.nil_append]
  · exact ⟨worker', hw, List.append_nil _⟩

/-- What is given to a worker comes in at the end of what it owes, and what it signals or
    loses goes out at the front. -/
theorem Change.owed_append (change : Change p a p') (h : p'.workers[w]? = some worker') :
    ∃ worker, p.workers[w]? = some worker ∧
      worker.owed ++ callsOf (Moment.sent w ⟨p, a⟩) =
        Moment.signalled w ⟨p, a⟩ ++ Moment.lost w ⟨p, a⟩ ++ worker'.owed := by
  cases change with
  | @dispatch v _ m hv alive =>
      rcases of_modifyWorker h with ⟨rfl, worker, hw, rfl⟩ | ⟨hne, hw⟩
      · refine ⟨worker, hw, ?_⟩
        simp [Moment.sent, Moment.signalled, Moment.lost, Worker.owed]
      · exact ⟨worker', hw, by simp [Moment.sent, Moment.signalled, Moment.lost, hne]⟩
  | begin begins =>
      cases begins <;> exact ⟨worker', h, List.append_nil _⟩
  | cancel => exact ⟨worker', h, List.append_nil _⟩
  | drop => exact ⟨worker', h, List.append_nil _⟩
  | openGate => exact ⟨worker', h, List.append_nil _⟩
  | @give d call v worker hd phase hv alive =>
      rw [sent_of_give hd phase hv alive w]
      -- The new ticket is the last one to be signalled.
      rcases of_modifyWorker h with ⟨rfl, before, hw, rfl⟩ | ⟨hne, hw⟩
      · refine ⟨before, hw, ?_⟩
        simp [Moment.signalled, Moment.lost, Worker.owed]
      · exact ⟨worker', hw, by simp [Moment.signalled, Moment.lost, hne]⟩
  | refuse hd phase hv dead =>
      rw [sent_of_refuse hd phase hv dead w]
      exact ⟨worker', h, List.append_nil _⟩
  | await hd phase hv =>
      rw [sent_of_await hd phase hv w]
      exact ⟨worker', h, List.append_nil _⟩
  | @merge v worker m rest hv idle queue =>
      rcases of_modifyWorker h with ⟨rfl, before, hw, rfl⟩ | ⟨hne, hw⟩
      · cases hv.symm.trans hw
        refine ⟨worker, hv, ?_⟩
        simp [Moment.sent, Moment.signalled, Moment.lost, hv, Worker.isDoomed, queue,
          Worker.owed]
      · refine ⟨worker', hw, ?_⟩
        simp [Moment.sent, Moment.signalled, Moment.lost, hw, hne]
  | @run v worker d job rest shard report handoff hv idle queue ran =>
      -- The ticket that comes first is owed by the queue before and by the activity after.
      rcases of_modifyWorker h with ⟨rfl, before, hw, rfl⟩ | ⟨hne, hw⟩
      · cases hv.symm.trans hw
        refine ⟨worker, hv, ?_⟩
        simp [Moment.sent, Moment.signalled, Moment.lost, hv, Worker.isDoomed, queue, ran, idle,
          Worker.owed, Activity.call?]
      · refine ⟨worker', hw, ?_⟩
        simp [Moment.sent, Moment.signalled, Moment.lost, hw, hne]
  | @die v worker d job rest hv idle queue failed =>
      have h : (p.modifyWorker v fun worker =>
        { worker with queue := [], activity := .dead }).workers[w]? = some worker' := h
      -- Whoever dies is idle, so all that is owed is on the queue and lost with it.
      rcases of_modifyWorker h with ⟨rfl, before, hw, rfl⟩ | ⟨hne, hw⟩
      · cases hv.symm.trans hw
        refine ⟨worker, hv, ?_⟩
        simp [Moment.sent, Moment.signalled, Moment.lost, hv, Worker.isDoomed, queue, failed,
          idle, Worker.owed, Activity.call?]
      · refine ⟨worker', hw, ?_⟩
        simp [Moment.sent, Moment.signalled, Moment.lost, hw, hne]
  | dropWork hv activity =>
      exact owed_append_of_setActivity h hv (by rw [activity]; rfl) rfl rfl
  | passGate hv activity =>
      exact owed_append_of_setActivity h hv (by rw [activity]; rfl) rfl rfl
  | discard hv activity =>
      exact owed_append_of_setActivity h hv (by rw [activity]; rfl) rfl rfl
  | push hv activity =>
      exact owed_append_of_setActivity h hv (by rw [activity]; rfl) rfl rfl
  | forgo hv activity =>
      exact owed_append_of_setActivity h hv (by rw [activity]; rfl) rfl rfl
  | finish hv activity =>
      exact owed_append_of_setActivity h hv (by rw [activity]; rfl) rfl rfl
  | @signal v worker d hv activity =>
      rcases of_modifyWorker h with ⟨rfl, before, hw, rfl⟩ | ⟨hne, hw⟩
      · cases hv.symm.trans hw
        refine ⟨worker, hv, ?_⟩
        simp [Moment.sent, Moment.signalled, Moment.lost, hv, activity, Worker.owed,
          Activity.call?]
      · refine ⟨worker', hw, ?_⟩
        simp [Moment.sent, Moment.signalled, Moment.lost, hne]
  | letGo => exact ⟨worker', h, List.append_nil _⟩
  | receive => exact ⟨worker', h, List.append_nil _⟩
  | conclude => exact ⟨worker', h, List.append_nil _⟩
  | desist => exact ⟨worker', h, List.append_nil _⟩

end Owed

section Sending

variable {p : Pool} {c : CallId} {w : WorkerId} {a : Action}

-- Only a call that submits its work puts it on a queue, and then on that of the next
-- worker.
theorem submitting_of_mem_sent (h : c ∈ callsOf (Moment.sent w ⟨p, a⟩)) :
    a = .step (.submit c) ∧ ∃ call, p.calls[c]? = some call ∧ call.phase = .submitting w := by
  unfold Moment.sent at h
  split at h
  · split at h <;> simp at h
  · rename_i d action
    split at h
    · rename_i target
      have action : a = .step (.submit d) := action
      unfold target? at target
      split at target
      · rename_i v found
        split at target
        · cases target
          rcases Option.map_eq_some_iff.mp found with ⟨call, hd, phase⟩
          simp only [messageOf?_eq hd, Option.toList_some, callsOf_work_cons, callsOf_nil,
            List.mem_singleton] at h
          subst h
          exact ⟨action, call, hd, phase⟩
        · cases target
      · cases target
    · simp at h
  · simp at h

end Sending

section Settling

variable {p p' : Pool} {a : Action} {c : CallId} {v w : WorkerId} {worker worker' : Worker}
  {call call' : Call}

-- The counts that a call keeps of the workers that it has been given to stay right.
theorem CallChange.given (change : CallChange p c call a call')
    (size : call.tickets.size = call.given p.size) (le : call.given p.size ≤ p.size) :
    call'.tickets.size = call'.given p.size ∧ call'.given p.size ≤ p.size := by
  cases change with
  | stay => exact ⟨size, le⟩
  | cancel => exact ⟨size, le⟩
  | drop phase =>
      simp only [Call.given, phase] at size
      simp [Call.given, size]
  | @give w phase inside sent =>
      simp only [Call.given, phase] at size
      simp only [Call.given, Call.give, Array.size_push, size]
      exact ⟨trivial, inside⟩
  | @refuse w worker phase hw dead sent =>
      simp only [Call.given, phase] at size
      simp only [Call.given, Call.refuse, Call.finishWith, Call.mapChannel, Call.tickets_mapIntake,
        Call.tickets_dropWork, Call.phase_mapIntake, Call.phase_dropWork, size]
      exact ⟨trivial, Nat.le_of_lt (lt_size_of_worker hw)⟩
  | @await w phase outside sent =>
      simp only [Call.given, phase] at size le
      -- There is no next worker, so every worker has been given the work.
      have same : w = p.size := Nat.le_antisymm le outside
      simp [Call.given, size, same]
  | run => simpa [Call.given] using ⟨size, le⟩
  | lose => simpa [Call.given] using ⟨size, le⟩
  | dropWork => simpa [Call.given] using ⟨size, le⟩
  | push => simpa [Call.given] using ⟨size, le⟩
  | finish => simpa [Call.given] using ⟨size, le⟩
  | signal => simpa [Call.given] using ⟨size, le⟩
  | letGo => simpa [Call.given] using ⟨size, le⟩
  | receive => simpa [Call.given] using ⟨size, le⟩
  | conclude phase =>
      simp only [Call.given, phase] at size
      simp [Call.given, size]
  | desist phase =>
      simp only [Call.given, phase] at size
      simp [Call.given, size]

-- A worker that takes the message of which it dies is dead afterwards.
theorem Change.dead_of_doomed (change : Change p (.step (.take w)) p')
    (hw : p.workers[w]? = some worker) (doomed : worker.isDoomed w = true)
    (h : p'.workers[w]? = some worker') : worker'.isAlive = false := by
  cases change with
  | begin begins => cases begins
  | merge hv idle queue =>
      cases hw.symm.trans hv
      simp [Worker.isDoomed, queue] at doomed
  | run hv idle queue ran =>
      cases hw.symm.trans hv
      simp [Worker.isDoomed, queue, ran] at doomed
  | die hv idle queue failed =>
      have h : (p.modifyWorker w fun worker =>
        { worker with queue := [], activity := .dead }).workers[w]? = some worker' := h
      rcases of_modifyWorker h with ⟨_, before, _, rfl⟩ | ⟨hne, _⟩
      · rfl
      · exact absurd rfl hne

-- Calls stay where they are.
theorem Change.calls_size_le (change : Change p a p') : p.calls.size ≤ p'.calls.size := by
  cases change with
  | begin => simp [Pool.begin]
  | dispatch => exact Nat.le_refl _
  | openGate => exact Nat.le_refl _
  | merge => exact Nat.le_refl _
  | passGate => exact Nat.le_refl _
  | discard => exact Nat.le_refl _
  | forgo => exact Nat.le_refl _
  | die => simp [bury]
  | cancel => simp [Pool.cancel, modifyCall]
  | drop => simp [Pool.drop, modifyCall]
  | _ => simp [modifyCall, setActivity, enqueue]

-- What has left a list without repetitions is not in the rest of it.
theorem mem_rest_iff {owed sent gone rest : List CallId} (eq : owed ++ sent = gone ++ rest)
    (once : (owed ++ sent).Nodup) : c ∈ rest ↔ (c ∈ owed ∨ c ∈ sent) ∧ c ∉ gone := by
  rw [← List.mem_append, eq, List.mem_append]
  rw [eq] at once
  have disjoint := (List.nodup_append.mp once).2.2
  constructor
  · intro hc
    exact ⟨Or.inr hc, fun hg => disjoint c hg c hc rfl⟩
  · rintro ⟨hg | hc, not⟩
    · exact absurd hg not
    · exact hc

end Settling

section Agreement

variable {p p' start : Pool} {a : Action} {c : CallId} {v w : WorkerId} {worker worker' : Worker}
  {call call' : Call} {h : List Moment}

-- What a worker loses it loses by its death.
theorem doomed_of_mem_lost (hc : c ∈ Moment.lost w ⟨p, a⟩) : a = .step (.take w) ∧
    ∃ worker, p.workers[w]? = some worker ∧ worker.isDoomed w = true := by
  unfold Moment.lost at hc
  split at hc
  · rename_i v action
    have action : a = .step (.take v) := action
    split at hc
    · rename_i worker hv
      split at hc
      · rename_i guard
        rcases guard with ⟨rfl, doomed⟩
        exact ⟨action, worker, hv, doomed⟩
      · cases hc
    · cases hc
  · cases hc

theorem lost_take (hv : p.workers[v]? = some worker) :
    Moment.lost w ⟨p, .step (.take v)⟩ =
      if v = w ∧ worker.isDoomed v = true then callsOf worker.queue else [] := by
  by_cases same : v = w
  · subst same
    simp only [Moment.lost, hv, true_and]
  · simp only [Moment.lost, same, false_and, if_false]
    split <;> rfl

-- The tickets of a call that are pending after a change.
theorem CallChange.pending_iff (change : CallChange p c call a call')
    (size : call.tickets.size = call.given p.size) :
    call'.tickets[w]? = some .pending ↔
      (call.tickets[w]? = some .pending ∨ c ∈ callsOf (Moment.sent w ⟨p, a⟩)) ∧
        c ∉ Moment.signalled w ⟨p, a⟩ ++ Moment.lost w ⟨p, a⟩ := by
  cases change with
  | stay avoids =>
      simp [avoids.sent w, avoids.signalled w, avoids.lost w]
  | cancel => simp [Moment.sent, Moment.signalled, Moment.lost]
  | drop => simp [Moment.sent, Moment.signalled, Moment.lost]
  | @give v phase inside sent =>
      simp only [Call.given, phase] at size
      -- The new ticket has the number of the worker that is given the work.
      rw [sent w, Call.give, Array.getElem?_push, size]
      by_cases hv : v = w
      · simp [hv, Moment.signalled, Moment.lost]
      · simp [hv, Ne.symm hv, Moment.signalled, Moment.lost]
  | refuse phase hw dead sent =>
      simp [sent w, Moment.signalled, Moment.lost]
  | await phase outside sent => simp [sent w, Moment.signalled, Moment.lost]
  | @run v worker job rest shard report handoff hv idle queue ran =>
      simp [lost_take hv, Moment.sent, Moment.signalled, Worker.isDoomed, queue, ran]
  | @lose v worker d job rest hv idle queue failed owed =>
      have doomed : worker.isDoomed v = true := by simp only [Worker.isDoomed, queue, failed]
      rw [lost_take hv, Call.lose, Call.tickets_dropWork, Call.resolve,
        Array.getElem?_setIfInBounds]
      by_cases same : v = w
      · subst same
        simp only [if_true, doomed, and_self, Moment.signalled, List.nil_append, owed,
          not_true_eq_false, and_false, iff_false]
        split <;> simp
      · simp [same, Moment.sent, Moment.signalled]
  | dropWork => simp [Moment.sent, Moment.signalled, Moment.lost]
  | push => simp [Moment.sent, Moment.signalled, Moment.lost]
  | finish => simp [Moment.sent, Moment.signalled, Moment.lost]
  | @signal v worker hv activity =>
      rw [Call.resolve, Array.getElem?_setIfInBounds]
      by_cases same : v = w
      · subst same
        simp only [if_true, Moment.sent, Moment.signalled, hv, activity, Option.map_some,
          Option.bind_some, Activity.call?, Option.toList_some, List.mem_append,
          List.mem_singleton, true_or, not_true_eq_false, and_false, iff_false]
        split <;> simp
      · simp [same, Moment.sent, Moment.signalled, Moment.lost]
  | letGo => simp [Moment.sent, Moment.signalled, Moment.lost]
  | receive => simp [Moment.sent, Moment.signalled, Moment.lost]
  | conclude =>
      simp [Moment.sent, Moment.signalled, Moment.lost]
  | desist =>
      simp [Moment.sent, Moment.signalled, Moment.lost]

-- A ticket that is lost was lost before or is lost at this moment.
theorem CallChange.lost_of_lost (change : CallChange p c call a call')
    (lost : call'.tickets[w]? = some .lost) :
    call.tickets[w]? = some .lost ∨ c ∈ Moment.lost w ⟨p, a⟩ := by
  cases change with
  | stay => exact Or.inl lost
  | cancel => exact Or.inl lost
  | @give v =>
      rw [Call.give, Array.getElem?_push] at lost
      split at lost
      · cases lost
      · exact Or.inl lost
  | @lose v worker d job rest hv idle queue failed owed =>
      rw [Call.lose, Call.tickets_dropWork, Call.resolve, Array.getElem?_setIfInBounds] at lost
      by_cases same : v = w
      · subst same
        refine Or.inr ?_
        simpa [lost_take hv, Worker.isDoomed, queue, failed] using owed
      · rw [if_neg same] at lost
        exact Or.inl lost
  | @signal v =>
      rw [Call.resolve, Array.getElem?_setIfInBounds] at lost
      split at lost
      · split at lost <;> simp at lost
      · exact Or.inl lost
  | _ =>
      refine Or.inl ?_
      simpa using lost

-- Nothing is put twice on a queue at one moment.
theorem nodup_sent : (callsOf (Moment.sent w ⟨p, a⟩)).Nodup := by
  unfold Moment.sent
  split
  · split <;> simp
  · split
    · cases messageOf? p _ with
      | none => simp
      | some message => cases message <;> simp
    · simp
  · simp

-- What is put on a queue is not yet owed: the call has no ticket of that worker.
theorem Accounts.nodup_append (acc : Accounts p) (hw : p.workers[w]? = some worker) :
    (worker.owed ++ callsOf (Moment.sent w ⟨p, a⟩)).Nodup := by
  refine List.nodup_append.mpr ⟨acc.once w worker hw, nodup_sent, ?_⟩
  rintro c owed _ sent rfl
  rcases submitting_of_mem_sent sent with ⟨_, call, hc, phase⟩
  -- The call submits to the worker whose number is that of its tickets so far.
  have size := (acc.given c call hc).1
  simp only [Call.given, phase] at size
  have pending := (acc.owes w worker c call hw hc).mp owed
  rw [← size] at pending
  simp at pending

-- Accounts that agree do so after every action.
theorem Accounts.next (acc : Accounts p) (act : p.act? a = some p') : Accounts p' := by
  have change := change_of_act? act
  have owed (w : WorkerId) (worker' : Worker) (hw' : p'.workers[w]? = some worker') :
      ∃ worker, p.workers[w]? = some worker ∧ worker'.owed.Nodup ∧ ∀ c, c ∈ worker'.owed ↔
        (c ∈ worker.owed ∨ c ∈ callsOf (Moment.sent w ⟨p, a⟩)) ∧
          c ∉ Moment.signalled w ⟨p, a⟩ ++ Moment.lost w ⟨p, a⟩ := by
    rcases change.owed_append hw' with ⟨worker, hw, eq⟩
    have once := acc.nodup_append hw (a := a)
    refine ⟨worker, hw, ?_, fun c => mem_rest_iff eq once⟩
    rw [eq] at once
    exact (List.nodup_append.mp once).2.1
  -- Whoever is owed something is known already, so a new call is not.
  have known (w : WorkerId) (worker' : Worker) (hw' : p'.workers[w]? = some worker')
      (c : CallId) (hc : c ∈ worker'.owed) : c < p.calls.size := by
    rcases owed w worker' hw' with ⟨worker, hw, _, mem⟩
    rcases ((mem c).mp hc).1 with before | sent
    · exact acc.known w worker hw c before
    · rcases submitting_of_mem_sent sent with ⟨_, call, hc, _⟩
      exact lt_size_of_call hc
  constructor
  case given =>
    intro c call' hc'
    rw [change.size_eq]
    rcases change.callChange hc' with ⟨_, begins⟩ | ⟨call, hc, changed⟩
    · cases begins <;> exact ⟨rfl, Nat.zero_le _⟩
    · exact changed.given (acc.given c call hc).1 (acc.given c call hc).2
  case known =>
    intro w worker' hw' c hc
    exact Nat.lt_of_lt_of_le (known w worker' hw' c hc) change.calls_size_le
  case once =>
    intro w worker' hw'
    exact (owed w worker' hw').choose_spec.2.1
  case owes =>
    intro w worker' c call' hw' hc'
    rcases change.callChange hc' with ⟨hc, begins⟩ | ⟨call, hc, changed⟩
    · have none : c ∉ worker'.owed := fun mem =>
        absurd (known w worker' hw' c mem) (Nat.not_lt.mpr (Nat.le_of_eq hc.symm))
      cases begins <;> simpa [Call.start] using none
    · rcases owed w worker' hw' with ⟨worker, hw, _, mem⟩
      rw [mem c, changed.pending_iff (acc.given c call hc).1, acc.owes w worker c call hw hc]
  case lost =>
    intro w worker' c call' hw' hc' lost
    rcases change.callChange hc' with ⟨_, begins⟩ | ⟨call, hc, changed⟩
    · cases begins <;> simp [Call.start] at lost
    · rcases changed.lost_of_lost lost with before | now
      · rcases change.workerChange hw' with ⟨worker, hw, changed⟩
        have dead := acc.lost w worker c call hw hc before
        cases changed with
        | stay _ _ _ same => rw [same, dead]
        | handle _ _ _ _ alive => exact absurd (dead.symm.trans alive) Bool.false_ne_true
        | die _ dead => exact dead
      · rcases doomed_of_mem_lost now with ⟨rfl, worker, hw, doomed⟩
        exact change.dead_of_doomed hw doomed hw'

-- Accounts agree in a pool in which no call has been made.
theorem IsFresh.accounts (fresh : IsFresh p) : Accounts p := by
  have none (w : WorkerId) (worker : Worker) (hw : p.workers[w]? = some worker) :
      worker.owed = [] := by
    rw [Worker.owed, fresh.idle w worker hw, ← queueOf_eq hw, fresh.callsOf_queueOf]
    rfl
  constructor
  case given => simp [fresh.calls]
  case known =>
    intro w worker hw c hc
    simp [none w worker hw] at hc
  case once =>
    intro w worker hw
    simp [none w worker hw]
  case owes => simp [fresh.calls]
  case lost => simp [fresh.calls]

/-- Accounts agree in every state of a run. -/
theorem Run.accounts (run : Run start h p) (fresh : IsFresh start) : Accounts p := by
  induction run with
  | start => exact fresh.accounts
  | next _ act ih => exact ih.next act

/-- A worker that is alive does not owe a ticket to a call whose tickets are all
    resolved. -/
theorem Accounts.not_owed (acc : Accounts p) (hw : p.workers[w]? = some worker)
    (hc : p.calls[c]? = some call) (resolved : call.isResolved = true) : c ∉ worker.owed := by
  intro owed
  have pending := (acc.owes w worker c call hw hc).mp owed
  rw [Call.isResolved, Array.all_eq_true] at resolved
  rcases Array.getElem?_eq_some_iff.mp pending with ⟨hlt, eq⟩
  simpa [eq] using resolved w hlt

-- While every worker is alive no ticket is lost.
theorem Accounts.firstLost?_eq_none (acc : Accounts p) (alive : p.AllAlive)
    (hc : p.calls[c]? = some call) : call.firstLost? = none := by
  rw [Call.firstLost?, Array.findIdx?_eq_none_iff]
  intro t ht
  rcases Array.mem_iff_getElem.mp ht with ⟨w, hlt, rfl⟩
  -- The ticket is that of a worker, who would be dead if it were lost.
  have given := acc.given c call hc
  have hw : w < p.workers.size := by
    have size : p.size = p.workers.size := rfl
    omega
  have lives := alive w p.workers[w] (Array.getElem?_eq_getElem hw)
  have dies := acc.lost w p.workers[w] c call (Array.getElem?_eq_getElem hw) hc
  rw [Array.getElem?_eq_getElem hlt, lives] at dies
  simpa using dies

end Agreement

end Pool

end ShardConsole
