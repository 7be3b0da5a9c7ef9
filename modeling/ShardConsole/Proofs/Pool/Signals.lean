import ShardConsole.Proofs.Pool.Deliveries

/-!
# Completion Signals

Where everything is that a worker has been given, also when it dies.

The work of a call leaves a worker in one of two ways: the worker ends its hand-off and
gives the completion signal, or it dies and loses what it has. So the works that it has been
given are, in their order, those it has signalled, those it has lost and those for which it
still owes a ticket. This is the books of a single worker, and nothing is asked of the others.

Calls have their side of the same books in their tickets. A ticket is done exactly if the
worker has signalled, and lost exactly if the worker has lost the work, so that a result of
waiting for the tickets can be read as a statement about hand-offs and deaths.

Between the end of a hand-off and its signal nothing but the signal can happen to the worker.

## Main definitions

* `Moment.finished`, `finished`: The calls whose hand-offs a worker has ended.
* `signalled`, `lost`: The calls to which a worker has given its signal, or lost their work.

## Theorems

* `Run.finished_eq`: Every hand-off that has ended has been signalled, or is about to be.
* `Run.given_eq`: What a worker has been given is signalled, lost or owed.
* `Run.done_iff`, `Run.lost_iff`: What the tickets of a call say.
* `Run.finished_or_lost`: What resolved tickets say about hand-offs and deaths.
* `Run.handled_eq`: Before a worker takes a message the hand-offs of all earlier ones are over.
-/

namespace ShardConsole

namespace Pool

/-- The call for which a worker is about to give its signal. -/
def Activity.signals? : Activity → Option CallId
  | .signalling c => some c
  | _ => none

/-- The call whose hand-off a worker ends at a moment. -/
def Moment.finished (w : WorkerId) (m : Moment) : List CallId :=
  match m.action with
  | .step (.finish other) =>
    if other = w then ((m.before.workers[w]?.map Worker.activity).bind Activity.call?).toList
    else []
  | _ => []

/-- The calls whose hand-offs a worker has ended. -/
def finished (w : WorkerId) (h : List Moment) : List CallId :=
  h.flatMap (Moment.finished w)

/-- The calls to which a worker has given its completion signal. -/
def signalled (w : WorkerId) (h : List Moment) : List CallId :=
  h.flatMap (Moment.signalled w)

/-- The calls whose work a worker has lost by its death. -/
def lost (w : WorkerId) (h : List Moment) : List CallId :=
  h.flatMap (Moment.lost w)

section Histories

variable (w : WorkerId) (h : List Moment) (m : Moment)

@[simp] theorem finished_snoc : finished w (h ++ [m]) = finished w h ++ m.finished w := by
  simp only [finished, List.flatMap_append, List.flatMap_singleton]

@[simp] theorem signalled_snoc : signalled w (h ++ [m]) = signalled w h ++ m.signalled w := by
  simp only [signalled, List.flatMap_append, List.flatMap_singleton]

@[simp] theorem lost_snoc : lost w (h ++ [m]) = lost w h ++ m.lost w := by
  simp only [lost, List.flatMap_append, List.flatMap_singleton]

end Histories

section Steps

variable {p p' : Pool} {a : Action} {c : CallId} {v w : WorkerId} {worker worker' : Worker}
  {call call' : Call} {m : Moment}

-- The dead give no signals.
theorem signalled_eq_nil_of_dead (hw : m.before.workers[w]? = some worker)
    (dead : worker.isAlive = false) : m.signalled w = [] := by
  have activity : worker.activity = .dead := by simpa [Worker.isAlive] using dead
  unfold Moment.signalled
  split
  · rw [hw, Option.map_some, Option.bind_some, activity]
    exact ite_self _
  · rfl

-- Only an idle worker takes a message.
theorem Change.idle_of_take (change : Change p (.step (.take w)) p')
    (hw : p.workers[w]? = some worker) : worker.activity = .idle := by
  cases change with
  | begin begins => cases begins
  | merge hv idle => cases hw.symm.trans hv; exact idle
  | run hv idle => cases hw.symm.trans hv; exact idle
  | die hv idle => cases hw.symm.trans hv; exact idle

-- A worker that stays alive loses nothing.
theorem Change.lost_eq_nil (change : Change p a p') (hw' : p'.workers[w]? = some worker')
    (alive : worker'.isAlive = true) : Moment.lost w ⟨p, a⟩ = [] := by
  rw [List.eq_nil_iff_forall_not_mem]
  intro c now
  rcases doomed_of_mem_lost now with ⟨rfl, worker, hw, doomed⟩
  exact absurd ((change.dead_of_doomed hw doomed hw').symm.trans alive) Bool.false_ne_true

-- The dead have nothing more to lose.
theorem Change.lost_eq_nil_of_dead (change : Change p a p') (hw : p.workers[w]? = some worker)
    (dead : worker.isAlive = false) : Moment.lost w ⟨p, a⟩ = [] := by
  rw [List.eq_nil_iff_forall_not_mem]
  intro c now
  rcases doomed_of_mem_lost now with ⟨rfl, same, hs, _⟩
  cases hw.symm.trans hs
  have idle := change.idle_of_take hw
  simp [Worker.isAlive, idle] at dead

/-- What a worker takes is the next thing that it is busy with, or it dies of it. -/
theorem Change.handled_append (change : Change p a p') (h : p'.workers[w]? = some worker') :
    ∃ worker, p.workers[w]? = some worker ∧
      worker.activity.call?.toList ++ callsOf (Moment.handled w ⟨p, a⟩) =
        Moment.signalled w ⟨p, a⟩ ++ (Moment.lost w ⟨p, a⟩).take 1 ++
          worker'.activity.call?.toList := by
  rcases change.owed_append h with ⟨worker, hw, moves⟩
  rcases change.workerChange h with ⟨same, hs, changed⟩
  cases hw.symm.trans hs
  refine ⟨worker, hw, ?_⟩
  -- The queues are the same on both sides of what is owed, and cancel.
  rw [Worker.owed, Worker.owed] at moves
  cases changed with
  | stay queue _ handled same =>
      have none : Moment.lost w ⟨p, a⟩ = [] := by
        cases alive : worker'.isAlive with
        | true => exact change.lost_eq_nil h alive
        | false => exact change.lost_eq_nil_of_dead hw (same.symm.trans alive)
      rw [none, List.append_nil] at moves
      rw [none, handled, List.take_nil, List.append_nil, callsOf_nil, List.append_nil]
      rw [queue, callsOf_append, ← List.append_assoc, ← List.append_assoc] at moves
      exact List.append_cancel_right (List.append_cancel_right moves)
  | @handle message queue _ handled sent _ still =>
      have none := change.lost_eq_nil h still
      rw [none, List.append_nil, sent, callsOf_nil, List.append_nil, queue,
        ← List.singleton_append, callsOf_append, ← List.append_assoc, ← List.append_assoc] at moves
      rw [none, handled, List.take_nil, List.append_nil]
      exact List.append_cancel_right moves
  | die _ dead take idle front failed =>
      have activity : worker'.activity = .dead := by simpa [Worker.isAlive] using dead
      have take : a = .step (.take w) := take
      subst take
      simp [idle, activity, Activity.call?, Moment.handled, Moment.signalled, lost_take hw,
        queueOf_eq hw, front, Worker.isDoomed, failed]

-- A worker that goes on to do something else has not got to its signal, or has given none.
theorem finished_append_of_setActivity {activity : Activity}
    (h : (p.setActivity v activity).workers[w]? = some worker')
    (hv : p.workers[v]? = some worker) (same : activity.signals? = worker.activity.signals?)
    (finished : m.finished w = []) (signalled : m.signalled w = []) :
    ∃ worker, p.workers[w]? = some worker ∧ worker.activity.signals?.toList ++ m.finished w =
      m.signalled w ++ worker'.activity.signals?.toList := by
  rw [finished, signalled, List.nil_append]
  rcases of_modifyWorker h with ⟨rfl, _, hw, rfl⟩ | ⟨_, hw⟩
  · cases hv.symm.trans hw
    exact ⟨worker, hv, by rw [same, List.append_nil]⟩
  · exact ⟨worker', hw, List.append_nil _⟩

-- A worker that does something with its queue only is not about to give a signal.
theorem finished_append_of_modifyWorker {change : Worker → Worker}
    (h : (p.modifyWorker v change).workers[w]? = some worker')
    (same : ∀ worker, p.workers[v]? = some worker →
      (change worker).activity.signals? = worker.activity.signals?)
    (finished : m.finished w = []) (signalled : m.signalled w = []) :
    ∃ worker, p.workers[w]? = some worker ∧ worker.activity.signals?.toList ++ m.finished w =
      m.signalled w ++ worker'.activity.signals?.toList := by
  rw [finished, signalled, List.nil_append]
  rcases of_modifyWorker h with ⟨rfl, worker, hw, rfl⟩ | ⟨_, hw⟩
  · exact ⟨worker, hw, by rw [same worker hw, List.append_nil]⟩
  · exact ⟨worker', hw, List.append_nil _⟩

/-- A hand-off that ends is the next one to be signalled. -/
theorem Change.finished_append (change : Change p a p') (h : p'.workers[w]? = some worker') :
    ∃ worker, p.workers[w]? = some worker ∧
      worker.activity.signals?.toList ++ Moment.finished w ⟨p, a⟩ =
        Moment.signalled w ⟨p, a⟩ ++ worker'.activity.signals?.toList := by
  cases change with
  | begin begins => cases begins <;> exact ⟨worker', h, List.append_nil _⟩
  | dispatch | give => exact finished_append_of_modifyWorker h (fun _ _ => rfl) rfl rfl
  | merge => exact finished_append_of_modifyWorker h (fun _ _ => rfl) rfl rfl
  | run hv idle =>
      refine finished_append_of_modifyWorker h (fun worker hw => ?_) rfl rfl
      cases hv.symm.trans hw
      rw [idle]
      rfl
  | die hv idle =>
      refine finished_append_of_modifyWorker h (fun worker hw => ?_) rfl rfl
      cases hv.symm.trans hw
      rw [idle]
      rfl
  | dropWork hv activity =>
      exact finished_append_of_setActivity h hv (by rw [activity]; rfl) rfl rfl
  | passGate hv activity =>
      exact finished_append_of_setActivity h hv (by rw [activity]; rfl) rfl rfl
  | discard hv activity =>
      exact finished_append_of_setActivity h hv (by rw [activity]; rfl) rfl rfl
  | push hv activity =>
      exact finished_append_of_setActivity h hv (by rw [activity]; rfl) rfl rfl
  | forgo hv activity =>
      exact finished_append_of_setActivity h hv (by rw [activity]; rfl) rfl rfl
  | @finish v worker d hv activity =>
      rcases of_modifyWorker h with ⟨rfl, _, hw, rfl⟩ | ⟨hne, hw⟩
      · cases hv.symm.trans hw
        refine ⟨worker, hv, ?_⟩
        simp [Moment.finished, Moment.signalled, hv, activity, Activity.signals?, Activity.call?]
      · exact ⟨worker', hw, by simp [Moment.finished, Moment.signalled, hne]⟩
  | @signal v worker d hv activity =>
      rcases of_modifyWorker h with ⟨rfl, _, hw, rfl⟩ | ⟨hne, hw⟩
      · cases hv.symm.trans hw
        refine ⟨worker, hv, ?_⟩
        simp [Moment.finished, Moment.signalled, hv, activity, Activity.signals?, Activity.call?]
      · exact ⟨worker', hw, by simp [Moment.finished, Moment.signalled, hne]⟩
  | _ => exact ⟨worker', h, List.append_nil _⟩

-- A ticket that is done was done before or is signalled at this moment.
theorem CallChange.done_of_done (change : CallChange p c call a call')
    (done : call'.tickets[w]? = some .done) :
    call.tickets[w]? = some .done ∨ c ∈ Moment.signalled w ⟨p, a⟩ := by
  cases change with
  | stay => exact Or.inl done
  | cancel => exact Or.inl done
  | give =>
      rw [Call.give, Array.getElem?_push] at done
      split at done
      · cases done
      · exact Or.inl done
  | @lose v =>
      rw [Call.lose, Call.tickets_dropWork, Call.resolve, Array.getElem?_setIfInBounds] at done
      split at done
      · split at done <;> cases done
      · exact Or.inl done
  | @signal v worker hv activity =>
      rw [Call.resolve, Array.getElem?_setIfInBounds] at done
      by_cases same : v = w
      · subst same
        exact Or.inr (by simp [Moment.signalled, hv, activity, Activity.call?])
      · rw [if_neg same] at done
        exact Or.inl done
  | _ =>
      refine Or.inl ?_
      simpa using done

end Steps

section Runs

variable {start p : Pool} {h h₁ h₂ : List Moment} {m : Moment} {c : CallId} {w : WorkerId}
  {worker : Worker} {call : Call}

/-- The hand-offs that a worker has ended are those that it has signalled and, when it is
    about to signal, the one that it will signal next. -/
theorem Run.finished_eq (run : Run start h p) (fresh : IsFresh start)
    (hw : p.workers[w]? = some worker) :
    finished w h = signalled w h ++ worker.activity.signals?.toList := by
  induction run generalizing worker with
  | start =>
      rw [fresh.idle w worker hw]
      rfl
  | @next h p p' a run act ih =>
      rcases (change_of_act? act).finished_append hw with ⟨before, hb, moves⟩
      rw [finished_snoc, signalled_snoc, ih hb, List.append_assoc, moves, List.append_assoc]

-- A worker that is alive has lost nothing.
theorem Run.lost_eq_nil (run : Run start h p) (hw : p.workers[w]? = some worker)
    (alive : worker.isAlive = true) : lost w h = [] := by
  induction run generalizing worker with
  | start => rfl
  | @next h p p' a run act ih =>
      have change := change_of_act? act
      rcases change.workerChange hw with ⟨before, hb, changed⟩
      rw [lost_snoc, ih hb (changed.isAlive_before alive), change.lost_eq_nil hw alive]
      rfl

/-- The works that a worker has been given are, in their order, those that it has signalled,
    those that it has lost and those for which it owes a ticket. -/
theorem Run.given_eq (run : Run start h p) (fresh : IsFresh start)
    (hw : p.workers[w]? = some worker) :
    callsOf (enqueued start w h) = signalled w h ++ lost w h ++ worker.owed := by
  induction run generalizing worker with
  | start =>
      rw [enqueued, List.flatMap_nil, List.append_nil, fresh.callsOf_queueOf, Worker.owed,
        fresh.idle w worker hw, ← queueOf_eq hw, fresh.callsOf_queueOf]
      rfl
  | @next h p p' a run act ih =>
      rcases (change_of_act? act).owed_append hw with ⟨before, hb, moves⟩
      rw [enqueued_snoc, callsOf_append, ih hb, signalled_snoc, lost_snoc, List.append_assoc,
        moves]
      -- Whoever has lost something is dead and gives no signal any more.
      cases lives : before.isAlive with
      | true =>
          rw [Run.lost_eq_nil run hb lives]
          simp
      | false =>
          rw [signalled_eq_nil_of_dead (m := ⟨p, a⟩) hb lives]
          simp

/-- The works that a worker has taken are, in their order, those that it has signalled, the one
    that it has died of and the one that it is busy with. -/
theorem Run.callsOf_handled (run : Run start h p) (fresh : IsFresh start)
    (hw : p.workers[w]? = some worker) : callsOf (handled w h) =
      signalled w h ++ (lost w h).take 1 ++ worker.activity.call?.toList := by
  induction run generalizing worker with
  | start =>
      rw [fresh.idle w worker hw]
      rfl
  | @next h p p' a run act ih =>
      have change := change_of_act? act
      rcases change.handled_append hw with ⟨before, hb, moves⟩
      rw [handled_snoc, callsOf_append, ih hb, List.append_assoc, moves, signalled_snoc, lost_snoc]
      -- Whoever has lost something is dead, gives no signal any more and loses nothing more.
      cases lives : before.isAlive with
      | true =>
          rw [Run.lost_eq_nil run hb lives]
          simp
      | false =>
          rw [signalled_eq_nil_of_dead (m := ⟨p, a⟩) hb lives, change.lost_eq_nil_of_dead hb lives]
          simp

/-- A worker takes a message only when it is idle, and then the hand-offs of all works that it
    has taken before are over. -/
theorem Run.handled_eq (run : Run start (h₁ ++ m :: h₂) p) (fresh : IsFresh start)
    (handling : m.handled w ≠ []) : ∃ first, m.before.workers[w]? = some first ∧
      first.activity = .idle ∧ m.handled w = first.queue.take 1 ∧
      callsOf (handled w h₁) = finished w h₁ := by
  rcases run.split with ⟨run₁, next, act, _⟩
  rcases m with ⟨q, a⟩
  -- Only workers take anything, and only from their own queues.
  have take : a = .step (.take w) := by
    unfold Moment.handled at handling
    split at handling
    · rename_i v action
      have action : a = .step (.take v) := action
      split at handling
      · rename_i same
        rw [action, same]
      · exact absurd rfl handling
    · exact absurd rfl handling
  subst take
  have found : ∃ first, q.workers[w]? = some first := by
    cases change_of_act? act with
    | begin begins => cases begins
    | merge hw => exact ⟨_, hw⟩
    | run hw => exact ⟨_, hw⟩
    | die hw => exact ⟨_, hw⟩
  rcases found with ⟨first, hw⟩
  have idle := (change_of_act? act).idle_of_take hw
  refine ⟨first, hw, idle, ?_, ?_⟩
  · simp only [Moment.handled, if_true, queueOf_eq hw]
    cases first.queue <;> rfl
  · have alive : first.isAlive = true := by simp [Worker.isAlive, idle]
    rw [Run.callsOf_handled run₁ fresh hw, Run.lost_eq_nil run₁ hw alive,
      Run.finished_eq run₁ fresh hw, idle]
    simp [Activity.call?, Activity.signals?]

-- A ticket of a call is done only if the worker has signalled.
theorem Run.signalled_of_done (run : Run start h p) (fresh : IsFresh start)
    (hc : p.calls[c]? = some call) (done : call.tickets[w]? = some .done) :
    c ∈ signalled w h := by
  induction run generalizing call with
  | start => simp [fresh.calls] at hc
  | @next h p p' a run act ih =>
      rw [signalled_snoc, List.mem_append]
      rcases (change_of_act? act).callChange hc with ⟨_, begins⟩ | ⟨before, hb, changed⟩
      · cases begins <;> simp [Call.start] at done
      · exact (changed.done_of_done done).imp_left (ih hb)

-- A ticket of a call is lost only if the worker has lost the work.
theorem Run.lost_of_ticket (run : Run start h p) (fresh : IsFresh start)
    (hc : p.calls[c]? = some call) (gone : call.tickets[w]? = some .lost) : c ∈ lost w h := by
  induction run generalizing call with
  | start => simp [fresh.calls] at hc
  | @next h p p' a run act ih =>
      rw [lost_snoc, List.mem_append]
      rcases (change_of_act? act).callChange hc with ⟨_, begins⟩ | ⟨before, hb, changed⟩
      · cases begins <;> simp [Call.start] at gone
      · exact (changed.lost_of_lost gone).imp_left (ih hb)

-- What a worker has been given it has signalled, lost or still owes, and not two of these.
theorem Run.ticket_of_given (run : Run start h p) (fresh : IsFresh start)
    (hw : p.workers[w]? = some worker) (hc : p.calls[c]? = some call)
    (given : c ∈ callsOf (enqueued start w h)) :
    (call.tickets[w]? = some .done ∧ c ∈ signalled w h ∧ c ∉ lost w h) ∨
      (call.tickets[w]? = some .lost ∧ c ∉ signalled w h ∧ c ∈ lost w h) ∨
      (call.tickets[w]? = some .pending ∧ c ∉ signalled w h ∧ c ∉ lost w h) := by
  have once := (run.deliveries fresh).once w
  rcases ((run.deliveries fresh).given w c).mp given with ⟨same, hs, hlt⟩
  cases hc.symm.trans hs
  rw [run.given_eq fresh hw] at once
  rcases List.nodup_append.mp once with ⟨gone, _, apart⟩
  have apart' := (List.nodup_append.mp gone).2.2
  rw [Array.getElem?_eq_getElem hlt]
  have ticket : call.tickets[w]? = some call.tickets[w] := Array.getElem?_eq_getElem hlt
  cases state : call.tickets[w] with
  | done =>
      rw [state] at ticket
      have mem := run.signalled_of_done fresh hc ticket
      exact Or.inl ⟨rfl, mem, fun other => apart' c mem c other rfl⟩
  | lost =>
      rw [state] at ticket
      have mem := run.lost_of_ticket fresh hc ticket
      exact Or.inr (Or.inl ⟨rfl, fun other => apart' c other c mem rfl, mem⟩)
  | pending =>
      rw [state] at ticket
      have owed := ((run.accounts fresh).owes w worker c call hw hc).mpr ticket
      exact Or.inr (Or.inr ⟨rfl, fun mem => apart c (List.mem_append_left _ mem) c owed rfl,
        fun mem => apart c (List.mem_append_right _ mem) c owed rfl⟩)

/-- A ticket of a call is done exactly if the worker has given its signal. -/
theorem Run.done_iff (run : Run start h p) (fresh : IsFresh start)
    (hw : p.workers[w]? = some worker) (hc : p.calls[c]? = some call) :
    call.tickets[w]? = some .done ↔ c ∈ signalled w h := by
  refine ⟨run.signalled_of_done fresh hc, fun mem => ?_⟩
  have given : c ∈ callsOf (enqueued start w h) := by
    rw [run.given_eq fresh hw]
    exact List.mem_append_left _ (List.mem_append_left _ mem)
  rcases run.ticket_of_given fresh hw hc given with ⟨done, _⟩ | ⟨_, other, _⟩ | ⟨_, other, _⟩
  · exact done
  · exact absurd mem other
  · exact absurd mem other

-- Only workers lose anything.
theorem Run.worker_of_lost (run : Run start h p) (mem : c ∈ lost w h) :
    ∃ worker, p.workers[w]? = some worker := by
  induction run with
  | start => cases mem
  | @next h p p' a run act ih =>
      rw [lost_snoc, List.mem_append] at mem
      have before : ∃ worker, p.workers[w]? = some worker := by
        rcases mem with earlier | now
        · exact ih earlier
        · rcases doomed_of_mem_lost now with ⟨_, worker, hw, _⟩
          exact ⟨worker, hw⟩
      rcases before with ⟨worker, hw⟩
      rcases (change_of_act? act).workerChange_of hw with ⟨worker', hw', _⟩
      exact ⟨worker', hw'⟩

/-- A ticket of a call is lost exactly if the worker has died with the work. -/
theorem Run.lost_iff (run : Run start h p) (fresh : IsFresh start)
    (hw : p.workers[w]? = some worker) (hc : p.calls[c]? = some call) :
    call.tickets[w]? = some .lost ↔ c ∈ lost w h := by
  refine ⟨run.lost_of_ticket fresh hc, fun mem => ?_⟩
  have given : c ∈ callsOf (enqueued start w h) := by
    rw [run.given_eq fresh hw]
    exact List.mem_append_left _ (List.mem_append_right _ mem)
  rcases run.ticket_of_given fresh hw hc given with ⟨_, _, other⟩ | ⟨gone, _⟩ | ⟨_, _, other⟩
  · exact absurd mem other
  · exact gone
  · exact absurd mem other

/-- When the tickets of a call are resolved, each worker that it was given to has ended the
    hand-off, or it has died with the work. -/
theorem Run.finished_or_lost (run : Run start h p) (fresh : IsFresh start)
    (hw : p.workers[w]? = some worker) (hc : p.calls[c]? = some call)
    (resolved : call.isResolved = true) (given : w < call.tickets.size) :
    (call.tickets[w]? = some .done ∧ c ∈ finished w h ∧ c ∉ lost w h) ∨
      (call.tickets[w]? = some .lost ∧ c ∉ finished w h ∧ c ∈ lost w h ∧
        worker.isAlive = false) := by
  have acc := run.accounts fresh
  have enqueued := ((run.deliveries fresh).given w c).mpr ⟨call, hc, given⟩
  rw [run.finished_eq fresh hw]
  rcases run.ticket_of_given fresh hw hc enqueued with ⟨done, mem, other⟩ | ⟨gone, other, mem⟩ |
    ⟨pending, _⟩
  · exact Or.inl ⟨done, List.mem_append_left _ mem, other⟩
  · have dead := acc.lost w worker c call hw hc gone
    have activity : worker.activity = .dead := by simpa [Worker.isAlive] using dead
    refine Or.inr ⟨gone, ?_, mem, dead⟩
    rw [activity]
    simpa [Activity.signals?] using other
  · exact absurd ((acc.owes w worker c call hw hc).mpr pending) (acc.not_owed hw hc resolved)

end Runs

end Pool

end ShardConsole
