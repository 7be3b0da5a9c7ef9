import ShardConsole.Proofs.Pool.Departures
import ShardConsole.Proofs.Shard.Restriction

/-!
# Partial Listings

What a listing returns when it may be cancelled at any moment.

A part is never cut: it goes into the channel as a whole, the caller takes it as a whole, and
the output is made up of what was taken. So wherever the caller leaves off, it has the
listings of some of the shards that the work has met, each of them once.

Cancelling does not reach the workers. What they do for a listing changes no shard and no
other call, at whatever moment the caller leaves, and they all run the work.

## Main definitions

* `Moment.call?`: The call for which something happens at a moment.
* `PartialListing`: Whole listings of some of the shards that the work of a call has met.

## Theorems

* `Change.calls_eq`: What happens for one call leaves the others alone.
* `Run.shard_eq_of_for`: What happens for a listing leaves all shards alone.
* `Run.partial_of_waiting`: The output of a caller that still listens is a partial listing.
* `Run.listing_partial`: What a listing returns, whenever it is cancelled.
-/

namespace ShardConsole

namespace Pool

/-- The call for which something happens at a moment. -/
def Moment.call? (m : Moment) : Option CallId :=
  match m.action with
  | .list _ _ _ | .delete _ _ _ | .process _ => some m.before.calls.size
  | .cancel c | .drop c => some c
  | .step (.submit c) | .step (.letGo c) | .step (.receive c) | .step (.conclude c)
  | .step (.desist c) => some c
  | .step (.take w) => (m.before.queueOf w).head?.bind Message.call?
  | .step (.dropWork w) | .step (.handOver w) | .step (.forgo w) | .step (.finish w)
  | .step (.signal w) => (m.before.workers[w]?.map Worker.activity).bind Activity.call?
  | .dispatch _ _ | .openGate _ => none

/-- A text is made up of whole listings of some of the shards that the work of a call has
    met, at most one of each worker, in some order and without the empty ones. -/
structure PartialListing (h : List Moment) (c : CallId) (kind : Kind) (text : String) : Prop where
  parts : ∃ visits : List (WorkerId × Shard), visits.Subperm (invocations c h) ∧
    (visits.map Prod.fst).Nodup ∧ (∀ visit ∈ visits, visit.2.text kind ≠ "") ∧
    text = String.join (visits.map fun visit => visit.2.text kind)

section Frames

variable {start p p' : Pool} {h : List Moment} {a : Action} {c d : CallId} {w : WorkerId}
  {call : Call} {kind : Kind}

/-- What happens for one call leaves the other calls alone, if nobody dies of it. -/
theorem Change.calls_eq (change : Change p a p') (alive : p'.AllAlive)
    (acts : Moment.call? ⟨p, a⟩ = some c) (other : d ≠ c) : p'.calls[d]? = p.calls[d]? := by
  cases change with
  | dispatch => cases acts
  | openGate => cases acts
  | @begin _ call begins =>
      have number : p.calls.size = c := by cases begins <;> exact Option.some.inj acts
      rw [Pool.begin, Array.getElem?_push, if_neg (number ▸ other)]
  | merge hv idle queue => simp [Moment.call?, queueOf_eq hv, queue, Message.call?] at acts
  | run hv idle queue ran =>
      simp only [Moment.call?, queueOf_eq hv, queue, List.head?_cons, Option.bind_some,
        Message.call?, Option.some.injEq] at acts
      exact getElem?_modifyCall_of_ne (acts ▸ other)
  | die hv => exact absurd alive (not_allAlive_bury hv)
  | passGate => rfl
  | discard => rfl
  | forgo => rfl
  | dropWork hv activity =>
      simp only [Moment.call?, hv, activity, Option.map_some, Option.bind_some, Activity.call?,
        Option.some.injEq] at acts
      exact getElem?_modifyCall_of_ne (acts ▸ other)
  | push hv activity =>
      simp only [Moment.call?, hv, activity, Option.map_some, Option.bind_some, Activity.call?,
        Option.some.injEq] at acts
      exact getElem?_modifyCall_of_ne (acts ▸ other)
  | finish hv activity =>
      simp only [Moment.call?, hv, activity, Option.map_some, Option.bind_some, Activity.call?,
        Option.some.injEq] at acts
      exact getElem?_modifyCall_of_ne (acts ▸ other)
  | signal hv activity =>
      simp only [Moment.call?, hv, activity, Option.map_some, Option.bind_some, Activity.call?,
        Option.some.injEq] at acts
      exact getElem?_modifyCall_of_ne (acts ▸ other)
  | _ => exact getElem?_modifyCall_of_ne (Option.some.inj acts ▸ other)

/-- What happens for a listing leaves all shards alone. -/
theorem Run.shard_eq_of_for (run : Run start h p) (fresh : IsFresh start) (alive : p'.AllAlive)
    (act : p.act? a = some p') (acts : Moment.call? ⟨p, a⟩ = some c)
    (work : ∀ call, p.calls[c]? = some call → call.work = Work.list kind) (w : WorkerId) :
    p'.workers[w]?.map Worker.shard = p.workers[w]?.map Worker.shard := by
  have change := change_of_act? act
  have before := alive.of_act? act
  cases hw : p.workers[w]? with
  | none =>
      have size : p'.workers.size = p.workers.size := change.size_eq
      rw [Array.getElem?_eq_none_iff, ← size, ← Array.getElem?_eq_none_iff] at hw
      rw [hw]
  | some worker =>
      rcases change.workerChange_of hw with ⟨worker', hw', changed⟩
      rw [hw', Option.map_some, Option.map_some, Option.some.injEq]
      cases changed with
      | stay queue shard => exact shard
      | die _ dead => exact absurd (dead.symm.trans (alive w worker' hw')) Bool.false_ne_true
      | @handle message queue shard handled =>
          -- What the worker takes from its queue is the work of the listing.
          have own : message.call? = some c := by
            unfold Moment.handled at handled
            split at handled
            · rename_i v action
              have action : a = .step (.take v) := action
              subst action
              split at handled
              · rename_i same
                subst same
                simpa [Moment.call?, queueOf_eq hw, queue] using acts
              · cases handled
            · cases handled
          cases message with
          | metric => cases own
          | work e job =>
              cases own
              have mem : c ∈ worker.owed := Worker.mem_owed_of_queued (by simp [queue])
              have known := (run.accounts fresh).known w worker hw c mem
              have hc : p.calls[c]? = some p.calls[c] := Array.getElem?_eq_getElem known
              rw [shard, run.work_of_queue fresh hw queue hc, work _ hc]
              rfl

end Frames

section Parts

variable {start p : Pool} {h : List Moment} {c : CallId} {call : Call} {intake : Intake}
  {kind : Kind}

-- Parts that are among those of some shards are those of some of the shards.
theorem exists_visits_of_subperm {parts : List (WorkerId × String)}
    {visits : List (WorkerId × Shard)} (among : parts.Subperm (partsOf kind visits)) :
    ∃ chosen : List (WorkerId × Shard), chosen.Subperm visits ∧
      (∀ visit ∈ chosen, visit.2.text kind ≠ "") ∧
      parts = chosen.map fun visit => (visit.1, visit.2.text kind) := by
  rcases among with ⟨sorted, perm, sublist⟩
  have nonempty (part : WorkerId × String) (mem : part ∈ parts) : part.2 ≠ "" := by
    have kept := (List.mem_filter.mp (sublist.subset (perm.mem_iff.mpr mem))).2
    simpa using kept
  rcases List.sublist_map_iff.mp (sublist.trans List.filter_sublist) with ⟨some, sub, rfl⟩
  rcases Shard.exists_perm_map perm.symm with ⟨chosen, perm', rfl⟩
  refine ⟨chosen, ⟨some, perm'.symm, sub⟩, fun visit mem => ?_, rfl⟩
  exact nonempty (visit.1, visit.2.text kind) (List.mem_map.mpr ⟨visit, mem, rfl⟩)

/-- What has been handed over for a listing, cancelled or not, are parts that its work has
    made. -/
theorem Run.handed_subperm (run : Run start h p) (fresh : IsFresh start) (alive : p.AllAlive)
    (hc : p.calls[c]? = some call) (work : call.work = Work.list kind) :
    (handed c h).Subperm (partsOf kind (invocations c h)) :=
  subperm_of_textsFrom_sublist fun _ =>
    (List.sublist_append_left _ _).trans (run.textsFrom_sublist fresh alive hc work)

/-- The output of a caller that still listens is made up of whole parts. -/
theorem Run.partial_of_waiting (run : Run start h p) (fresh : IsFresh start)
    (alive : p.AllAlive) (hc : p.calls[c]? = some call) (hi : call.intake? = some intake)
    (work : call.work = Work.list kind) (opens : call.phase.isOpen = true) :
    PartialListing h c kind intake.output := by
  rcases run.intake_eq fresh hc hi with ⟨output, whenOpen⟩
  -- The caller has taken the parts that were handed over first.
  let first := (handed c h).take (received c h).length
  have taken : first.map Prod.snd = received c h := by
    rw [List.map_take, (whenOpen opens).2, List.take_left]
  have among : first.Subperm (partsOf kind (invocations c h)) :=
    (List.take_sublist _ _).subperm.trans (run.handed_subperm fresh alive hc work)
  rcases exists_visits_of_subperm among with ⟨visits, some, nonempty, eq⟩
  refine ⟨visits, some, ?_, nonempty, ?_⟩
  · rcases some with ⟨sorted, perm, sublist⟩
    have once := (run.invocations_nodup fresh alive c).sublist (sublist.map Prod.fst)
    exact (perm.map Prod.fst).nodup_iff.mp once
  · rw [output, ← taken, eq, List.map_map]
    rfl

end Parts

section Cancelled

variable {start p : Pool} {h : List Moment} {c : CallId} {capacity : Nat} {kind : Kind}
  {cancelled : Bool} {result : Except Unavailable Reply}

-- What a listing returns is the output that it had when it returned.
theorem Run.partial_of_result (run : Run start h p) (fresh : IsFresh start) (alive : p.AllAlive)
    (begun : Begun h c (.list capacity kind cancelled)) (hr : p.result? c = some result) :
    ∃ h₁ m h₂ text, h = h₁ ++ m :: h₂ ∧
      (m.action = .step (.conclude c) ∨ m.action = .step (.desist c)) ∧
      result = .ok (.listing text) ∧ PartialListing h₁ c kind text := by
  rcases run.phase_of_result fresh alive hr with ⟨call, hc, phase⟩
  rcases run.listing_of_begun begun hc with ⟨work, _, purpose⟩
  rcases run.returned_at fresh alive hc phase with
    ⟨h₁, m, h₂, first, rfl, hf, sameWork, form, waiting, action, same⟩
  rcases run.split with ⟨run₁, _⟩
  rcases Purpose.exists_of_form (form.trans (by rw [purpose]; rfl)) with ⟨intake, purpose'⟩
  have hi : first.intake? = some intake := by rw [Call.intake?, purpose']
  have whole := Run.partial_of_waiting run₁ fresh (run.allAlive_before alive) hf hi
    (sameWork.trans work) (by rw [waiting, Phase.isOpen])
  exact ⟨h₁, m, h₂, intake.output, rfl, action, by rw [same, Call.answer, purpose'], whole⟩

/-- Among living workers a listing returns whole listings of some of the shards that its work
    has met, each worker's once, at whatever moment it is cancelled. A cancelled caller can
    always return by its own steps. What happens for the listing leaves all shards and all
    other calls alone, at every moment. Once the work is on all queues every worker has run it
    or will do so, once, and when no step is left everybody has. -/
theorem Run.listing_partial (run : Run start h p) (fresh : IsFresh start) (alive : p.AllAlive)
    (begun : Begun h c (.list capacity kind cancelled)) :
    (∀ result, p.result? c = some result → ∃ h₁ m h₂ text, h = h₁ ++ m :: h₂ ∧
      (m.action = .step (.conclude c) ∨ m.action = .step (.desist c)) ∧
      result = .ok (.listing text) ∧ PartialListing h₁ c kind text) ∧
    (∀ call, p.calls[c]? = some call → call.cancelled = true → call.phase.isOpen = true →
      ∃ later q text, Run p later q ∧
        (∀ m ∈ later, m.action = .step (.submit c) ∨ m.action = .step (.desist c)) ∧
        q.result? c = some (.ok (.listing text))) ∧
    (∀ m ∈ h, m.call? = some c → ∀ p', m.before.act? m.action = some p' →
      (∀ w : WorkerId, p'.workers[w]?.map Worker.shard = m.before.workers[w]?.map Worker.shard) ∧
      ∀ d, d ≠ c → p'.calls[d]? = m.before.calls[d]?) ∧
    (p.Submitted c → ∀ (w : WorkerId) (worker : Worker), p.workers[w]? = some worker →
      ((invocations c h).map Prod.fst).count w + (callsOf worker.queue).count c = 1) ∧
    ((∀ m ∈ h, m.action.isOrdinary = true) → p.Stuck →
      ((invocations c h).map Prod.fst).Perm (List.range p.size)) := by
  rcases run.of_begun begun with ⟨_, call, _, hc, _⟩
  refine ⟨fun result hr => run.partial_of_result fresh alive begun hr,
    fun other ho isCancelled opens => ?_, fun m hm acts p' act => ?_,
    fun submitted w worker hw => run.once_each fresh alive submitted hw,
    fun plain stuck => run.everyone_of_stuck fresh plain stuck hc⟩
  · rcases run.listing_of_begun begun ho with ⟨_, _, purpose⟩
    rcases returns_by_itself alive ho isCancelled (by rw [purpose, Purpose.form]; simp) opens with
      ⟨later, q, result, run', alive', own, hr⟩
    rcases Run.partial_of_result (run.trans run') fresh alive' (begun.append_right later) hr with
      ⟨_, _, _, text, _, _, rfl, _⟩
    exact ⟨later, q, text, run', own, hr⟩
  · rcases List.append_of_mem hm with ⟨h₁, h₂, rfl⟩
    rcases run.split with ⟨run₁, _⟩
    have alive' := run.allAlive_after alive act
    have lists (first : Call) (hf : m.before.calls[c]? = some first) :
        first.work = Work.list kind := by
      rcases run.call_after hf with ⟨last, hl, work, _⟩
      exact work.symm.trans (run.listing_of_begun begun hl).1
    exact ⟨Run.shard_eq_of_for run₁ fresh alive' act acts lists,
      fun d other => (change_of_act? act).calls_eq alive' acts other⟩

end Cancelled

/-- A listing of two workers is cancelled when its caller has taken the part of one of them.
    The other one has its part with it and drops it. -/
def cancelledListing : List Action :=
  [.dispatch 0 ⟨"a", .empty, .counter 2⟩, .dispatch 1 ⟨"b", .empty, .counter 1⟩,
    .list 1 .counter false] ++
  List.map Action.step
    [.submit 0, .submit 0, .submit 0, .take 1, .take 1, .dropWork 1, .handOver 1, .receive 0,
      .take 0, .take 0, .dropWork 0] ++
  [.cancel 0] ++ List.map Action.step [.desist 0, .forgo 0, .finish 0, .signal 0, .finish 1]

theorem cancelledListing_partial : ∃ h p, Run (start 2) h p ∧
    (∃ h₁ m h₂, h = h₁ ++ m :: h₂ ∧ PartialListing h₁ 0 .counter "b=1\n") ∧
    (∀ w < 2, ∀ worker, p.workers[w]? = some worker →
      ((invocations 0 h).map Prod.fst).count w + (callsOf worker.queue).count 0 = 1) := by
  have done : (Trace.perform? act? [] (start 2) cancelledListing).map (fun r => (r.2.result? 0,
      r.2.workers.all Worker.isAlive, r.1[2]?.map fun m => m.before.calls.size)) =
      some (some (.ok (.listing "b=1\n")), true, some 0) := by
    decide +kernel
  rcases Option.map_eq_some_iff.mp done with ⟨⟨h, p⟩, performed, facts⟩
  simp only [Prod.mk.injEq] at facts
  rcases facts with ⟨result, alive, number⟩
  have alive := allAlive_of_all alive
  have run : Run (start 2) h p := Trace.of_perform? .start performed
  have created : Channel.create? (max 1 1) = some ⟨1, [], [.closer], true⟩ := by decide +kernel
  have begun : Begun h 0 (.list 1 .counter false) :=
    begun_of_perform? performed rfl number (.list created)
  rcases run.listing_partial (isFresh_start 2) alive begun with
    ⟨results, _, _, once, _⟩
  rcases results _ result with ⟨h₁, m, h₂, text, split, _, same, whole⟩
  cases same
  -- A call that has returned has been put on all queues.
  have submitted : p.Submitted 0 := by
    rcases run.phase_of_result (isFresh_start 2) alive result with ⟨call, hc, phase⟩
    exact ⟨call, hc, fun w => by rw [phase]; simp⟩
  exact ⟨h, p, run, ⟨h₁, m, h₂, split, whole⟩, fun w _ worker hw => once submitted w worker hw⟩

end Pool

end ShardConsole
