import Mathlib.Algebra.BigOperators.Group.Finset.Piecewise
import ShardConsole.Proofs.Pool.Deletions
import ShardConsole.Proofs.Pool.Progress
import ShardConsole.Proofs.Pool.Serial
import ShardConsole.Proofs.Shard.Deletions

/-!
# Concurrent Deletions

What deletions that overlap in time and in names do together.

The queues may have the deletions in different orders, so who counts a name that several of
them name depends on the schedule. It is counted once on each shard that has it, though, for
the deletion that comes first there.

The books are kept on both sides. A call adds up what it is told, and a worker is told by its
shard how many names go with each message that it handles. Since a worker reports in the step
in which it handles the message, both sums are equal at every moment, whatever the messages
are. When all deletions have returned, each worker has handled all of them, in some order, and
the order is of no consequence for one shard.

## Main definitions

* `tally`: The number of names that a worker reports for messages.
* `removed`: The number of names that the calls of a pool have counted.
* `Action.isDeleting`: A step, or a deletion that is not cancelled.
* `named`: The pairs that the deletions of a history name.

## Theorems

* `Change.removed_eq`: What is counted at a moment.
* `Run.removed_eq_sum`: The calls have counted what the workers have reported.
* `Run.exists_deletions`: A worker has handled all deletions when they have returned.
* `Run.deletions_once`: What concurrent deletions count and what they leave.
-/

namespace ShardConsole

namespace Pool

/-- The shard of a worker. -/
def shardOf (p : Pool) (w : WorkerId) : Shard :=
  (p.workers[w]?.map Worker.shard).getD Shard.empty

/-- The number of names that a worker reports as removed for a message. -/
def Message.removed (w : WorkerId) (shard : Shard) : Message → Nat
  | .metric _ => 0
  | .work _ job => (job.reportOf (w, shard)).2.removed

/-- The number of names that a worker reports as removed for messages that it handles one
    after the other. -/
def tally (w : WorkerId) (shard : Shard) : List Message → Nat
  | [] => 0
  | m :: rest => m.removed w shard + tally w (m.apply w shard) rest

/-- The number of names that the calls of a pool have counted. -/
def removed (p : Pool) : Nat :=
  (p.calls.toList.map Call.removed).sum

/-- A step of the pool, or a deletion that is not cancelled. -/
def Action.isDeleting : Action → Bool
  | .step _ => true
  | .delete _ _ cancelled => !cancelled
  | _ => false

/-- The deletions of a history. -/
def deletionsOf (h : List Moment) : List (Kind × List String) :=
  h.flatMap fun m =>
    match m.action with
    | .delete kind names _ => [(kind, names)]
    | _ => []

/-- The pairs of a kind and a name that the deletions of a history name. -/
def named (h : List Moment) : Finset (Kind × String) :=
  pairsOf (deletionsOf h)

section Tallies

variable {start p p' : Pool} {h : List Moment} {a : Action} {c : CallId} {w : WorkerId}
  {worker : Worker} {shard : Shard}

theorem shardOf_eq (hw : p.workers[w]? = some worker) : p.shardOf w = worker.shard := by
  rw [shardOf, hw, Option.map_some, Option.getD_some]

theorem tally_append (first last : List Message) : tally w shard (first ++ last) =
    tally w shard first + tally w (replay w shard first) last := by
  induction first generalizing shard with
  | nil => simp [tally, replay]
  | cons m rest ih => rw [List.cons_append, tally, tally, ih, replay, replay, List.foldl_cons,
      Nat.add_assoc]

-- A call that is changed without a report goes on with the same count.
theorem removed_modifyCall {change : Call → Call}
    (same : ∀ call, (change call).reports = call.reports) :
    (p.modifyCall c change).removed = p.removed := by
  have still (call : Call) : (change call).removed = call.removed := by
    rw [Call.removed, Call.removed, same]
  cases hc : p.calls[c]? with
  | none => rw [modifyCall_eq_self fun call there => by cases hc.symm.trans there]
  | some call =>
      have sum := sum_map_modify Call.removed change (Array.getElem?_toList.trans hc)
      rw [still] at sum
      rw [removed, removed, modifyCall, Array.toList_modify]
      exact Nat.add_right_cancel sum

-- The count of a call grows by what it is told.
theorem removed_noteRun (report : Report) (w : WorkerId) {call : Call}
    (hc : p.calls[c]? = some call) :
    (p.modifyCall c (·.noteRun w report)).removed = p.removed + report.removed := by
  have sum := sum_map_modify Call.removed (·.noteRun w report) (Array.getElem?_toList.trans hc)
  have told : (call.noteRun w report).removed = call.removed + report.removed := by
    simp [Call.removed_eq_sum]
  rw [removed, removed, modifyCall, Array.toList_modify]
  omega

-- Who handles nothing at a moment reports nothing.
theorem sum_tally_eq_zero (none : ∀ w, Moment.handled w ⟨p, a⟩ = []) :
    ∑ w ∈ Finset.range p.size, tally w (p.shardOf w) (Moment.handled w ⟨p, a⟩) = 0 :=
  Finset.sum_eq_zero fun w _ => by rw [none w, tally]

-- What is handled when a worker takes a message is that message, by that worker.
theorem sum_tally_take {v : WorkerId} {message : Message} {rest : List Message}
    (hv : p.workers[v]? = some worker) (queue : worker.queue = message :: rest) :
    ∑ w ∈ Finset.range p.size, tally w (p.shardOf w) (Moment.handled w ⟨p, .step (.take v)⟩) =
      message.removed v worker.shard := by
  have each (w : WorkerId) : tally w (p.shardOf w) (Moment.handled w ⟨p, .step (.take v)⟩) =
      if v = w then message.removed v worker.shard else 0 := by
    by_cases same : v = w
    · subst same
      simp [Moment.handled, queueOf_eq hv, queue, shardOf_eq hv, tally]
    · simp [Moment.handled, same, tally]
  have inside : v ∈ Finset.range p.size := Finset.mem_range.mpr (lt_size_of_worker hv)
  rw [Finset.sum_congr rfl fun w _ => each w, Finset.sum_ite_eq, if_pos inside]

/-- What is counted at a moment is what the workers report for what they handle. -/
theorem Change.removed_eq (change : Change p a p') (acc : Accounts p) (alive : p'.AllAlive) :
    p'.removed = p.removed +
      ∑ w ∈ Finset.range p.size, tally w (p.shardOf w) (Moment.handled w ⟨p, a⟩) := by
  cases change with
  | @merge v worker m rest hv idle queue =>
      rw [sum_tally_take hv queue]
      rfl
  | @run v worker d job rest shard report handoff hv idle queue ran =>
      -- The call that is told is one that has been made.
      have known := acc.known v worker hv d (Worker.mem_owed_of_queued (by simp [queue]))
      have hd : p.calls[d]? = some p.calls[d] := Array.getElem?_eq_getElem known
      have told := removed_noteRun report v
        (p := p.modifyWorker v fun _ => ⟨shard, rest, .holding d handoff⟩) hd
      rw [sum_tally_take hv queue, told, Message.removed, Work.reportOf, ran]
      rfl
  | die hv => exact absurd alive (not_allAlive_bury hv)
  | begin begins =>
      rw [sum_tally_eq_zero fun w => by cases begins <;> rfl]
      cases begins <;> simp [removed, Pool.begin, Call.start, Call.removed]
  | drop =>
      rw [sum_tally_eq_zero fun w => rfl]
      refine removed_modifyCall fun call => ?_
      split <;> simp
  | _ =>
      rw [sum_tally_eq_zero fun w => rfl]
      first
        | rfl
        | exact removed_modifyCall fun call => by simp

/-- Among living workers the calls have counted what the workers have reported for all that
    they have handled. -/
theorem Run.removed_eq_sum (run : Run start h p) (fresh : IsFresh start) (alive : p.AllAlive) :
    p.removed = ∑ w ∈ Finset.range start.size, tally w (start.shardOf w) (handled w h) := by
  induction run with
  | start =>
      rw [removed, fresh.calls]
      exact (Finset.sum_eq_zero fun w _ => rfl).symm
  | @next h p p' a run act ih =>
      have before := alive.of_act? act
      rw [(change_of_act? act).removed_eq (Run.accounts run fresh) alive, ih before,
        Run.size_eq run, ← Finset.sum_add_distrib]
      refine Finset.sum_congr rfl fun w hw => ?_
      -- A worker has the shard that what it has handled has left.
      have inside : w < p.workers.size := by
        rw [← Run.size_eq run] at hw
        exact Finset.mem_range.mp hw
      have hw : p.workers[w]? = some p.workers[w] := Array.getElem?_eq_getElem inside
      rcases Run.shard_eq run hw (before w _ hw) with ⟨first, hf, shard⟩
      rw [handled_snoc, tally_append, shardOf_eq hw, shardOf_eq hf, shard]

end Tallies

section Origins

variable {start p p' : Pool} {h : List Moment} {a b : Action} {c : CallId} {w : WorkerId}
  {call : Call}

theorem Action.isOrdinary_of_isDeleting (deleting : a.isDeleting = true) :
    a.isOrdinary = true := by
  cases a <;> first | rfl | cases deleting

-- Among deletions that are not cancelled no call is cancelled or abandoned.
theorem Run.kept_of_deleting (run : Run start h p) (fresh : IsFresh start)
    (deleting : ∀ m ∈ h, m.action.isDeleting = true) (hc : p.calls[c]? = some call) :
    call.cancelled = false ∧ call.phase ≠ .dropped := by
  induction run generalizing call with
  | start => simp [fresh.calls] at hc
  | @next h p p' a run act ih =>
      have before := fun m hm => deleting m (List.mem_append_left _ hm)
      have now : a.isDeleting = true := deleting ⟨p, a⟩ (by simp)
      rcases (change_of_act? act).callChange hc with ⟨_, begins⟩ | ⟨first, hf, changed⟩
      · cases begins with
        | @delete kind names cancelled =>
            have uncancelled : cancelled = false := by simpa [Action.isDeleting] using now
            exact ⟨uncancelled, by simp [Call.start]⟩
        | _ => cases now
      · rcases ih before hf with ⟨uncancelled, kept⟩
        cases changed with
        | cancel => cases now
        | drop => cases now
        | _ => simp [uncancelled, kept]

-- A call among deletions has been made to delete something.
theorem Run.deletion_of_call (run : Run start h p) (fresh : IsFresh start)
    (deleting : ∀ m ∈ h, m.action.isDeleting = true) (hc : p.calls[c]? = some call) :
    ∃ kind names, Begun h c (.delete kind names false) := by
  rcases run.begun_of_call fresh hc with ⟨a, begun⟩
  have now : a.isDeleting = true := by
    rcases begun with ⟨m, hm, rfl, _⟩
    exact deleting m hm
  rcases run.of_begun begun with ⟨_, _, begins, _⟩
  cases begins with
  | @delete kind names cancelled =>
      have uncancelled : cancelled = false := by simpa [Action.isDeleting] using now
      exact ⟨kind, names, uncancelled ▸ begun⟩
  | _ => cases now

theorem mem_deletionsOf {kind : Kind} {names : List String} : (kind, names) ∈ deletionsOf h ↔
    ∃ m ∈ h, ∃ cancelled, m.action = .delete kind names cancelled := by
  rw [deletionsOf, List.mem_flatMap]
  refine exists_congr fun m => and_congr_right fun _ => ?_
  cases m.action <;> simp [eq_comm]

end Origins

section Handling

variable {start p : Pool} {h : List Moment} {c : CallId} {w : WorkerId} {worker : Worker}
  {message : Message}

/-- The work of a call that deletes names of a kind. -/
def Message.ofDeletion (deletion : CallId × Kind × List String) : Message :=
  .work deletion.1 (Work.delete deletion.2.1 deletion.2.2)

-- Handling deletions one after the other does to a shard, and reports, what they do in a row.
theorem deleteEach_eq (deletions : List (CallId × Kind × List String)) (shard : Shard) :
    shard.deleteEach (deletions.map Prod.snd) =
      (replay w shard (deletions.map Message.ofDeletion),
        tally w shard (deletions.map Message.ofDeletion)) := by
  induction deletions generalizing shard with
  | nil => rfl
  | cons deletion rest ih =>
      have last := ih (shard.deleteAll deletion.2.1 deletion.2.2).1
      rw [List.map_cons, List.map_cons, Shard.deleteEach, last]
      rfl

-- Messages that all come from something come from a list of such things.
theorem exists_map_of_forall {α β : Type} {f : α → β} {P : α → Prop} {results : List β}
    (each : ∀ y ∈ results, ∃ x, y = f x ∧ P x) :
    ∃ items : List α, results = items.map f ∧ ∀ x ∈ items, P x := by
  induction results with
  | nil => exact ⟨[], rfl, by simp⟩
  | cons y rest ih =>
      rcases each y List.mem_cons_self with ⟨x, rfl, hx⟩
      rcases ih fun z hz => each z (List.mem_cons_of_mem _ hz) with ⟨items, rfl, all⟩
      exact ⟨x :: items, rfl, List.forall_mem_cons.mpr ⟨hx, all⟩⟩

-- Where nothing but deletions happens, whatever is put on a queue is the work of one.
theorem Run.deletion_of_enqueued (run : Run start h p) (fresh : IsFresh start)
    (empty : start.queueOf w = []) (deleting : ∀ m ∈ h, m.action.isDeleting = true)
    (mem : message ∈ enqueued start w h) :
    ∃ deletion, message = .ofDeletion deletion ∧
      Begun h deletion.1 (.delete deletion.2.1 deletion.2.2 false) := by
  cases message with
  | metric metric =>
      rw [enqueued, empty, List.nil_append, List.mem_flatMap] at mem
      rcases mem with ⟨m, hm, sent⟩
      have now := deleting m hm
      -- Only a dispatch puts a metric on a queue.
      unfold Moment.sent at sent
      split at sent
      · rename_i action
        rw [action] at now
        cases now
      · split at sent
        · unfold messageOf? at sent
          simp at sent
        · cases sent
      · cases sent
  | work d job =>
      rcases (run.deliveries fresh).work w d job mem with ⟨call, hd, rfl⟩
      rcases run.deletion_of_call fresh deleting hd with ⟨kind, names, begun⟩
      refine ⟨(d, kind, names), ?_, begun⟩
      rw [Message.ofDeletion, (run.deletion_of_begun begun hd).1]

theorem callsOf_deletions (deletions : List (CallId × Kind × List String)) :
    callsOf (deletions.map Message.ofDeletion) = deletions.map Prod.fst := by
  induction deletions with
  | nil => rfl
  | cons deletion rest ih =>
      rw [List.map_cons, List.map_cons, Message.ofDeletion, callsOf_work_cons, ih]

-- A worker has handled the work of a call that has returned without being cancelled.
theorem Run.mem_handled_of_quiet {call : Call} (run : Run start h p) (fresh : IsFresh start)
    (alive : p.AllAlive) (quiet : p.Quiet) (hc : p.calls[c]? = some call)
    (uncancelled : call.cancelled = false) (hw : p.workers[w]? = some worker) :
    c ∈ callsOf (handled w h) := by
  rcases quiet c call hc with ⟨result, phase⟩
  have resolved := (run.returned fresh alive hc uncancelled phase).1
  have given := ((run.accounts fresh).given c call hc).1
  rw [Call.given, phase] at given
  have everyone := run.invocations_perm fresh alive hc resolved
  have mem : w ∈ (invocations c h).map Prod.fst := by
    rw [everyone.mem_iff, List.mem_range, given]
    exact lt_size_of_worker hw
  rwa [← List.count_pos_iff, count_invocations, List.count_pos_iff] at mem

/-- When all deletions have returned, each worker has handled all of them and nothing else. -/
theorem Run.exists_deletions (run : Run start h p) (fresh : IsFresh start)
    (empty : start.queueOf w = []) (deleting : ∀ m ∈ h, m.action.isDeleting = true)
    (quiet : p.Quiet) (hw : p.workers[w]? = some worker) :
    ∃ deletions : List (CallId × Kind × List String),
      handled w h = deletions.map Message.ofDeletion ∧
        pairsOf (deletions.map Prod.snd) = named h := by
  have alive := (run.ordinary fresh fun m hm =>
    Action.isOrdinary_of_isDeleting (deleting m hm)).allAlive
  have each (message : Message) (mem : message ∈ handled w h) :=
    run.deletion_of_enqueued fresh empty deleting
      (by rw [run.enqueued_eq hw (alive w worker hw)]; exact List.mem_append_left _ mem)
  rcases exists_map_of_forall each with ⟨deletions, eq, begun⟩
  refine ⟨deletions, eq, ?_⟩
  ext ⟨kind, name⟩
  rw [named, Shard.mem_pairsOf, Shard.mem_pairsOf]
  refine exists_congr fun names => and_congr_left fun _ => ?_
  rw [mem_deletionsOf]
  constructor
  · intro mem
    rcases List.mem_map.mp mem with ⟨⟨c, _, _⟩, handled, same⟩
    cases same
    rcases begun _ handled with ⟨m, hm, action, _⟩
    exact ⟨m, hm, false, action⟩
  · rintro ⟨m, hm, cancelled, action⟩
    -- The call that this deletion is has returned, so this worker has handled its work.
    have made : Begun h m.before.calls.size (.delete kind names cancelled) :=
      ⟨m, hm, action, rfl, _, .delete⟩
    rcases run.of_begun made with ⟨_, call, _, hc, _⟩
    have uncancelled := (run.kept_of_deleting fresh deleting hc).1
    have mem := run.mem_handled_of_quiet fresh alive quiet hc uncancelled hw
    rw [eq, callsOf_deletions] at mem
    rcases List.mem_map.mp mem with ⟨deletion, handled, number⟩
    have same := run.begun_unique made (number ▸ begun deletion handled)
    simp only [Action.delete.injEq] at same
    exact List.mem_map.mpr ⟨deletion, handled, Prod.ext same.1.symm same.2.1.symm⟩

end Handling

section Counting

variable {start p : Pool} {h : List Moment}

-- The workers of a pool in which all deletions have returned, one by one.
theorem Run.worker_of_quiet {w : WorkerId} (run : Run start h p) (fresh : IsFresh start)
    (empty : start.queueOf w = []) (deleting : ∀ m ∈ h, m.action.isDeleting = true)
    (quiet : p.Quiet) (inside : w < start.size) :
    tally w (start.shardOf w) (handled w h) = ((start.shardOf w).having (named h)).card ∧
      ∀ kind name, (p.shardOf w).totals? kind name =
        if (kind, name) ∈ named h then none else (start.shardOf w).totals? kind name := by
  have alive := (run.ordinary fresh fun m hm =>
    Action.isOrdinary_of_isDeleting (deleting m hm)).allAlive
  rw [← run.size_eq] at inside
  have hw : p.workers[w]? = some p.workers[w] := Array.getElem?_eq_getElem inside
  rcases run.shard_eq hw (alive w _ hw) with ⟨first, hf, shard⟩
  rcases run.exists_deletions fresh empty deleting quiet hw with ⟨deletions, eq, pairs⟩
  have count := Shard.deleteEach_count (deletions.map Prod.snd) first.shard
  have left := Shard.totals?_deleteEach (deletions.map Prod.snd) first.shard
  rw [deleteEach_eq (w := w), ← eq, pairs] at count left
  rw [shardOf_eq hf, shardOf_eq hw, shard]
  exact ⟨count, left⟩

-- What the calls of a quiet pool have returned is what they have counted.
theorem Run.results_of_quiet (run : Run start h p) (fresh : IsFresh start)
    (deleting : ∀ m ∈ h, m.action.isDeleting = true) (quiet : p.Quiet) :
    (List.range p.calls.size).map p.result? =
      (p.calls.toList.map Call.removed).map fun count => some (.ok (.removed count)) := by
  have alive := (run.ordinary fresh fun m hm =>
    Action.isOrdinary_of_isDeleting (deleting m hm)).allAlive
  refine List.ext_getElem (by simp) fun c known _ => ?_
  rw [List.length_map, List.length_range] at known
  have hc : p.calls[c]? = some p.calls[c] := Array.getElem?_eq_getElem known
  rcases quiet c _ hc with ⟨result, phase⟩
  rcases run.deletion_of_call fresh deleting hc with ⟨kind, names, begun⟩
  have purpose := (run.deletion_of_begun begun hc).2
  have uncancelled := (run.kept_of_deleting fresh deleting hc).1
  have shown := (run.returned fresh alive hc uncancelled phase).2
  rw [Call.answer, purpose] at shown
  simp [result?, known, phase, shown]

/-- Deletions that nobody cancels have all returned when no step is left. When they have
    returned, in whatever order the queues had them, they have together counted each pair of a
    kind and a name once for each shard that had it and that any of them names. Every shard has
    lost what is named and nothing else, so the order makes no difference to what is left. -/
theorem Run.deletions_once (run : Run start h p) (fresh : IsFresh start)
    (empty : ∀ w : WorkerId, start.queueOf w = [])
    (deleting : ∀ m ∈ h, m.action.isDeleting = true) :
    (p.Stuck → p.Quiet) ∧
    (p.Quiet → ∃ counts : List Nat,
      (List.range p.calls.size).map p.result? =
        counts.map (fun count => some (.ok (.removed count))) ∧
      counts.sum = ∑ w ∈ Finset.range start.size, ((start.shardOf w).having (named h)).card) ∧
    (p.Quiet → ∀ w : WorkerId, w < start.size → ∀ kind name,
      (p.shardOf w).totals? kind name =
        if (kind, name) ∈ named h then none else (start.shardOf w).totals? kind name) ∧
    (p.Quiet → ∀ h' p', Run start h' p' → (∀ m ∈ h', m.action.isDeleting = true) →
      p'.Quiet → named h' = named h → ∀ w : WorkerId, w < start.size →
        p'.shardOf w = p.shardOf w) := by
  have plain (m : Moment) (hm : m ∈ h) := Action.isOrdinary_of_isDeleting (deleting m hm)
  refine ⟨fun stuck c call hc => ?_, fun quiet => ?_, fun quiet w inside => ?_,
    fun quiet h' p' run' deleting' quiet' same w inside => ?_⟩
  · rcases (run.settled_of_stuck fresh plain stuck).calls c call hc with returned | dropped
    · exact returned
    · exact absurd dropped (run.kept_of_deleting fresh deleting hc).2
  · refine ⟨p.calls.toList.map Call.removed, run.results_of_quiet fresh deleting quiet, ?_⟩
    have alive := (run.ordinary fresh plain).allAlive
    rw [← removed, run.removed_eq_sum fresh alive]
    exact Finset.sum_congr rfl fun w hw =>
      (run.worker_of_quiet fresh (empty w) deleting quiet (Finset.mem_range.mp hw)).1
  · exact (run.worker_of_quiet fresh (empty w) deleting quiet inside).2
  · have here := (run.worker_of_quiet fresh (empty w) deleting quiet inside).2
    have there := (run'.worker_of_quiet fresh (empty w) deleting' quiet' inside).2
    refine Shard.ext_totals? fun kind name => ?_
    rw [here, there, same]

end Counting

/-- Two idle workers that have a name in common, and another one each. -/
def stockedPair : Pool where
  workers := #[
    ⟨(Shard.empty.receive ⟨"a", .empty, .counter 1⟩).receive ⟨"b", .empty, .counter 1⟩, [], .idle⟩,
    ⟨(Shard.empty.receive ⟨"b", .empty, .counter 1⟩).receive ⟨"c", .empty, .counter 1⟩, [], .idle⟩]
  calls := #[]
  opened := []

/-- Two deletions that both name the common name come to the workers in opposite orders. -/
def crossedDeletions : List Action :=
  [.delete .counter ["a", "b"] false, .delete .counter ["b", "c", "b"] false] ++
  List.map Action.step
    [.submit 0, .submit 1, .submit 1, .submit 0, .submit 0, .submit 1,
      .take 0, .dropWork 0, .finish 0, .signal 0, .take 1, .dropWork 1, .finish 1, .signal 1,
      .take 0, .dropWork 0, .finish 0, .signal 0, .take 1, .dropWork 1, .finish 1, .signal 1,
      .conclude 1, .conclude 0]

theorem idle_stockedPair {w : WorkerId} {worker : Worker}
    (hw : stockedPair.workers[w]? = some worker) :
    worker.activity = .idle ∧ worker.queue = [] := by
  have mem := Array.mem_of_getElem? hw
  simp only [stockedPair, List.mem_toArray, List.mem_cons, List.not_mem_nil, or_false] at mem
  rcases mem with rfl | rfl <;> exact ⟨rfl, rfl⟩

theorem isFresh_stockedPair : IsFresh stockedPair where
  calls := rfl
  idle w worker hw := (idle_stockedPair hw).1
  metrics w worker hw := by simp [(idle_stockedPair hw).2]

theorem crossedDeletions_once : ∃ h p, Run stockedPair h p ∧
    p.result? 0 = some (.ok (.removed 2)) ∧ p.result? 1 = some (.ok (.removed 2)) ∧
    ∑ w ∈ Finset.range 2, ((stockedPair.shardOf w).having (named h)).card = 4 := by
  have done : (Trace.perform? act? [] stockedPair crossedDeletions).map (fun r => (r.2.result? 0,
      r.2.result? 1, decide r.2.Quiet, r.2.calls.size)) =
      some (some (.ok (.removed 2)), some (.ok (.removed 2)), true, 2) := by
    decide +kernel
  rcases Option.map_eq_some_iff.mp done with ⟨⟨h, p⟩, performed, facts⟩
  simp only [Prod.mk.injEq] at facts
  rcases facts with ⟨first, second, quiet, size⟩
  have run : Run stockedPair h p := Trace.of_perform? .start performed
  have empty (w : WorkerId) : stockedPair.queueOf w = [] := by
    cases hw : stockedPair.workers[w]? with
    | none => rw [queueOf, hw, Option.map_none, Option.getD_none]
    | some worker => rw [queueOf_eq hw, (idle_stockedPair hw).2]
  have deleting : ∀ m ∈ h, m.action.isDeleting = true := by
    have all : crossedDeletions.all Action.isDeleting = true := by decide
    exact Trace.forall_of_perform? performed all
  rcases (run.deletions_once isFresh_stockedPair empty deleting).2.1 (of_decide_eq_true quiet) with
    ⟨counts, results, sum⟩
  -- The two results are the two counts.
  have two : counts = [2, 2] := by
    have injective : Function.Injective fun count : Nat =>
        (some (.ok (.removed count)) : Option (Except Unavailable Reply)) := by
      intro m n same
      simpa using same
    refine List.map_injective_iff.mpr injective ?_
    rw [← results, size]
    simp [List.range_succ, first, second]
  rw [two] at sum
  exact ⟨h, p, run, first, second, sum.symm⟩

end Pool

end ShardConsole
