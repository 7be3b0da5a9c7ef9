import Mathlib.Algebra.BigOperators.Group.List.Basic
import Mathlib.Algebra.GroupWithZero.Nat
import ShardConsole.Proofs.Pool.Progress
import ShardConsole.Proofs.Shard.Names

/-!
# Exact Deletions

What a call that deletes names does and what it returns.

Each worker deletes the names from its own shard at the moment at which it takes the work
from its queue, and reports how many of them it had. The call adds the reports up. A
worker reports in the same step in which it runs the work, and gives its completion signal
only later, so when all tickets are resolved every report is in the sum, in whatever order
the workers came. By the theory of progress the tickets are resolved, and the caller has the
sum, when no step is left and nobody stands at a closed gate.

The shards are those that the work has met. They differ from one run to the next with the
metrics that have arrived before, and a name may be in several of them, because metrics
can be given to a worker of choice.

## Main definitions

* `Work.reportOf`: What the work of a call reports of a shard.

## Theorems

* `Run.reports_eq`: A call has the reports of all workers that have run its work.
* `Run.applied_of_met`: A worker that runs the work of a call applies it to its shard.
* `Run.removed_eq`: What a deletion has counted.
* `Run.removed_of_result`: What an uncancelled deletion returns.
* `Run.deletion_exact`: An uncancelled deletion removes and counts exactly what is there.
-/

namespace ShardConsole

namespace Pool

/-- What some work reports when it meets the shard of a worker. -/
def Work.reportOf (job : Work) (visit : WorkerId × Shard) : WorkerId × Report :=
  (visit.1,
    match job.invoke visit.1 visit.2 with
    | .failed => .nothing
    | .ran _ report _ => report)

section Reports

variable {start p p' : Pool} {h : List Moment} {a : Action} {m : Moment} {c : CallId}
  {w : WorkerId} {shard : Shard} {worker : Worker} {call call' : Call}

-- The reports of a call grow by that of the worker that runs its work.
theorem CallChange.reports_eq (change : CallChange p c call a call')
    (alive : ∀ (w : WorkerId) (worker : Worker), a = .step (.take w) →
      p.workers[w]? = some worker → worker.isDoomed w = false)
    (work : ∀ (w : WorkerId) (worker : Worker) (job : Work) (rest : List Message),
      p.workers[w]? = some worker → worker.queue = .work c job :: rest → job = call.work) :
    call'.reports = call.reports ++ (Moment.met c ⟨p, a⟩).map call.work.reportOf := by
  cases change with
  | stay avoids => rw [avoids.met, List.map_nil, List.append_nil]
  | @run w worker job rest shard report handoff hw idle queue ran =>
      rw [met_of_work hw queue, if_pos rfl, ← work w worker job rest hw queue]
      simp [Work.reportOf, ran]
  | @lose w worker d job rest hw idle queue failed =>
      -- A worker that dies reports nothing, but nobody dies.
      have doomed := alive w worker rfl hw
      simp [Worker.isDoomed, queue, failed] at doomed
  | _ =>
    simp [Moment.met]

/-- Among living workers a call has the reports of all that have run its work. -/
theorem Run.reports_eq (run : Run start h p) (fresh : IsFresh start) (alive : p.AllAlive)
    (hc : p.calls[c]? = some call) :
    call.reports = (invocations c h).map call.work.reportOf := by
  induction run generalizing call with
  | start => simp [fresh.calls] at hc
  | @next h p p' a run act ih =>
      have before := alive.of_act? act
      rw [invocations_snoc, List.map_append]
      rcases (change_of_act? act).callChange hc with ⟨same, begins⟩ | ⟨first, hf, changed⟩
      · rw [(Run.silent run fresh (Nat.le_of_eq same.symm)).1]
        cases begins <;> rfl
      · rw [changed.work_eq, ← ih before hf]
        refine changed.reports_eq (fun w worker action hw => ?_) fun w worker job rest hw queue =>
          Run.work_of_queue run fresh hw queue hf
        subst action
        exact alive.not_doomed act hw

-- The number of names that a call has counted is the sum of what it was told.
theorem Call.removed_eq_sum (call : Call) :
    call.removed = (call.reports.map fun report => report.2.removed).sum := by
  rw [Call.removed, List.sum_eq_foldl, List.foldl_map]

/-- A worker that runs the work of a call applies it to its shard, and does nothing else to
    the shard at that moment. -/
theorem Run.applied_of_met {visit : WorkerId × Shard} (run : Run start h p)
    (fresh : IsFresh start) (alive : p.AllAlive) (hc : p.calls[c]? = some call) (hm : m ∈ h)
    (met : visit ∈ m.met c) :
    ∃ p' worker', m.before.act? m.action = some p' ∧ p'.workers[visit.1]? = some worker' ∧
      worker'.shard = (Message.work c call.work).apply visit.1 visit.2 := by
  have survives := run.survives_of_met fresh alive hc hm met
  rcases run.runs_of_met fresh hc hm met survives with
    ⟨rest, after, report, handoff, p', _, _, ran, act, hw'⟩
  exact ⟨p', _, act, hw', by rw [Message.apply, ran]⟩

-- What a deletion has counted is what those had who have run its work.
theorem Run.removed_eq {kind : Kind} {names : List String} (run : Run start h p)
    (fresh : IsFresh start) (alive : p.AllAlive) (hc : p.calls[c]? = some call)
    (work : call.work = Work.delete kind names) : call.removed =
      ((invocations c h).map fun visit => (visit.2.present kind names).card).sum := by
  have counts (visit : WorkerId × Shard) :
      ((Work.delete kind names).reportOf visit).2.removed = (visit.2.present kind names).card :=
    Shard.deleteAll_count visit.2 kind names
  simp only [Call.removed_eq_sum, run.reports_eq fresh alive hc, work, List.map_map,
    Function.comp_def, counts]

/-- What an uncancelled deletion returns is the number of distinct names that the shards had
    when they were met, summed over all that were met. -/
theorem Run.removed_of_result {kind : Kind} {names : List String} {cancelled : Bool}
    {result : Except Unavailable Reply} (run : Run start h p) (fresh : IsFresh start)
    (alive : p.AllAlive) (begun : Begun h c (.delete kind names cancelled))
    (hc : p.calls[c]? = some call) (uncancelled : call.cancelled = false)
    (hr : p.result? c = some result) :
    result = .ok (.removed
      ((invocations c h).map fun visit => (visit.2.present kind names).card).sum) := by
  rcases run.deletion_of_begun begun hc with ⟨work, purpose⟩
  rcases run.result_eq fresh alive hc uncancelled hr with ⟨_, eq, _⟩
  rw [eq, Call.answer, purpose, ← run.removed_eq fresh alive hc work]

/-- Among living workers, whenever the work of a deletion is run, the shard loses exactly
    the names with all their tag sets. What an uncancelled deletion returns is the number of
    distinct names that the shards had at those moments, summed over all workers, each of which
    has run the work once. Without further submissions there are at most as many steps as the
    load says, and when none is left and nobody stands at a closed gate, the caller has got that
    number, unless it has given up. -/
theorem Run.deletion_exact {kind : Kind} {names : List String} (run : Run start h p)
    (fresh : IsFresh start) (alive : p.AllAlive)
    (begun : Begun h c (.delete kind names false)) (hc : p.calls[c]? = some call) :
    (∀ m ∈ h, ∀ visit ∈ m.met c, ∃ p' worker', m.before.act? m.action = some p' ∧
      p'.workers[visit.1]? = some worker' ∧ Shard.Removes kind names visit.2 worker'.shard) ∧
    (∀ result, call.cancelled = false → p.result? c = some result →
      result = .ok (.removed
        ((invocations c h).map fun visit => (visit.2.present kind names).card).sum) ∧
      ((invocations c h).map Prod.fst).Perm (List.range p.size)) ∧
    (call.cancelled = false → call.phase ≠ .dropped → p.Stuck → p.Ungated →
      p.result? c = some (.ok (.removed
        ((invocations c h).map fun visit => (visit.2.present kind names).card).sum)) ∧
      ((invocations c h).map Prod.fst).Perm (List.range p.size)) ∧
    ∀ later q, Run p later q → (∀ m ∈ later, m.action.submits = false) →
      stepsOf later ≤ p.load := by
  have returned {result : Except Unavailable Reply} (uncancelled : call.cancelled = false)
      (hr : p.result? c = some result) :=
    And.intro (run.removed_of_result fresh alive begun hc uncancelled hr)
      (run.invocations_of_result fresh alive hc uncancelled hr)
  refine ⟨fun m hm visit met => ?_, fun result uncancelled hr => returned uncancelled hr,
    fun uncancelled kept stuck ungated => ?_, fun later q run' quiet => ?_⟩
  · rcases run.applied_of_met fresh alive hc hm met with ⟨p', worker', act, hw', shard⟩
    refine ⟨p', worker', act, hw', ?_⟩
    rw [shard, (run.deletion_of_begun begun hc).1]
    exact Shard.removes_deleteAll visit.2 kind names
  · rcases run.result_of_stuck fresh stuck ungated hc kept with ⟨result, hr⟩
    rcases returned uncancelled hr with ⟨rfl, everyone⟩
    exact ⟨hr, everyone⟩
  · have steps := run'.stepsOf_le quiet
    omega

end Reports

/-- Two workers have a name in common. It is asked for twice, beside one that nobody has. -/
def deletionOfTwo : List Action :=
  [.dispatch 0 ⟨"a", .empty, .counter 2⟩, .dispatch 1 ⟨"a", .empty, .counter 1⟩,
    .dispatch 1 ⟨"b", .empty, .counter 5⟩, .delete .counter ["a", "x", "a"] false] ++
  List.map Action.step
    [.submit 0, .submit 0, .submit 0, .take 1, .take 1, .take 1, .dropWork 1, .take 0, .finish 1,
      .take 0, .dropWork 0, .finish 0, .signal 0, .signal 1, .conclude 0]

theorem deletionOfTwo_exact : ∃ h p, Run (start 2) h p ∧
    p.result? 0 = some (.ok (.removed 2)) ∧
    (∀ m ∈ h, ∀ visit ∈ m.met 0, ∃ p' worker', m.before.act? m.action = some p' ∧
      p'.workers[visit.1]? = some worker' ∧
        Shard.Removes .counter ["a", "x", "a"] visit.2 worker'.shard) ∧
    ((invocations 0 h).map fun visit => (visit.2.present .counter ["a", "x", "a"]).card).sum = 2 ∧
    ((invocations 0 h).map Prod.fst).Perm [0, 1] := by
  have done : (Trace.perform? act? [] (start 2) deletionOfTwo).map (fun r => (r.2.result? 0,
      r.2.workers.all Worker.isAlive, r.2.calls[0]?.map Call.cancelled, r.2.size,
      r.1[3]?.map fun m => m.before.calls.size)) =
      some (some (.ok (.removed 2)), true, some false, 2, some 0) := by
    decide +kernel
  rcases Option.map_eq_some_iff.mp done with ⟨⟨h, p⟩, performed, facts⟩
  simp only [Prod.mk.injEq] at facts
  rcases facts with ⟨result, alive, cancelled, size, number⟩
  rcases Option.map_eq_some_iff.mp cancelled with ⟨call, hc, uncancelled⟩
  have run : Run (start 2) h p := Trace.of_perform? .start performed
  have begun : Begun h 0 (.delete .counter ["a", "x", "a"] false) :=
    begun_of_perform? performed rfl number .delete
  rcases run.deletion_exact (isFresh_start 2) (allAlive_of_all alive) begun hc with
    ⟨removes, exact, _⟩
  rcases exact _ uncancelled result with ⟨count, everyone⟩
  rw [size] at everyone
  simp only [Except.ok.injEq, Reply.removed.injEq] at count
  exact ⟨h, p, run, result, removes, count.symm, everyone⟩

end Pool

end ShardConsole
