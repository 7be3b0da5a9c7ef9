import ShardConsole.Proofs.Pool.Deletions
import ShardConsole.Proofs.Pool.Departures
import ShardConsole.Proofs.Pool.Independence

/-!
# Partial Deletions

What a deletion does and returns when it may be cancelled at any moment.

The counter of a deletion has, at every moment, the reports of exactly those workers that have
run the work by then. A caller that leaves reads it once, so what it returns falls short of
what is removed in the end by what the workers remove that come later.

They run the work all the same, each of them where it stands in its queue, and nothing but the
phase of the call tells that the caller has left.

## Main definitions

* `removedBy`: The number of distinct names that shards had when they were met.

## Theorems

* `Run.removed_at`: What a deletion returns, and when.
* `Run.invocations_eq_of_everyone`: Nobody comes after everybody has run the work.
* `Run.deletion_partial`: What a deletion does and returns, whenever it is cancelled.
-/

namespace ShardConsole

namespace Pool

/-- The number of distinct names that shards had when they were met, taken together. -/
def removedBy (kind : Kind) (names : List String) (visits : List (WorkerId × Shard)) : Nat :=
  (visits.map fun visit => (visit.2.present kind names).card).sum

section Counting

variable {start p : Pool} {h h₁ h₂ : List Moment} {c : CallId} {w : WorkerId} {kind : Kind}
  {names : List String} {cancelled : Bool} {result : Except Unavailable Reply}

theorem removedBy_append (first last : List (WorkerId × Shard)) :
    removedBy kind names (first ++ last) =
      removedBy kind names first + removedBy kind names last := by
  simp only [removedBy, List.map_append, List.sum_append]

theorem invocations_append (c : CallId) (h₁ h₂ : List Moment) :
    invocations c (h₁ ++ h₂) = invocations c h₁ ++ invocations c h₂ :=
  List.flatMap_append

-- What a deletion returns is what had been removed for it when it returned.
theorem Run.removed_at (run : Run start h p) (fresh : IsFresh start) (alive : p.AllAlive)
    (begun : Begun h c (.delete kind names cancelled)) (hr : p.result? c = some result) :
    ∃ h₁ m h₂, h = h₁ ++ m :: h₂ ∧
      (m.action = .step (.conclude c) ∨ m.action = .step (.desist c)) ∧
      result = .ok (.removed (removedBy kind names (invocations c h₁))) := by
  rcases run.phase_of_result fresh alive hr with ⟨call, hc, phase⟩
  rcases run.deletion_of_begun begun hc with ⟨work, purpose⟩
  rcases run.returned_at fresh alive hc phase with
    ⟨h₁, m, h₂, first, rfl, hf, sameWork, form, _, action, same⟩
  rcases run.split with ⟨run₁, _⟩
  have counted := Run.removed_eq run₁ fresh (run.allAlive_before alive) hf (sameWork.trans work)
  have counts : first.purpose = .count :=
    Purpose.eq_count_of_form (form.trans (by rw [purpose]; rfl))
  exact ⟨h₁, m, h₂, rfl, action, by rw [same, Call.answer, counts, counted, removedBy]⟩

-- Only the workers of the pool run anything.
theorem Run.lt_size_of_invocation (run : Run start h p)
    (mem : w ∈ (invocations c h).map Prod.fst) : w < p.size := by
  by_contra outside
  have none : p.workers[w]? = none := Array.getElem?_eq_none_iff.mpr (Nat.not_lt.mp outside)
  rw [← List.count_pos_iff, count_invocations, run.handled_eq_nil none] at mem
  simp at mem

/-- Nobody runs the work of a call any more after everybody has. -/
theorem Run.invocations_eq_of_everyone (run : Run start (h₁ ++ h₂) p) (fresh : IsFresh start)
    (alive : p.AllAlive)
    (everyone : ((invocations c h₁).map Prod.fst).Perm (List.range p.size)) :
    invocations c (h₁ ++ h₂) = invocations c h₁ := by
  have once := run.invocations_nodup fresh alive c
  have inside : ((invocations c (h₁ ++ h₂)).map Prod.fst) ⊆ List.range p.size := by
    intro w mem
    exact List.mem_range.mpr (run.lt_size_of_invocation mem)
  have most := (List.subperm_of_subset once inside).length_le
  have all := everyone.length_eq
  rw [invocations_append, List.map_append, List.length_append, List.length_range] at most
  rw [List.length_range] at all
  have rest : ((invocations c h₂).map Prod.fst).length = 0 := by omega
  rw [List.length_map, List.length_eq_zero_iff] at rest
  rw [invocations_append, rest, List.append_nil]

/-- Among living workers a deletion returns the number of names that had been removed by those
    who had run its work when it returned, at whatever moment it is cancelled: never more than
    is removed in the end, and all of it if everybody had run the work. A cancelled caller can
    always return by its own steps. Every worker runs the work where it stands in its queue,
    and its shard loses exactly the names. Once the work is on all queues every worker has run
    it or will do so, once, and when no step is left everybody has. When the caller has left
    the same actions are possible as if it waited, and they lead to the same pool but for the
    phase of the call. -/
theorem Run.deletion_partial (run : Run start h p) (fresh : IsFresh start) (alive : p.AllAlive)
    (begun : Begun h c (.delete kind names cancelled)) :
    (∀ result, p.result? c = some result → ∃ h₁ m h₂, h = h₁ ++ m :: h₂ ∧
      (m.action = .step (.conclude c) ∨ m.action = .step (.desist c)) ∧
      result = .ok (.removed (removedBy kind names (invocations c h₁))) ∧
      removedBy kind names (invocations c h₁) ≤ removedBy kind names (invocations c h) ∧
      (((invocations c h₁).map Prod.fst).Perm (List.range p.size) →
        invocations c h = invocations c h₁)) ∧
    (∀ call, p.calls[c]? = some call → call.cancelled = true → call.phase.isOpen = true →
      ∃ later q count, Run p later q ∧
        (∀ m ∈ later, m.action = .step (.submit c) ∨ m.action = .step (.desist c)) ∧
        q.result? c = some (.ok (.removed count))) ∧
    (∀ h₁ m h₂, h = h₁ ++ m :: h₂ → ∀ visit ∈ m.met c,
      (∃ rest, enqueued start visit.1 h =
        handled visit.1 h₁ ++ .work c (Work.delete kind names) :: rest) ∧
      ∃ p' worker', m.before.act? m.action = some p' ∧ p'.workers[visit.1]? = some worker' ∧
        Shard.Removes kind names visit.2 worker'.shard) ∧
    (p.Submitted c → ∀ (w : WorkerId) (worker : Worker), p.workers[w]? = some worker →
      ((invocations c h).map Prod.fst).count w + (callsOf worker.queue).count c = 1) ∧
    ((∀ m ∈ h, m.action.isOrdinary = true) → p.Stuck →
      ((invocations c h).map Prod.fst).Perm (List.range p.size)) ∧
    (∀ m ∈ h, m.action.ends c = true → ∀ call q, m.before.calls[c]? = some call →
      call.phase = .waiting → m.before.act? m.action = some q →
      ∃ phase, ∀ actions : List Action, (∀ a ∈ actions, a.ends c = false) →
        (Trace.perform? act? [] q actions).map Prod.snd =
          (Trace.perform? act? [] m.before actions).map fun r =>
            r.2.modifyCall c (·.inPhase phase)) := by
  rcases run.of_begun begun with ⟨_, call, _, hc, _⟩
  rcases run.deletion_of_begun begun hc with ⟨work, purpose⟩
  refine ⟨fun result hr => ?_, fun other ho isCancelled opens => ?_,
    fun h₁ m h₂ split visit met => ?_,
    fun submitted w worker hw => run.once_each fresh alive submitted hw,
    fun plain stuck => run.everyone_of_stuck fresh plain stuck hc, ?_⟩
  · rcases run.removed_at fresh alive begun hr with ⟨h₁, m, h₂, rfl, action, same⟩
    refine ⟨h₁, m, h₂, rfl, action, same, ?_, run.invocations_eq_of_everyone fresh alive⟩
    rw [invocations_append, removedBy_append]
    exact Nat.le_add_right _ _
  · rcases run.deletion_of_begun begun ho with ⟨_, purpose⟩
    rcases returns_by_itself alive ho isCancelled (by rw [purpose, Purpose.form]; simp) opens with
      ⟨later, q, result, run', alive', own, hr⟩
    rcases Run.removed_at (run.trans run') fresh alive' (begun.append_right later) hr with
      ⟨_, _, _, _, _, rfl⟩
    exact ⟨later, q, _, run', own, hr⟩
  · have hm : m ∈ h := by simp [split]
    rcases run.applied_of_met fresh alive hc hm met with ⟨p', worker', act, hw', shard⟩
    rw [work] at shard
    refine ⟨?_, p', worker', act, hw', shard ▸ Shard.removes_deleteAll visit.2 kind names⟩
    rcases run.enqueued_of_met alive split met with ⟨job, rest, eq⟩
    -- What stood there is the work that the call has.
    rcases (run.deliveries fresh).work visit.1 c job (by rw [eq]; simp) with ⟨same, hs, rfl⟩
    cases hc.symm.trans hs
    exact ⟨rest, by rw [eq, work]⟩
  · intro m hm leaves first q hf waiting act
    rcases List.append_of_mem hm with ⟨h₁, h₂, rfl⟩
    have purpose' : first.purpose = .count := by
      rcases run.call_after hf with ⟨last, hl, _, form⟩
      cases hc.symm.trans hl
      exact Purpose.eq_count_of_form (form.symm.trans (by rw [purpose]; rfl))
    rcases eq_inPhase_of_ends hf purpose' waiting leaves act with ⟨phase, past, rfl⟩
    exact ⟨phase, fun actions stay => perform?_inPhase hf purpose'
      (fun w => by rw [waiting]; simp) past stay [] []⟩

end Counting

/-- Two workers have a name in common. The caller leaves when one of them has deleted it, and
    the other one deletes it afterwards. -/
def hastyDeletion : List Action :=
  [.dispatch 0 ⟨"a", .empty, .counter 2⟩, .dispatch 1 ⟨"a", .empty, .counter 1⟩,
    .delete .counter ["a"] false] ++
  List.map Action.step [.submit 0, .submit 0, .submit 0, .take 1, .take 1] ++
  [.cancel 0] ++ List.map Action.step [.desist 0, .dropWork 1, .finish 1, .take 0, .take 0]

theorem hastyDeletion_partial : ∃ h p, Run (start 2) h p ∧
    p.result? 0 = some (.ok (.removed 1)) ∧
    (∃ h₁ m h₂, h = h₁ ++ m :: h₂ ∧ removedBy .counter ["a"] (invocations 0 h₁) = 1) ∧
    removedBy .counter ["a"] (invocations 0 h) = 2 ∧
    (∀ h₁ m h₂, h = h₁ ++ m :: h₂ → ∀ visit ∈ m.met 0, ∃ rest, enqueued (start 2) visit.1 h =
      handled visit.1 h₁ ++ .work 0 (Work.delete .counter ["a"]) :: rest) := by
  have done : (Trace.perform? act? [] (start 2) hastyDeletion).map (fun r => (r.2.result? 0,
      r.2.workers.all Worker.isAlive, r.1[2]?.map (fun m => m.before.calls.size),
      removedBy .counter ["a"] (invocations 0 r.1))) =
      some (some (.ok (.removed 1)), true, some 0, 2) := by
    decide +kernel
  rcases Option.map_eq_some_iff.mp done with ⟨⟨h, p⟩, performed, facts⟩
  simp only [Prod.mk.injEq] at facts
  rcases facts with ⟨result, alive, number, all⟩
  have run : Run (start 2) h p := Trace.of_perform? .start performed
  have begun : Begun h 0 (.delete .counter ["a"] false) :=
    begun_of_perform? performed rfl number .delete
  rcases run.deletion_partial (isFresh_start 2) (allAlive_of_all alive) begun with
    ⟨results, _, places, _⟩
  rcases results _ result with ⟨h₁, m, h₂, split, _, same, _, _⟩
  simp only [Except.ok.injEq, Reply.removed.injEq] at same
  refine ⟨h, p, run, result, ⟨h₁, m, h₂, split, same.symm⟩, all, fun h₁ m h₂ split visit met => ?_⟩
  exact (places h₁ m h₂ split visit met).1

end Pool

end ShardConsole
