import ShardConsole.Proofs.Pool.Failures
import ShardConsole.Proofs.Pool.Listings

/-!
# Listings of the Survivors

What a listing shows when workers die while it is under way.

A listing that comes to a dead worker is refused like any other call. But once its work is on
all queues, its caller only waits for the channel to be closed. The closer waits for the
tickets, and it lets go of the channel when they are resolved, whether a worker has died or
not; it does not tell the caller which. So a worker that dies with the work on its queue is
missing from the text, and the listing is returned as if it were complete. A deletion in the
same place waits for the tickets itself and returns the error.

What the text shows can still be said exactly. It is made up of the listings of those shards
whose workers have ended the hand-off, each as the work met it, and every other worker has
died before it came to the work. The text is complete if and only if waiting for the tickets
would have succeeded.

## Main definitions

* `SurvivingListing`: A text that shows the shards of the workers that got that far.

## Theorems

* `Run.mem_handled_iff`: What a worker has taken of the work that cannot fail.
* `Run.invocations_perm_finished`: Who has run work that cannot fail, when the tickets are
  resolved.
* `SurvivingListing.complete_iff`: When such a text is complete.
* `Run.listing_survives`: What an uncancelled listing returns in any run.
* `brokenListing_incomplete`: A listing is returned without the shard of a dead worker.
-/

namespace ShardConsole

namespace Pool

/-- A text shows the shards of the workers that have ended the hand-off for a call, each as the
    work met it, in some order and without the empty listings. The others have died with the
    work. -/
structure SurvivingListing (h : List Moment) (p : Pool) (c : CallId) (kind : Kind)
    (text : String) : Prop where
  visited : ((invocations c h).map Prod.fst).Perm
    ((List.range p.size).filter fun w => c ∈ finished w h)
  missing : ∀ (w : WorkerId) (worker : Worker), p.workers[w]? = some worker →
    c ∉ finished w h → c ∈ lost w h ∧ worker.isAlive = false
  parts : ∃ order : List String,
    order.Perm (((invocations c h).map fun visit => visit.2.text kind).filter (· ≠ "")) ∧
      text = String.join order

section Surviving

variable {start p : Pool} {h : List Moment} {m : Moment} {c : CallId} {w : WorkerId}
  {worker : Worker} {call : Call} {kind : Kind} {text : String}

-- What comes first in a concatenation comes first in one of its parts.
theorem mem_take_one_flatMap {α β : Type} {f : α → List β} {l : List α} {b : β}
    (hb : b ∈ (l.flatMap f).take 1) : ∃ a ∈ l, b ∈ (f a).take 1 := by
  induction l with
  | nil => simp at hb
  | cons a l ih =>
      rw [List.flatMap_cons] at hb
      cases hf : f a with
      | nil =>
          rw [hf, List.nil_append] at hb
          rcases ih hb with ⟨a', ha', hb'⟩
          exact ⟨a', List.mem_cons_of_mem _ ha', hb'⟩
      | cons first rest =>
          rw [hf] at hb
          exact ⟨a, List.mem_cons_self, by rw [hf]; simpa using hb⟩

-- The work of which a worker dies is the one that it takes.
theorem met_of_lost (mem : c ∈ (m.lost w).take 1) : ∃ worker,
    m.before.workers[w]? = some worker ∧ (w, worker.shard) ∈ m.met c ∧
      worker.isDoomed w = true := by
  rcases m with ⟨p, a⟩
  rcases doomed_of_mem_lost (List.mem_of_mem_take mem) with ⟨rfl, worker, hw, doomed⟩
  refine ⟨worker, hw, ?_, doomed⟩
  rw [lost_take hw, if_pos ⟨rfl, doomed⟩] at mem
  -- Whoever dies has the work at the front of its queue.
  cases queue : worker.queue with
  | nil => simp [queue] at mem
  | cons message rest =>
      cases message with
      | metric => simp [Worker.isDoomed, queue] at doomed
      | work d job =>
          have same : c = d := by simpa [queue] using mem
          rw [met_of_work hw queue, if_pos same.symm]
          exact List.mem_singleton_self _

-- Nobody dies of work that cannot fail.
theorem Run.notMem_lost_head (run : Run start h p) (fresh : IsFresh start)
    (hc : p.calls[c]? = some call) (unfailing : ∀ shard, call.work.invoke w shard ≠ .failed) :
    c ∉ (lost w h).take 1 := by
  intro mem
  rcases mem_take_one_flatMap mem with ⟨m, hm, mem⟩
  rcases met_of_lost mem with ⟨worker, hw, met, doomed⟩
  rcases run.work_of_met fresh hc hm met with ⟨_, same, rest, hs, _, queue⟩
  cases hw.symm.trans hs
  cases outcome : call.work.invoke w worker.shard with
  | failed => exact unfailing _ outcome
  | ran => simp [Worker.isDoomed, queue, outcome] at doomed

/-- Work that cannot fail has been taken by the workers that have given their signal for it, and
    by those that are busy with it. -/
theorem Run.mem_handled_iff (run : Run start h p) (fresh : IsFresh start)
    (hw : p.workers[w]? = some worker) (hc : p.calls[c]? = some call)
    (unfailing : ∀ shard, call.work.invoke w shard ≠ .failed) :
    c ∈ callsOf (handled w h) ↔ c ∈ signalled w h ∨ worker.activity.call? = some c := by
  have alone := run.notMem_lost_head fresh hc unfailing
  rw [run.callsOf_handled fresh hw]
  simp [alone]

-- No worker, dead or alive, has taken the work of a call twice.
theorem Run.nodup_taken (run : Run start h p) (fresh : IsFresh start) (w : WorkerId) :
    (callsOf (handled w h)).Nodup := by
  cases hw : p.workers[w]? with
  | none => simp [run.handled_eq_nil hw]
  | some worker =>
      have once := (run.deliveries fresh).once w
      rw [run.given_eq fresh hw, Worker.owed, ← List.append_assoc] at once
      rw [run.callsOf_handled fresh hw]
      refine ((List.nodup_append.mp once).1).sublist ?_
      exact ((List.take_sublist 1 _).append_left _).append_right _

/-- When the tickets of a call are resolved whose work cannot fail, those have run it, once,
    that have ended the hand-off. -/
theorem Run.invocations_perm_finished (run : Run start h p) (fresh : IsFresh start)
    (hc : p.calls[c]? = some call) (resolved : call.isResolved = true)
    (unfailing : ∀ w shard, call.work.invoke w shard ≠ .failed) :
    ((invocations c h).map Prod.fst).Perm
      ((List.range p.size).filter fun w => c ∈ finished w h) := by
  have nodup : ((invocations c h).map Prod.fst).Nodup := by
    rw [List.nodup_iff_count_le_one]
    intro w
    rw [count_invocations]
    exact List.nodup_iff_count_le_one.mp (run.nodup_taken fresh w) c
  rw [List.perm_ext_iff_of_nodup nodup (List.nodup_range.filter _)]
  intro w
  rw [← List.count_pos_iff, count_invocations, List.count_pos_iff, List.mem_filter,
    List.mem_range, decide_eq_true_iff]
  cases hw : p.workers[w]? with
  | none =>
      have outside : p.size ≤ w := Array.getElem?_eq_none_iff.mp hw
      rw [run.handled_eq_nil hw, callsOf_nil]
      simp [Nat.not_lt.mpr outside]
  | some worker =>
      -- Nobody is busy for the call any more.
      have inside := lt_size_of_worker hw
      have quiet := (run.accounts fresh).not_busy hw hc resolved
      rw [run.mem_handled_iff fresh hw hc (unfailing w), run.finished_eq fresh hw]
      have unsignalled : worker.activity.signals? ≠ some c := by
        intro signals
        refine quiet ?_
        cases activity : worker.activity <;> simp_all [Activity.signals?, Activity.call?]
      simp [quiet, unsignalled, inside]

/-- The text of the survivors is complete exactly if all hand-offs are over. -/
theorem SurvivingListing.complete_iff (surviving : SurvivingListing h p c kind text) :
    CompleteListing h c kind p.size text ↔ ∀ w < p.size, c ∈ finished w h := by
  constructor
  · intro complete w hlt
    have mem : w ∈ List.range p.size := List.mem_range.mpr hlt
    have visited := surviving.visited.symm.trans complete.everyone
    rw [← visited.mem_iff, List.mem_filter] at mem
    exact of_decide_eq_true mem.2
  · intro everyone
    refine ⟨?_, surviving.parts⟩
    have all : (List.range p.size).filter (fun w => c ∈ finished w h) = List.range p.size := by
      rw [List.filter_eq_self]
      intro w mem
      exact decide_eq_true (everyone w (List.mem_range.mp mem))
    rw [← all]
    exact surviving.visited

/-- What the caller of an uncancelled listing has taken shows the survivors when the tickets are
    resolved and all that was handed over has been taken. -/
theorem Run.surviving_of_received {intake : Intake} (run : Run start h p) (fresh : IsFresh start)
    (hc : p.calls[c]? = some call) (hi : call.intake? = some intake)
    (work : call.work = Work.list kind) (uncancelled : call.cancelled = false)
    (kept : call.phase ≠ .dropped) (accepted : ∀ cause, call.phase ≠ .refused cause)
    (given : call.tickets.size = p.size) (resolved : call.isResolved = true)
    (taken : (handed c h).map Prod.snd = received c h) :
    SurvivingListing h p c kind intake.output where
  visited := by
    refine run.invocations_perm_finished fresh hc resolved fun w shard failed => ?_
    rw [work] at failed
    cases failed
  missing := by
    intro w worker hw unfinished
    have hlt : w < call.tickets.size := given ▸ lt_size_of_worker hw
    rcases run.finished_or_lost fresh hw hc resolved hlt with ⟨_, mem, _⟩ | ⟨_, _, dies⟩
    · exact absurd mem unfinished
    · exact dies
  parts := by
    have perm := run.handed_perm fresh hc hi work uncancelled kept accepted resolved
    refine ⟨received c h, ?_, (run.intake_eq fresh hc hi).1⟩
    rw [← taken, ← map_partsOf]
    exact perm.map Prod.snd

/-- In every run, whoever dies and whenever, an uncancelled listing that returns was refused,
    because it came to a dead worker, or it returns the text of the survivors. That text is
    complete exactly if waiting for the tickets would have succeeded. -/
theorem Run.listing_survives {capacity : Nat} {result : Except Unavailable Reply}
    (run : Run start h p) (fresh : IsFresh start) (begun : Begun h c (.list capacity kind false))
    (hc : p.calls[c]? = some call) (uncancelled : call.cancelled = false)
    (hr : p.result? c = some result) :
    (∃ d, result = .error ⟨d⟩ ∧ ∃ m ∈ h, ∃ worker, m.Reaches c d worker ∧
      worker.isAlive = false) ∨
    ∃ text, result = .ok (.listing text) ∧ SurvivingListing h p c kind text ∧
      (CompleteListing h c kind p.size text ↔ call.wait? = some (.ok ())) := by
  rcases run.listing_of_begun begun hc with ⟨work, intake, purpose⟩
  have hi : call.intake? = some intake := by rw [Call.intake?, purpose]
  unfold result? at hr
  rw [hc, Option.map_some] at hr
  split at hr
  · rename_i same
    cases hr
    have phase := Option.some.inj same
    rcases run.returned_verdict fresh hc (.of_uncancelled uncancelled) phase with ⟨resolved, eq⟩
    have given := ((run.accounts fresh).given c call hc).1
    rw [Call.given, phase] at given
    have taken := run.received_eq fresh hc hi uncancelled phase
    have surviving := run.surviving_of_received fresh hc hi work uncancelled (by simp [phase])
      (by simp [phase]) given resolved taken
    refine Or.inr ⟨intake.output, ?_, surviving, ?_⟩
    · -- A lost ticket makes no difference to a listing.
      rw [eq, Call.verdict, hi, Call.answer, purpose]
    · rw [surviving.complete_iff]
      refine Iff.trans ?_ (run.wait?_eq_some_iff fresh hc given).symm
      simp [resolved]
  · rename_i cause same
    cases hr
    have refusal := refusal?_eq_some_iff.mpr ⟨call, hc, Option.some.inj same⟩
    exact Or.inl ⟨cause.worker, rfl, (run.refusal?_iff fresh).mp refusal⟩
  · cases hr

end Surviving

/-- The second of two workers dies while a listing and a deletion are on its queue. -/
def brokenListing : List Action :=
  [.dispatch 0 ⟨"a", .empty, .counter 2⟩, .dispatch 1 ⟨"b", .empty, .counter 1⟩,
    .process (Work.crash 1), .list 1 .counter false, .delete .counter ["x"] false] ++
  List.map Action.step
    [.submit 0, .submit 0, .submit 0, .submit 1, .submit 1, .submit 1, .submit 2, .submit 2,
      .submit 2, .take 1, .take 1, .take 0, .take 0, .dropWork 0, .finish 0, .signal 0,
      .take 0, .dropWork 0, .handOver 0, .finish 0, .signal 0, .take 0, .dropWork 0, .finish 0,
      .signal 0, .letGo 1, .receive 1, .conclude 1, .conclude 2]

-- What comes of these actions: the two results, and who has run the work of the listing.
theorem perform?_brokenListing : ∃ h p call,
    Trace.perform? act? [] (start 2) brokenListing = some (h, p) ∧
    Begun h 1 (.list 1 .counter false) ∧ p.calls[1]? = some call ∧ call.cancelled = false ∧
    p.result? 1 = some (.ok (.listing "a=2\n")) ∧ p.result? 2 = some (.error ⟨1⟩) ∧
    (invocations 1 h).map Prod.fst = [0] := by
  have done : (Trace.perform? act? [] (start 2) brokenListing).map (fun r =>
      (r.2.result? 1, r.2.result? 2)) =
      some (some (.ok (.listing "a=2\n")), some (.error ⟨1⟩)) := by
    decide +kernel
  have more : (Trace.perform? act? [] (start 2) brokenListing).map (fun r =>
      (r.1[3]?.map fun m => m.before.calls.size, r.2.calls[1]?.map Call.cancelled,
        (invocations 1 r.1).map Prod.fst)) = some (some 1, some false, [0]) := by
    decide +kernel
  rcases Option.map_eq_some_iff.mp done with ⟨⟨h, p⟩, performed, facts⟩
  rw [performed, Option.map_some, Option.some.injEq] at more
  simp only [Prod.mk.injEq] at facts more
  rcases Option.map_eq_some_iff.mp more.2.1 with ⟨call, hc, uncancelled⟩
  have created : Channel.create? (max 1 1) = some ⟨1, [], [.closer], true⟩ := by decide +kernel
  have begun : Begun h 1 (.list 1 .counter false) :=
    begun_of_perform? performed rfl more.1 (.list created)
  exact ⟨h, p, call, performed, begun, hc, uncancelled, facts.1, facts.2, more.2.2⟩

theorem brokenListing_survives : ∃ h p, Run (start 2) h p ∧
    SurvivingListing h p 1 .counter "a=2\n" := by
  rcases perform?_brokenListing with ⟨h, p, call, performed, begun, hc, uncancelled, result, _⟩
  have run : Run (start 2) h p := Trace.of_perform? .start performed
  rcases run.listing_survives (isFresh_start 2) begun hc uncancelled result with
    ⟨_, error, _⟩ | ⟨text, same, surviving, _⟩
  · cases error
  · cases same
    exact ⟨h, p, run, surviving⟩

/-- The listing comes back without the metric of the dead worker and without an error. The
    deletion, which was in the same place, comes back with one. -/
theorem brokenListing_incomplete : ∃ h p call, Run (start 2) h p ∧
    Begun h 1 (.list 1 .counter false) ∧ p.calls[1]? = some call ∧ call.cancelled = false ∧
    p.result? 1 = some (.ok (.listing "a=2\n")) ∧ p.result? 2 = some (.error ⟨1⟩) ∧
    ¬ CompleteListing h 1 .counter 2 "a=2\n" := by
  rcases perform?_brokenListing with
    ⟨h, p, call, performed, begun, hc, uncancelled, listed, deleted, visited⟩
  refine ⟨h, p, call, Trace.of_perform? .start performed, begun, hc, uncancelled, listed, deleted,
    fun complete => ?_⟩
  -- Both workers would have to have run the work.
  have everyone := complete.everyone.length_eq
  rw [visited] at everyone
  simp at everyone

end Pool

end ShardConsole
