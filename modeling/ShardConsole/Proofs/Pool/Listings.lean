import ShardConsole.Proofs.Pool.Intakes
import ShardConsole.Proofs.Pool.Parts

/-!
# Complete Listings

A listing that nobody cancels shows every shard.

The work of a listing goes to every worker. Each of them renders its own shard at the
moment at which it takes the work from its queue, and hands the text over unless it is
empty. Between the workers and the caller there is a channel which may have room for a
single text only, so workers may have to wait, and the texts come in any order. The caller
returns what it has taken when it sees the channel closed.

What has to be excluded is that the channel is seen closed too early, with a text on its
way or before some worker has got that far. `Run.listing_complete` does so for every run
in which no worker dies: at the moment at which the channel is closed, and in every state
after the call has returned, the text is complete.

## Main definitions

* `CompleteListing`: A text that shows every shard as the work met it.
* `Drained`: Nothing of a listing is left anywhere.

## Theorems

* `Run.textsFrom_eq`: What a worker has made it has handed over or still carries.
* `Run.handed_perm`: When the tickets are resolved, every part has been handed over.
* `Run.complete_of_received`: What the caller has taken is complete once nothing is left.
* `Run.complete_of_result`: What an uncancelled listing returns is complete.
* `Run.parts_of_result`: The parts of an uncancelled listing are those of the shards it met.
* `Run.listing_complete`: An uncancelled listing is complete whenever it is over.
-/

namespace ShardConsole

namespace Pool

/-- A text is the complete listing of a call: every worker has run its work, once, and the
    text is made up of the listings of the shards that the work met, in some order, without
    the empty ones. -/
structure CompleteListing (h : List Moment) (c : CallId) (kind : Kind) (workers : Nat)
    (text : String) : Prop where
  everyone : ((invocations c h).map Prod.fst).Perm (List.range workers)
  parts : ∃ order : List String,
    order.Perm (((invocations c h).map fun visit => visit.2.text kind).filter (· ≠ "")) ∧
      text = String.join order

/-- Nothing of a listing is left: its work is on no queue, no worker carries a part and the
    caller has taken every part that was handed over. -/
structure Drained (h : List Moment) (p : Pool) (c : CallId) : Prop where
  unqueued : ∀ w, c ∉ callsOf (p.queueOf w)
  sent : ∀ w, p.carried c w = []
  taken : (handed c h).map Prod.snd = received c h

section Completeness

variable {start p : Pool} {h : List Moment} {c : CallId} {call : Call} {intake : Intake}
  {kind : Kind}

theorem map_partsOf (visits : List (WorkerId × Shard)) : (partsOf kind visits).map Prod.snd =
    (visits.map fun visit => visit.2.text kind).filter (· ≠ "") := by
  rw [partsOf, List.filter_map, List.filter_map, List.map_map]
  rfl

/-- What a worker has made for an uncancelled listing it has handed over or still carries,
    unless the listing was refused or abandoned. -/
theorem Run.textsFrom_eq (run : Run start h p) (fresh : IsFresh start)
    (hc : p.calls[c]? = some call) (hi : call.intake? = some intake)
    (work : call.work = Work.list kind) (uncancelled : call.cancelled = false)
    (kept : call.phase ≠ .dropped) (accepted : ∀ cause, call.phase ≠ .refused cause)
    (w : WorkerId) : textsFrom w (partsOf kind (invocations c h)) =
      textsFrom w (handed c h) ++ p.carried c w := by
  induction run generalizing call intake with
  | start => simp [fresh.calls] at hc
  | @next h p p' a run act ih =>
      have acc := Run.accounts run fresh
      have change := change_of_act? act
      rw [invocations_snoc, handed_snoc, partsOf_append, textsFrom_append, textsFrom_append]
      rcases change.callChange hc with ⟨same, begins⟩ | ⟨before, hb, changed⟩
      · rcases Run.silent run fresh (Nat.le_of_eq same.symm) with ⟨met, handed, _⟩
        have unknown := acc.carried_of_unknown (Nat.le_of_eq same.symm) w
        rw [met, handed, change.carried_of_begins begins, unknown]
        cases begins <;> rfl
      · rcases changed.channel hb hi with ⟨intake₀, hi₀, _⟩
        have uncancelled := changed.uncancelled uncancelled
        have kept := changed.not_dropped kept
        have accepted := changed.not_refused accepted
        have work := changed.work_eq.symm.trans work
        rw [ih hb hi₀ work uncancelled kept accepted]
        have account := change.carried_append (c := c) (w := w)
          fun worker job rest hw queue => (Run.work_of_queue run fresh hw queue hb).trans work
        have forgone : Moment.forgone c w ⟨p, a⟩ = [] := by
          by_cases opens : before.phase.isOpen = true
          · exact change.forgone_eq_nil hb uncancelled hi₀
              ((Run.intake_eq run fresh hb hi₀).2 opens).1
          · -- Nobody carries anything for a call that has returned.
            have resolved : before.isResolved = true := by
              cases phase : before.phase with
              | submitting => simp [phase, Phase.isOpen] at opens
              | refused cause => exact absurd phase (accepted cause)
              | waiting => simp [phase, Phase.isOpen] at opens
              | returned result =>
                  exact (Run.returned_verdict run fresh hb (.of_uncancelled uncancelled) phase).1
              | dropped => exact absurd phase kept
            have met : Moment.met c ⟨p, a⟩ = [] :=
              met_eq_nil fun v worker hv => acc.not_queued hv hb resolved
            rw [met, acc.carried_of_resolved hb resolved] at account
            have all := List.append_eq_nil_iff.mp account.symm
            exact (List.append_eq_nil_iff.mp all.1).2
        rw [forgone, List.append_nil] at account
        rw [List.append_assoc, account, List.append_assoc]

/-- When the tickets of an uncancelled listing are resolved, every part has been handed
    over. -/
theorem Run.handed_perm (run : Run start h p) (fresh : IsFresh start)
    (hc : p.calls[c]? = some call) (hi : call.intake? = some intake)
    (work : call.work = Work.list kind) (uncancelled : call.cancelled = false)
    (kept : call.phase ≠ .dropped) (accepted : ∀ cause, call.phase ≠ .refused cause)
    (resolved : call.isResolved = true) :
    (handed c h).Perm (partsOf kind (invocations c h)) := by
  refine perm_of_textsFrom_eq fun w => ?_
  rw [run.textsFrom_eq fresh hc hi work uncancelled kept accepted w]
  rw [(run.accounts fresh).carried_of_resolved hc resolved, List.append_nil]

-- When the tickets are resolved, nothing of a call is with a worker.
theorem Run.drained (run : Run start h p) (fresh : IsFresh start)
    (hc : p.calls[c]? = some call) (resolved : call.isResolved = true)
    (taken : (handed c h).map Prod.snd = received c h) : Drained h p c := by
  have acc := run.accounts fresh
  constructor
  case unqueued =>
    intro w
    cases hw : p.workers[w]? with
    | none => simp [queueOf, hw]
    | some worker =>
        rw [queueOf_eq hw]
        exact acc.not_queued hw hc resolved
  case sent => exact acc.carried_of_resolved hc resolved
  case taken => exact taken

/-- What the caller of an uncancelled listing has taken is complete when the tickets are
    resolved and all that was handed over has been taken. -/
theorem Run.complete_of_received (run : Run start h p) (fresh : IsFresh start)
    (alive : p.AllAlive) (hc : p.calls[c]? = some call) (hi : call.intake? = some intake)
    (work : call.work = Work.list kind) (uncancelled : call.cancelled = false)
    (kept : call.phase ≠ .dropped) (resolved : call.isResolved = true)
    (given : call.tickets.size = p.size)
    (taken : (handed c h).map Prod.snd = received c h) :
    CompleteListing h c kind p.size intake.output where
  everyone := by
    have perm := run.invocations_perm fresh alive hc resolved
    rwa [given] at perm
  parts := by
    have perm := run.handed_perm fresh hc hi work uncancelled kept
      (run.not_refused fresh alive hc) resolved
    refine ⟨received c h, ?_, (run.intake_eq fresh hc hi).1⟩
    rw [← taken, ← map_partsOf]
    exact perm.map Prod.snd

-- A call that has a result among living workers has returned.
theorem Run.exists_returned {result : Except Unavailable Reply} (run : Run start h p)
    (fresh : IsFresh start) (alive : p.AllAlive) (hc : p.calls[c]? = some call)
    (hr : p.result? c = some result) : ∃ returned, call.phase = .returned returned := by
  rw [result?, hc, Option.map_some] at hr
  split at hr
  · rename_i returned same
    exact ⟨returned, Option.some.inj same⟩
  · rename_i cause same
    exact absurd (Option.some.inj same) (run.not_refused fresh alive hc cause)
  · cases hr

/-- What an uncancelled listing returns is complete, and nothing of it is left. -/
theorem Run.complete_of_result {capacity : Nat} {cancelled : Bool}
    {result : Except Unavailable Reply} (run : Run start h p) (fresh : IsFresh start)
    (alive : p.AllAlive) (begun : Begun h c (.list capacity kind cancelled))
    (hc : p.calls[c]? = some call) (uncancelled : call.cancelled = false)
    (hr : p.result? c = some result) :
    ∃ text, result = .ok (.listing text) ∧ Drained h p c ∧
      CompleteListing h c kind p.size text := by
  rcases run.listing_of_begun begun hc with ⟨work, intake, purpose⟩
  have hi : call.intake? = some intake := by rw [Call.intake?, purpose]
  rcases run.result_eq fresh alive hc uncancelled hr with ⟨resolved, eq, given⟩
  rcases run.exists_returned fresh alive hc hr with ⟨returned, phase⟩
  have taken := run.received_eq fresh hc hi uncancelled phase
  refine ⟨intake.output, by rw [eq, Call.answer, purpose], run.drained fresh hc resolved taken, ?_⟩
  exact run.complete_of_received fresh alive hc hi work uncancelled (by simp [phase]) resolved
    given taken

/-- The parts of an uncancelled listing that has returned are those of the shards that its work
    met, and it returns what they come to in the order in which they were taken. -/
theorem Run.parts_of_result {capacity : Nat} {cancelled : Bool}
    {result : Except Unavailable Reply} (run : Run start h p) (fresh : IsFresh start)
    (alive : p.AllAlive) (begun : Begun h c (.list capacity kind cancelled))
    (hc : p.calls[c]? = some call) (uncancelled : call.cancelled = false)
    (hr : p.result? c = some result) :
    (handed c h).Perm (partsOf kind (invocations c h)) ∧
      (handed c h).map Prod.snd = received c h ∧
        result = .ok (.listing (String.join (received c h))) := by
  rcases run.listing_of_begun begun hc with ⟨work, intake, purpose⟩
  have hi : call.intake? = some intake := by rw [Call.intake?, purpose]
  rcases run.result_eq fresh alive hc uncancelled hr with ⟨resolved, eq, _⟩
  rcases run.exists_returned fresh alive hc hr with ⟨returned, phase⟩
  refine ⟨?_, run.received_eq fresh hc hi uncancelled phase, ?_⟩
  · exact run.handed_perm fresh hc hi work uncancelled (by simp [phase])
      (run.not_refused fresh alive hc) resolved
  · rw [eq, ← (run.intake_eq fresh hc hi).1, Call.answer, purpose]

/-- Among living workers a listing that is not cancelled is complete whenever it is over:
    when the caller sees its channel closed nothing is left anywhere and the output is a
    complete listing, and what the call returns is a complete listing. -/
theorem Run.listing_complete {capacity : Nat} (run : Run start h p) (fresh : IsFresh start)
    (alive : p.AllAlive) (begun : Begun h c (.list capacity kind false))
    (hc : p.calls[c]? = some call) (uncancelled : call.cancelled = false) :
    (∀ intake, call.phase = .waiting → call.intake? = some intake →
      intake.channel.isClosed = true →
        Drained h p c ∧ CompleteListing h c kind p.size intake.output) ∧
    ∀ result, p.result? c = some result →
      ∃ text, result = .ok (.listing text) ∧ Drained h p c ∧
        CompleteListing h c kind p.size text := by
  constructor
  · intro intake waiting hi closed
    have work := (run.listing_of_begun begun hc).1
    have given := ((run.accounts fresh).given c call hc).1
    have sup := run.supervised fresh hc hi
    rw [waiting] at sup
    -- The closer has let go, so every ticket has been resolved.
    have resolved := sup.resolved_of_isClosed closed
    have parts := ((run.intake_eq fresh hc hi).2 (by rw [waiting, Phase.isOpen])).2
    rw [Channel.isClosed, Bool.and_eq_true, List.isEmpty_iff, List.isEmpty_iff] at closed
    rw [closed.2, List.append_nil] at parts
    rw [Call.given, waiting] at given
    exact ⟨run.drained fresh hc resolved parts, run.complete_of_received fresh alive hc hi work
      uncancelled (by simp [waiting]) resolved given parts⟩
  · intro result hr
    exact run.complete_of_result fresh alive begun hc uncancelled hr

end Completeness

/-- Two workers are given a metric each and list their counters through a channel with room
    for one text. The second worker is faster, and the first one has to wait. -/
def listingOfTwo : List Action :=
  [.dispatch 0 ⟨"a", .empty, .counter 2⟩, .dispatch 1 ⟨"b", .empty, .counter 1⟩,
    .list 1 .counter false] ++
  List.map Action.step
    [.submit 0, .submit 0, .submit 0, .take 0, .take 1, .take 1, .dropWork 1, .handOver 1,
      .take 0, .dropWork 0, .receive 0, .handOver 0, .receive 0, .finish 1, .signal 1, .finish 0,
      .signal 0, .letGo 0, .conclude 0]

theorem listingOfTwo_complete : ∃ h p, Run (start 2) h p ∧
    Drained h p 0 ∧ CompleteListing h 0 .counter 2 "b=1\na=2\n" := by
  have done : (Trace.perform? act? [] (start 2) listingOfTwo).map (fun r => (r.2.result? 0,
      r.2.workers.all Worker.isAlive, r.2.calls[0]?.map Call.cancelled, r.2.size,
      r.1[2]?.map fun m => m.before.calls.size)) =
      some (some (.ok (.listing "b=1\na=2\n")), true, some false, 2, some 0) := by
    decide +kernel
  rcases Option.map_eq_some_iff.mp done with ⟨⟨h, p⟩, performed, facts⟩
  simp only [Prod.mk.injEq] at facts
  rcases facts with ⟨result, alive, cancelled, size, number⟩
  rcases Option.map_eq_some_iff.mp cancelled with ⟨call, hc, uncancelled⟩
  have run : Run (start 2) h p := Trace.of_perform? .start performed
  have created : Channel.create? (max 1 1) = some ⟨1, [], [.closer], true⟩ := by decide +kernel
  have begun : Begun h 0 (.list 1 .counter false) :=
    begun_of_perform? performed rfl number (.list created)
  rcases (run.listing_complete (isFresh_start 2)
      (allAlive_of_all alive) begun hc uncancelled).2 _ result with ⟨text, same, drained, complete⟩
  cases same
  exact ⟨h, p, run, drained, size ▸ complete⟩

end Pool

end ShardConsole
