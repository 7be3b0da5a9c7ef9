import ShardConsole.Proofs.Pool.Origins

/-!
# Returns of Calls

When a call returns, and with what.

A call that waits for its tickets returns when they are resolved. A listing waits for its
channel to be closed instead, and that this amounts to the same is due to the closer. It
gets its sender when the channel is made, it begins to wait when the call does, and it
lets go only after every ticket has been resolved: `Supervised` is that invariant. While
the caller waits, a channel without senders is therefore one that the closer has let go
of, however the other senders come and go.

A call that has returned without being cancelled then has resolved tickets, whatever it
was for, and what it has returned is what it still shows, because nobody works for it any
more.

## Main definitions

* `Supervised`: The closer has a sender until the tickets are resolved.
* `Call.answer`: What a call shows to its caller.
* `Call.verdict`: What a call comes to when its tickets are resolved.
* `Call.IsPatient`: A call whose caller does not leave early.

## Theorems

* `CallChange.supervised`: Every change of a call keeps its intake supervised.
* `Supervised.resolved_of_isClosed`: A channel is not closed before the tickets are resolved.
* `Run.returned_verdict`: An uncancelled call returns what it comes to, with resolved tickets.
* `Run.returned`: Among living workers that is what it shows.
* `Run.result_eq`: The result of an uncancelled call among living workers.
* `Run.invocations_of_result`: Every worker has run the work of a call that has a result.
-/

namespace ShardConsole

namespace Pool

/-- The closer of an intake has its sender until every ticket has been resolved, and it
    begins when the call begins to wait. -/
structure Supervised (phase : Phase) (resolved : Bool) (intake : Intake) : Prop where
  before : ∀ w, phase = .submitting w →
    intake.closer = .absent ∧ Sender.closer ∈ intake.channel.senders
  begun : phase = .waiting → intake.closer ≠ .absent
  holds : intake.closer = .waiting → Sender.closer ∈ intake.channel.senders
  ended : intake.closer = .ended → resolved = true

/-- What a call shows to its caller. -/
def Call.answer (call : Call) : Reply :=
  match call.purpose with
  | .listing intake => .listing intake.output
  | .count => .removed call.removed
  | .completion => .completed

/-- What a call comes to when its tickets are resolved. Whoever waits for the tickets is told
    of the lowest one that is lost; a listing waits for its channel, and is not told. -/
def Call.verdict (call : Call) : Except Unavailable Reply :=
  match call.intake?, call.firstLost? with
  | none, some w => .error ⟨w⟩
  | _, _ => .ok call.answer

/-- A call whose caller returns only when there is nothing more to wait for. -/
def Call.IsPatient (call : Call) : Prop :=
  call.cancelled = true → call.purpose.form = .completion

theorem Call.IsPatient.of_uncancelled {call : Call} (uncancelled : call.cancelled = false) :
    call.IsPatient := by
  intro cancelled
  rw [uncancelled] at cancelled
  cases cancelled

section Intakes

variable (call : Call)

theorem Call.intake?_finishWith (phase : Phase) : (call.finishWith phase).intake? =
    call.intake?.map fun intake => { intake with channel := intake.channel.hangUp } :=
  Call.intake?_mapIntake { call with phase := phase } _

theorem Call.intake?_dropWork (holder : Holder) : (call.dropWork holder).intake? =
    call.intake?.map fun intake => { intake with
      channel := if (call.holders.erase holder).isEmpty then intake.channel.release .work
        else intake.channel } :=
  Call.intake?_mapIntake { call with holders := call.holders.erase holder } _

theorem Call.intake?_noteRun (w : WorkerId) (report : Report) :
    (call.noteRun w report).intake? = call.intake?.map fun intake =>
      { intake with channel := intake.channel.attach (.handoff w) } :=
  Call.intake?_mapIntake { call with reports := call.reports ++ [(w, report)] } _

theorem Call.intake?_lose (w : WorkerId) : (call.lose w).intake? =
    call.intake?.map fun intake => { intake with
      channel := if (call.holders.erase (.worker w)).isEmpty then intake.channel.release .work
        else intake.channel } :=
  Call.intake?_dropWork (call.resolve w .lost) _

theorem Call.intake?_await : call.await.intake? = call.intake?.map fun intake => { intake with
    channel := if (call.holders.erase .caller).isEmpty then intake.channel.release .work
      else intake.channel
    closer := .waiting } := by
  rw [Call.await, Call.intake?_mapIntake, Call.intake?_dropWork, Option.map_map]
  rfl

-- A change of the intake that leaves the output alone leaves the answer alone.
theorem Call.answer_mapIntake {change : Intake → Intake}
    (same : ∀ intake, (change intake).output = intake.output) :
    (call.mapIntake change).answer = call.answer := by
  rcases call with ⟨_, purpose, _, _, _, _, _⟩
  cases purpose with
  | listing intake => exact congrArg Reply.listing (same intake)
  | count => rfl
  | completion => rfl

theorem Call.answer_finishWith (phase : Phase) : (call.finishWith phase).answer = call.answer :=
  Call.answer_mapIntake { call with phase := phase } fun _ => rfl

theorem Call.answer_dropWork (holder : Holder) : (call.dropWork holder).answer = call.answer :=
  Call.answer_mapIntake { call with holders := call.holders.erase holder } fun _ => rfl

-- A call comes to the same if it shows the same and has the same tickets.
theorem Call.verdict_eq {call call' : Call} (answer : call'.answer = call.answer)
    (intake : call'.intake?.isSome = call.intake?.isSome) (tickets : call'.tickets = call.tickets) :
    call'.verdict = call.verdict := by
  unfold verdict firstLost?
  rw [tickets, answer]
  cases hi : call.intake? <;> cases hi' : call'.intake? <;> simp_all

-- Without a lost ticket a call comes to what it shows.
theorem Call.verdict_of_kept (kept : call.firstLost? = none) : call.verdict = .ok call.answer := by
  unfold verdict
  rw [kept]
  cases call.intake? <;> rfl

end Intakes

section Supervision

variable {phase phase' : Phase} {resolved resolved' : Bool} {intake intake' : Intake}

-- An intake stays supervised if the closer keeps its sender and the call does not go back.
theorem Supervised.keep (sup : Supervised phase resolved intake)
    (submitting : ∀ w, phase' = .submitting w → phase = .submitting w)
    (waiting : phase' = .waiting → phase = .waiting) (still : resolved = true → resolved' = true)
    (closer : intake'.closer = intake.closer)
    (senders : Sender.closer ∈ intake.channel.senders →
      Sender.closer ∈ intake'.channel.senders) :
    Supervised phase' resolved' intake' where
  before w h := by
    have := sup.before w (submitting w h)
    exact ⟨closer.trans this.1, senders this.2⟩
  begun h := by rw [closer]; exact sup.begun (waiting h)
  holds h := senders (sup.holds (closer.symm.trans h))
  ended h := still (sup.ended (closer.symm.trans h))

/-- While the caller waits, a closed channel means that every ticket has been resolved. -/
theorem Supervised.resolved_of_isClosed (sup : Supervised .waiting resolved intake)
    (closed : intake.channel.isClosed = true) : resolved = true := by
  rw [Channel.isClosed, Bool.and_eq_true, List.isEmpty_iff] at closed
  cases closer : intake.closer with
  | absent => exact absurd closer (sup.begun rfl)
  | waiting =>
      have held := sup.holds closer
      rw [closed.1] at held
      cases held
  | ended => exact sup.ended closer

-- Letting go of another sender leaves that of the closer.
theorem closer_mem_release {channel : Channel} {sender : Sender} (other : sender ≠ .closer)
    (h : Sender.closer ∈ channel.senders) : Sender.closer ∈ (channel.release sender).senders :=
  (List.mem_erase_of_ne other.symm).mpr h

theorem closer_mem_ite_release {channel : Channel} {condition : Bool}
    (h : Sender.closer ∈ channel.senders) :
    Sender.closer ∈ (if condition then channel.release .work else channel).senders := by
  cases condition with
  | true => exact closer_mem_release (by simp) h
  | false => exact h

-- Resolving a ticket does not undo that all are resolved.
theorem Call.isResolved_resolve {call : Call} {w : WorkerId} {t : Ticket} (done : t ≠ .pending)
    (h : call.isResolved = true) : (call.resolve w t).isResolved = true := by
  rw [Call.isResolved, Array.all_eq_true'] at h ⊢
  intro other hm
  rcases Array.mem_or_eq_of_mem_setIfInBounds hm with before | rfl
  · exact h other before
  · simpa using done

end Supervision

section Steps

variable {p p' : Pool} {a : Action} {c : CallId} {call call' : Call}

-- A call that is patient has been so before.
theorem CallChange.isPatient (change : CallChange p c call a call') (patient : call'.IsPatient) :
    call.IsPatient := by
  intro cancelled
  rw [← change.form_eq]
  refine patient ?_
  by_contra uncancelled
  have before := change.uncancelled (Bool.eq_false_iff.mpr uncancelled)
  exact absurd (before.symm.trans cancelled) Bool.false_ne_true

/-- Every change of a call keeps its intake supervised. -/
theorem CallChange.supervised (change : CallChange p c call a call')
    (sup : ∀ intake, call.intake? = some intake → Supervised call.phase call.isResolved intake)
    (intake' : Intake) (hi' : call'.intake? = some intake') :
    Supervised call'.phase call'.isResolved intake' := by
  cases change with
  | stay => exact sup intake' hi'
  | cancel => exact sup intake' hi'
  | drop phase =>
      rw [Call.intake?_finishWith, Option.map_eq_some_iff] at hi'
      rcases hi' with ⟨intake, hi, rfl⟩
      refine (sup intake hi).keep ?_ ?_ ?_ rfl id <;>
        simp [Call.isResolved]
  | give phase =>
      -- The call goes on submitting, and its closer has not begun.
      have before := (sup intake' hi').before _ phase
      constructor
      case before => exact fun _ _ => before
      case begun => simp
      case holds => exact fun _ => before.2
      case ended => simp [before.1]
  | refuse phase =>
      -- The call ends before its closer has begun.
      simp only [Call.refuse, Call.mapChannel, Call.intake?_mapIntake, Call.intake?_dropWork,
        Call.intake?_finishWith, Option.map_map, Option.map_eq_some_iff] at hi'
      rcases hi' with ⟨intake, hi, rfl⟩
      have before := (sup intake hi).before _ phase
      constructor <;> simp [before.1]
  | await phase =>
      rw [Call.intake?_await, Option.map_eq_some_iff] at hi'
      rcases hi' with ⟨intake, hi, rfl⟩
      -- The closer begins with the sender that it has had from the start.
      have before := (sup intake hi).before _ phase
      constructor
      case before => simp
      case begun => simp
      case holds => exact fun _ => closer_mem_ite_release before.2
      case ended => simp
  | run =>
      rw [Call.intake?_noteRun, Option.map_eq_some_iff] at hi'
      rcases hi' with ⟨intake, hi, rfl⟩
      refine (sup intake hi).keep ?_ ?_ ?_ rfl (List.mem_cons_of_mem _) <;>
        simp [Call.isResolved]
  | @lose w =>
      rw [Call.intake?_lose, Option.map_eq_some_iff] at hi'
      rcases hi' with ⟨intake, hi, rfl⟩
      refine (sup intake hi).keep ?_ ?_ (fun h => ?_) rfl closer_mem_ite_release
      · simp
      · simp
      · simpa [Call.isResolved] using
          Call.isResolved_resolve (w := w) (t := .lost) (by simp) h
  | dropWork =>
      rw [Call.intake?_dropWork, Option.map_eq_some_iff] at hi'
      rcases hi' with ⟨intake, hi, rfl⟩
      refine (sup intake hi).keep ?_ ?_ ?_ rfl closer_mem_ite_release <;> simp [Call.isResolved]
  | push =>
      rw [Call.mapChannel, Call.intake?_mapIntake, Option.map_eq_some_iff] at hi'
      rcases hi' with ⟨intake, hi, rfl⟩
      refine (sup intake hi).keep ?_ ?_ ?_ rfl id <;> simp [Call.isResolved]
  | finish =>
      rw [Call.mapChannel, Call.intake?_mapIntake, Option.map_eq_some_iff] at hi'
      rcases hi' with ⟨intake, hi, rfl⟩
      refine (sup intake hi).keep ?_ ?_ ?_ rfl (closer_mem_release (by simp)) <;>
        simp [Call.isResolved]
  | signal =>
      exact (sup intake' hi').keep (fun _ => id) id (Call.isResolved_resolve (by simp)) rfl id
  | @letGo intake hi closer resolved =>
      rw [Call.intake?_mapIntake, hi, Option.map_some, Option.some.injEq] at hi'
      subst hi'
      -- A closer that waits has begun, so the call is past submitting.
      have unsubmitted (w : WorkerId) : call.phase ≠ .submitting w := fun phase => by
        have absent := ((sup intake hi).before w phase).1
        rw [closer] at absent
        cases absent
      constructor
      case before => simpa using unsubmitted
      case begun => simp
      case holds => simp
      case ended => simpa [Call.isResolved] using resolved
  | receive =>
      rw [Call.intake?_mapIntake, Option.map_eq_some_iff] at hi'
      rcases hi' with ⟨intake, hi, rfl⟩
      refine (sup intake hi).keep ?_ ?_ ?_ rfl id <;> simp [Call.isResolved]
  | conclude =>
      rw [Call.intake?_finishWith, Option.map_eq_some_iff] at hi'
      rcases hi' with ⟨intake, hi, rfl⟩
      refine (sup intake hi).keep ?_ ?_ ?_ rfl id <;>
        simp [Call.isResolved]
  | desist =>
      rw [Call.intake?_finishWith, Option.map_eq_some_iff] at hi'
      rcases hi' with ⟨intake, hi, rfl⟩
      refine (sup intake hi).keep ?_ ?_ ?_ rfl id <;>
        simp [Call.isResolved]

end Steps

section Runs

variable {start p p' : Pool} {h : List Moment} {a : Action} {c : CallId} {w : WorkerId}
  {worker : Worker} {call : Call} {intake : Intake} {result : Except Unavailable Reply}

theorem Run.supervised (run : Run start h p) (fresh : IsFresh start)
    (hc : p.calls[c]? = some call) (hi : call.intake? = some intake) :
    Supervised call.phase call.isResolved intake := by
  induction run generalizing call intake with
  | start => simp [fresh.calls] at hc
  | @next h p p' a run act ih =>
      rcases (change_of_act? act).callChange hc with ⟨_, begins⟩ | ⟨before, hb, changed⟩
      · cases begins with
        | list created =>
            cases hi
            unfold Channel.create? at created
            split at created
            · cases created
              constructor <;> simp [Call.start, Intake.start, Channel.attach]
            · cases created
        | delete => cases hi
        | process => cases hi
      · exact changed.supervised (fun intake hi => ih hb hi) intake hi

-- The purposes without a channel wait for the tickets themselves.
theorem Call.verdict_of_wait? {r : Except Unavailable Unit} (waited : call.wait? = some r)
    (bare : call.intake? = none) :
    call.isResolved = true ∧ (r.map fun _ => call.answer) = call.verdict := by
  rw [Call.wait?] at waited
  split at waited
  · rename_i resolved
    refine ⟨resolved, ?_⟩
    rw [Call.verdict, bare]
    cases lost : call.firstLost? with
    | some w =>
        simp only [lost, Option.some.injEq] at waited
        rw [← waited]
        rfl
    | none =>
        simp only [lost, Option.some.injEq] at waited
        rw [← waited]
        rfl
  · cases waited

-- A call that waits has nothing more to wait for only when its tickets are resolved, and it
-- then returns what it comes to.
theorem Call.verdict_of_conclusion? (conclusion : call.conclusion? = some result)
    (sup : ∀ intake, call.intake? = some intake → Supervised .waiting call.isResolved intake) :
    call.isResolved = true ∧ result = call.verdict := by
  unfold Call.conclusion? at conclusion
  split at conclusion
  · rename_i intake purpose
    split at conclusion
    · rename_i closed
      cases conclusion
      have hi : call.intake? = some intake := by rw [Call.intake?, purpose]
      refine ⟨(sup intake hi).resolved_of_isClosed closed, ?_⟩
      simp only [Call.verdict, hi, Call.answer, purpose]
    · cases conclusion
  · rename_i purpose
    rcases Option.map_eq_some_iff.mp conclusion with ⟨r, hr, rfl⟩
    rcases Call.verdict_of_wait? hr (by rw [Call.intake?, purpose]) with ⟨resolved, same⟩
    refine ⟨resolved, ?_⟩
    rw [← same, Call.answer, purpose]
  · rename_i purpose
    rcases Option.map_eq_some_iff.mp conclusion with ⟨r, hr, rfl⟩
    rcases Call.verdict_of_wait? hr (by rw [Call.intake?, purpose]) with ⟨resolved, same⟩
    refine ⟨resolved, ?_⟩
    rw [← same, Call.answer, purpose]

-- Among living workers a call returns what it shows.
theorem Call.resolved_of_conclusion? (conclusion : call.conclusion? = some result)
    (sup : ∀ intake, call.intake? = some intake → Supervised .waiting call.isResolved intake)
    (kept : call.firstLost? = none) : call.isResolved = true ∧ result = .ok call.answer := by
  rw [← call.verdict_of_kept kept]
  exact call.verdict_of_conclusion? conclusion sup

-- Nobody dies at a moment after which everybody is alive.
theorem AllAlive.not_doomed (alive : p'.AllAlive) (act : p.act? (.step (.take w)) = some p')
    (hw : p.workers[w]? = some worker) : worker.isDoomed w = false := by
  have change := change_of_act? act
  rcases change.workerChange_of hw with ⟨worker', hw', _⟩
  by_contra doomed
  have dead := change.dead_of_doomed hw (by simpa using doomed) hw'
  exact absurd (dead.symm.trans (alive w worker' hw')) Bool.false_ne_true

-- Work that is run in a history after which everybody is alive has not failed.
theorem Run.survives_of_met {m : Moment} {visit : WorkerId × Shard} (run : Run start h p)
    (fresh : IsFresh start) (alive : p.AllAlive) (hc : p.calls[c]? = some call) (hm : m ∈ h)
    (met : visit ∈ m.met c) : call.work.invoke visit.1 visit.2 ≠ .failed := by
  rcases run.work_of_met fresh hc hm met with ⟨action, worker, rest, hw, shard, queue⟩
  rcases List.append_of_mem hm with ⟨h₁, h₂, rfl⟩
  rcases run.split with ⟨_, q, act, _⟩
  have lives := (run.allAlive_after alive act).not_doomed (action ▸ act) hw
  intro failed
  simp [Worker.isDoomed, queue, shard, failed] at lives

-- A call among living workers is not refused.
theorem Run.not_refused (run : Run start h p) (fresh : IsFresh start) (alive : p.AllAlive)
    (hc : p.calls[c]? = some call) (cause : Unavailable) : call.phase ≠ .refused cause := by
  induction run generalizing call with
  | start => simp [fresh.calls] at hc
  | @next h p p' a run act ih =>
      have before := alive.of_act? act
      rcases (change_of_act? act).callChange hc with ⟨_, begins⟩ | ⟨_, hb, changed⟩
      · cases begins <;> simp [Call.start]
      · have refused := ih before hb
        cases changed with
        | refuse phase hw dead =>
            exact absurd (dead.symm.trans (before _ _ hw)) Bool.false_ne_true
        | _ =>
          simp [refused]

-- No worker has the work of a call on its queue when all tickets are resolved.
theorem Accounts.not_queued (acc : Accounts p) (hw : p.workers[w]? = some worker)
    (hc : p.calls[c]? = some call) (resolved : call.isResolved = true) :
    c ∉ callsOf worker.queue :=
  fun queued => acc.not_owed hw hc resolved (Worker.mem_owed_of_queued queued)

-- No worker is busy for a call when all tickets are resolved.
theorem Accounts.not_busy (acc : Accounts p) (hw : p.workers[w]? = some worker)
    (hc : p.calls[c]? = some call) (resolved : call.isResolved = true) :
    worker.activity.call? ≠ some c :=
  fun busy => acc.not_owed hw hc resolved (Worker.mem_owed_of_busy busy)

/-- A call that has not been cancelled, or cannot be, returns what it comes to, with every
    ticket resolved, and goes on coming to that. -/
theorem Run.returned_verdict (run : Run start h p) (fresh : IsFresh start)
    (hc : p.calls[c]? = some call) (patient : call.IsPatient)
    (phase : call.phase = .returned result) :
    call.isResolved = true ∧ result = call.verdict := by
  induction run generalizing call with
  | start => simp [fresh.calls] at hc
  | @next h p p' a run act ih =>
      have acc := Run.accounts run fresh
      rcases (change_of_act? act).callChange hc with ⟨_, begins⟩ | ⟨before, hb, changed⟩
      · cases begins <;> cases phase
      · have returned := ih hb (changed.isPatient patient)
        have patient' := changed.isPatient patient
        cases changed with
        | stay => exact returned phase
        | cancel => exact returned phase
        | drop => simp at phase
        | give => simp at phase
        | refuse => simp at phase
        | await => simp at phase
        -- Nobody is busy any more for a call that has returned before.
        | run hw idle queue =>
            have resolved := (returned (by simpa using phase)).1
            exact absurd (by simp [queue]) (acc.not_queued hw hb resolved)
        | lose hw idle queue failed owed =>
            have resolved := (returned (by simpa using phase)).1
            exact absurd owed (acc.not_queued hw hb resolved)
        | push hw activity =>
            have resolved := (returned (by simpa using phase)).1
            exact absurd (by rw [activity]; rfl) (acc.not_busy hw hb resolved)
        | finish hw activity =>
            have resolved := (returned (by simpa using phase)).1
            exact absurd (by rw [activity]; rfl) (acc.not_busy hw hb resolved)
        | signal hw activity =>
            have resolved := (returned phase).1
            exact absurd (by rw [activity]; rfl) (acc.not_busy hw hb resolved)
        | dropWork =>
            rcases returned (by simpa using phase) with ⟨resolved, same⟩
            refine ⟨by simpa [Call.isResolved] using resolved, same.trans ?_⟩
            refine (Call.verdict_eq (before.answer_dropWork _) ?_ (before.tickets_dropWork _)).symm
            rw [Call.intake?_dropWork, Option.isSome_map]
        | letGo =>
            rcases returned (by simpa using phase) with ⟨resolved, same⟩
            refine ⟨by simpa [Call.isResolved] using resolved, same.trans ?_⟩
            refine (Call.verdict_eq (before.answer_mapIntake ?_) ?_
              (before.tickets_mapIntake _)).symm
            · exact fun _ => rfl
            · rw [Call.intake?_mapIntake, Option.isSome_map]
        | receive hi waiting =>
            rw [Call.phase_mapIntake, waiting] at phase
            cases phase
        | conclude waiting conclusion =>
            -- The call returns at this moment, since there is nothing more to wait for.
            rcases before.verdict_of_conclusion? conclusion
                (fun intake hi => waiting ▸ Run.supervised run fresh hb hi) with ⟨resolved, same⟩
            simp only [Call.finishWith, Call.mapChannel, Call.phase_mapIntake,
              Phase.returned.injEq] at phase
            refine ⟨by simpa [Call.isResolved] using resolved, phase ▸ same.trans ?_⟩
            refine (Call.verdict_eq (before.answer_finishWith _) ?_ ?_).symm
            · rw [Call.intake?_finishWith, Option.isSome_map]
            · simp
        | desist waiting cancelled soFar =>
            have purpose := Purpose.eq_completion_of_form (patient' cancelled)
            simp [Call.soFar?, purpose] at soFar

/-- Among living workers an uncancelled call returns what it shows. -/
theorem Run.returned (run : Run start h p) (fresh : IsFresh start) (alive : p.AllAlive)
    (hc : p.calls[c]? = some call) (uncancelled : call.cancelled = false)
    (phase : call.phase = .returned result) :
    call.isResolved = true ∧ result = .ok call.answer := by
  rw [← call.verdict_of_kept ((run.accounts fresh).firstLost?_eq_none alive hc)]
  exact run.returned_verdict fresh hc (.of_uncancelled uncancelled) phase

/-- The result of an uncancelled call among living workers is what it shows, and it has it
    when all its tickets are resolved. -/
theorem Run.result_eq (run : Run start h p) (fresh : IsFresh start) (alive : p.AllAlive)
    (hc : p.calls[c]? = some call) (uncancelled : call.cancelled = false)
    (h : p.result? c = some result) :
    call.isResolved = true ∧ result = .ok call.answer ∧ call.tickets.size = p.size := by
  rw [result?, hc, Option.map_some] at h
  split at h
  · rename_i same
    cases h
    have phase := Option.some.inj same
    rcases run.returned fresh alive hc uncancelled phase with ⟨resolved, eq⟩
    have given := ((run.accounts fresh).given c call hc).1
    rw [Call.given, phase] at given
    exact ⟨resolved, eq, given⟩
  · rename_i same
    exact absurd (Option.some.inj same) (run.not_refused fresh alive hc _)
  · cases h

/-- Every worker has run, once, the work of an uncancelled call that has a result, and
    nobody else has. -/
theorem Run.invocations_of_result (run : Run start h p) (fresh : IsFresh start)
    (alive : p.AllAlive) (hc : p.calls[c]? = some call) (uncancelled : call.cancelled = false)
    (hr : p.result? c = some result) :
    ((invocations c h).map Prod.fst).Perm (List.range p.size) := by
  rcases run.result_eq fresh alive hc uncancelled hr with ⟨resolved, _, size⟩
  have perm := run.invocations_perm fresh alive hc resolved
  rwa [size] at perm

end Runs

end Pool

end ShardConsole
