import ShardConsole.Proofs.Pool.Custody
import ShardConsole.Proofs.Pool.Intakes
import ShardConsole.Proofs.Pool.Load

/-!
# Progress

A pool on which only metrics, listings and deletions are called never gets stuck.

Workers stop in the middle of a hand-off when a channel is full, and while one of them
stands there, everything else on its queue waits, the work of other listings among it. Two
workers may have come to two listings in opposite orders, and each may stand in the way of
what the other one waits for.

That this is no deadlock is due to the callers. A worker can only be stopped by a caller that
still listens and is not cancelled, and such a caller needs nobody in order to take a part
from a full channel. So whenever no step is possible nobody is in a hand-off, and the
workers are idle with empty queues. Then every ticket is resolved, every closer can let go,
and by `Custody` nobody is left who has a sender, so every caller can return.

Since every step makes the load of the pool smaller, there is no other way to go on for ever
than to submit more.

## Main definitions

* `Action.isOrdinary`: An action other than a call with work of one's own.
* `Ordinary`: A pool on which only listings and deletions have been called.
* `Blocked`, `Stuck`: A worker that cannot take a step, and a pool in which nobody can.
* `Ungated`: Nobody stands at a closed gate.
* `Settled`: A pool that has nothing left to do.

## Theorems

* `Run.ordinary`: Ordinary actions lead to ordinary pools, and nobody dies there.
* `Blocked.of_alive`: What a living worker can be doing that cannot take a step.
* `Run.full_of_blocked`: What a worker waits for that stands in a hand-off.
* `Run.idle_or_gated_of_stuck`: Where the living are when no step is possible.
* `Run.result_of_stuck`: A call has its result when no step is left and all gates are open.
* `Run.settled_of_stuck`: A pool that is stuck has nothing left to do.
* `Run.exists_settled`: A pool can always be brought to where nothing is left to do.
* `Run.comes_to_rest`: A pool never gets stuck, and does not go on for ever.
-/

namespace ShardConsole

namespace Pool

/-- Whether an action is something else than a call with work of one's own. -/
def Action.isOrdinary : Action → Bool
  | .process _ => false
  | _ => true

/-- The work of a listing or of a deletion. -/
def Work.IsCommand (job : Work) : Prop :=
  ∃ kind, job = .list kind ∨ ∃ names, job = .delete kind names

/-- Whether a worker is neither dead nor on its way to a gate. -/
def Activity.isOrdinary : Activity → Bool
  | .dead | .holding _ (.gate _) | .handing _ (.gate _) => false
  | _ => true

/-- A worker that has to do with listings and deletions only. -/
structure Worker.Ordinary (worker : Worker) : Prop where
  activity : worker.activity.isOrdinary = true
  queue : ∀ (c : CallId) (job : Work), .work c job ∈ worker.queue → job.IsCommand

/-- A pool on which only listings and deletions have been called. -/
structure Ordinary (p : Pool) : Prop where
  calls : ∀ (c : CallId) (call : Call), p.calls[c]? = some call → call.work.IsCommand
  workers : ∀ (w : WorkerId) (worker : Worker), p.workers[w]? = some worker → worker.Ordinary

/-- The worker that takes a step, if it is a worker's. -/
def Step.worker? : Step → Option WorkerId
  | .take w | .dropWork w | .handOver w | .forgo w | .finish w | .signal w => some w
  | .submit _ | .letGo _ | .receive _ | .conclude _ | .desist _ => none

/-- The steps that are a worker's. -/
def Step.allBy (w : WorkerId) : List Step :=
  [.take w, .dropWork w, .handOver w, .forgo w, .finish w, .signal w]

/-- A worker cannot take any step. -/
def Blocked (p : Pool) (w : WorkerId) : Prop :=
  ∀ step : Step, step.worker? = some w → p.step? step = none

/-- Nobody can take any step. -/
def Stuck (p : Pool) : Prop :=
  ∀ step : Step, p.step? step = none

/-- Nobody stands at a gate that is closed. -/
def Ungated (p : Pool) : Prop :=
  ∀ (w : WorkerId) (worker : Worker) (c : CallId) (gate : Gate), p.workers[w]? = some worker →
    worker.activity = .handing c (.gate gate) → p.isOpen gate = true

/-- Every call is over, and nobody has anything left to do. -/
structure Settled (p : Pool) : Prop where
  calls : ∀ (c : CallId) (call : Call), p.calls[c]? = some call →
    (∃ result, call.phase = .returned result) ∨ call.phase = .dropped
  closed : ∀ (c : CallId) (call : Call) (intake : Intake), p.calls[c]? = some call →
    call.intake? = some intake → intake.closer ≠ .waiting
  idle : ∀ (w : WorkerId) (worker : Worker), p.workers[w]? = some worker →
    worker.activity = .idle ∧ worker.queue = []

section Ordinary

variable {start p p' : Pool} {h : List Moment} {a : Action} {v w : WorkerId}
  {worker worker' : Worker}

-- A command survives, and it does not stand at a gate afterwards.
theorem Work.IsCommand.ran {job : Work} (command : job.IsCommand) (w : WorkerId)
    (shard : Shard) : ∃ after report handoff, job.invoke w shard = .ran after report handoff ∧
      ∀ gate, handoff ≠ .gate gate := by
  rcases command with ⟨kind, rfl | ⟨names, rfl⟩⟩
  · refine ⟨_, _, _, rfl, fun gate => ?_⟩
    split <;> simp
  · exact ⟨_, _, _, rfl, by simp⟩

theorem Worker.Ordinary.isAlive (ordinary : worker.Ordinary) : worker.isAlive = true := by
  have lives := ordinary.activity
  cases activity : worker.activity with
  | dead => simp [activity, Activity.isOrdinary] at lives
  | _ => simp [Worker.isAlive, activity]

theorem Ordinary.allAlive (ordinary : p.Ordinary) : p.AllAlive :=
  fun w worker hw => (ordinary.workers w worker hw).isAlive

-- What has to be shown of a worker that is changed.
theorem Ordinary.worker_of_modify {change : Worker → Worker} (ordinary : p.Ordinary)
    (hv : p.workers[v]? = some worker) (changed : worker.Ordinary → (change worker).Ordinary)
    (hw' : (p.modifyWorker v change).workers[w]? = some worker') : worker'.Ordinary := by
  rcases of_modifyWorker hw' with ⟨rfl, before, hw, rfl⟩ | ⟨_, hw⟩
  · cases hv.symm.trans hw
    exact changed (ordinary.workers v worker hv)
  · exact ordinary.workers w worker' hw

-- A worker that goes on to do something else keeps its queue.
theorem Ordinary.worker_of_setActivity {activity : Activity} (ordinary : p.Ordinary)
    (hv : p.workers[v]? = some worker)
    (still : worker.activity.isOrdinary = true → activity.isOrdinary = true)
    (hw' : (p.setActivity v activity).workers[w]? = some worker') : worker'.Ordinary :=
  ordinary.worker_of_modify hv (fun before => ⟨still before.activity, before.queue⟩) hw'

theorem Change.ordinary (change : Change p a p') (ordinary : p.Ordinary)
    (plain : a.isOrdinary = true) : p'.Ordinary := by
  constructor
  case calls =>
    intro c call' hc'
    rcases change.callChange hc' with ⟨_, begins⟩ | ⟨call, hc, changed⟩
    · cases begins with
      | @list capacity kind => exact ⟨kind, Or.inl rfl⟩
      | @delete kind names => exact ⟨kind, Or.inr ⟨names, rfl⟩⟩
      | process => cases plain
    · rw [changed.work_eq]
      exact ordinary.calls c call hc
  case workers =>
    intro w worker' hw'
    cases change with
    | dispatch hv alive =>
        refine ordinary.worker_of_modify hv (fun before => ?_) hw'
        refine ⟨before.activity, fun c job mem => before.queue c job ?_⟩
        simpa using mem
    | @give c call v worker hc phase hv alive =>
        refine ordinary.worker_of_modify hv (fun before => ?_) hw'
        refine ⟨before.activity, fun d job mem => ?_⟩
        -- What comes to the queue is the work of a call.
        rcases List.mem_append.mp mem with earlier | now
        · exact before.queue d job earlier
        · cases List.mem_singleton.mp now
          exact ordinary.calls c call hc
    | @merge v worker m rest hv idle queue =>
        refine ordinary.worker_of_modify hv (fun before => ?_) hw'
        refine ⟨before.activity, fun d job mem => before.queue d job ?_⟩
        rw [queue]
        exact List.mem_cons_of_mem _ mem
    | @run v worker c job rest shard report handoff hv idle queue ran =>
        refine ordinary.worker_of_modify hv (fun before => ⟨?_, fun d other mem => ?_⟩) hw'
        · have command := before.queue c job (by rw [queue]; exact List.mem_cons_self)
          rcases command.ran v worker.shard with ⟨_, _, _, same, ungated⟩
          cases ran.symm.trans same
          cases handoff with
          | gate gate => exact absurd rfl (ungated gate)
          | _ => rfl
        · exact before.queue d other (by rw [queue]; exact List.mem_cons_of_mem _ mem)
    | @die v worker c job rest hv idle queue failed =>
        have command := (ordinary.workers v worker hv).queue c job
          (by rw [queue]; exact List.mem_cons_self)
        rcases command.ran v worker.shard with ⟨_, _, _, same, _⟩
        cases failed.symm.trans same
    | @dropWork v worker c handoff hv activity =>
        refine ordinary.worker_of_setActivity hv (fun before => ?_) hw'
        rw [activity] at before
        cases handoff <;> first | rfl | cases before
    | passGate hv => exact ordinary.worker_of_setActivity hv (fun _ => rfl) hw'
    | discard hv => exact ordinary.worker_of_setActivity hv (fun _ => rfl) hw'
    | push hv => exact ordinary.worker_of_setActivity hv (fun _ => rfl) hw'
    | forgo hv => exact ordinary.worker_of_setActivity hv (fun _ => rfl) hw'
    | finish hv => exact ordinary.worker_of_setActivity hv (fun _ => rfl) hw'
    | signal hv => exact ordinary.worker_of_setActivity hv (fun _ => rfl) hw'
    | _ => exact ordinary.workers w worker' hw'

/-- Ordinary actions lead to ordinary pools. -/
theorem Run.ordinary (run : Run start h p) (fresh : IsFresh start)
    (plain : ∀ m ∈ h, m.action.isOrdinary = true) : p.Ordinary := by
  induction run with
  | start =>
      constructor
      case calls => simp [fresh.calls]
      case workers =>
        intro w worker hw
        refine ⟨by rw [fresh.idle w worker hw]; rfl, fun c job mem => ?_⟩
        exact absurd (fresh.metrics w worker hw _ mem) not_false
  | @next h p p' a run act ih =>
      have before := ih fun m hm => plain m (List.mem_append_left _ hm)
      exact (change_of_act? act).ordinary before (plain ⟨p, a⟩ (by simp))

end Ordinary

section Waiting

variable {start p p' : Pool} {h : List Moment} {a : Action} {c : CallId} {w : WorkerId}
  {worker : Worker} {call call' : Call} {intake intake' : Intake} {text : String}

-- Nobody listens to the channel of a call that is over.
theorem CallChange.unheard (change : CallChange p c call a call')
    (before : call.phase.isOpen = false → ∀ intake, call.intake? = some intake →
      intake.channel.listening = false)
    (ended : call'.phase.isOpen = false) (hi' : call'.intake? = some intake') :
    intake'.channel.listening = false := by
  cases change with
  | stay | cancel | signal => exact before ended intake' hi'
  | give => cases ended
  | await => simp [Phase.isOpen] at ended
  | refuse =>
      simp only [Call.refuse, Call.mapChannel, Call.intake?_mapIntake, Call.intake?_dropWork,
        Call.intake?_finishWith, Option.map_map, Option.map_eq_some_iff] at hi'
      rcases hi' with ⟨intake, _, rfl⟩
      exact listening_ite_release
  -- Whoever ends a call hangs up.
  | drop | conclude | desist =>
      rw [Call.intake?_finishWith, Option.map_eq_some_iff] at hi'
      rcases hi' with ⟨intake, _, rfl⟩
      rfl
  | run =>
      rw [Call.intake?_noteRun, Option.map_eq_some_iff] at hi'
      rcases hi' with ⟨intake, hi, rfl⟩
      exact before (by simpa using ended) intake hi
  | lose =>
      rw [Call.intake?_lose, Option.map_eq_some_iff] at hi'
      rcases hi' with ⟨intake, hi, rfl⟩
      exact listening_ite_release.trans (before (by simpa using ended) intake hi)
  | dropWork =>
      rw [Call.intake?_dropWork, Option.map_eq_some_iff] at hi'
      rcases hi' with ⟨intake, hi, rfl⟩
      exact listening_ite_release.trans (before (by simpa using ended) intake hi)
  | push | finish =>
      rw [Call.mapChannel, Call.intake?_mapIntake, Option.map_eq_some_iff] at hi'
      rcases hi' with ⟨intake, hi, rfl⟩
      exact before (by simpa using ended) intake hi
  | letGo | receive =>
      rw [Call.intake?_mapIntake, Option.map_eq_some_iff] at hi'
      rcases hi' with ⟨intake, hi, rfl⟩
      exact before (by simpa using ended) intake hi

theorem Run.unheard (run : Run start h p) (fresh : IsFresh start) (hc : p.calls[c]? = some call)
    (ended : call.phase.isOpen = false) (hi : call.intake? = some intake) :
    intake.channel.listening = false := by
  induction run generalizing call intake with
  | start => simp [fresh.calls] at hc
  | next run act ih =>
      rcases (change_of_act? act).callChange hc with ⟨_, begins⟩ | ⟨before, hb, changed⟩
      · cases begins <;> cases ended
      · exact changed.unheard (fun ended intake hi => ih hb ended hi) ended hi

theorem blocked_of_all
    (none : ((Step.allBy w).all fun step => (p.step? step).isNone) = true) : p.Blocked w := by
  intro step his
  refine Option.isNone_iff_eq_none.mp (List.all_eq_true.mp none step ?_)
  cases step <;> cases his <;> simp [Step.allBy]

/-- What a living worker can be doing that cannot take a step. -/
theorem Blocked.of_alive (blocked : p.Blocked w) (hw : p.workers[w]? = some worker)
    (alive : worker.isAlive = true) : (worker.activity = .idle ∧ worker.queue = []) ∨
      (∃ c text, worker.activity = .handing c (.part text)) ∨
      ∃ c gate, worker.activity = .handing c (.gate gate) ∧ p.isOpen gate = false := by
  cases activity : worker.activity with
  | idle =>
      refine Or.inl ⟨rfl, ?_⟩
      cases queue : worker.queue with
      | nil => rfl
      | cons message rest =>
          have none := blocked (.take w) rfl
          cases message with
          | metric m => simp [step?, take?, hw, activity, queue] at none
          | work c job =>
              -- Whatever comes of the work, the worker can take it.
              cases outcome : job.invoke w worker.shard <;>
                simp [step?, take?, hw, activity, queue, outcome] at none
  | holding c handoff =>
      have none := blocked (.dropWork w) rfl
      simp [step?, dropWork?, hw, activity] at none
  | handing c handoff =>
      cases handoff with
      | done =>
          have none := blocked (.finish w) rfl
          simp [step?, finish?, hw, activity] at none
      | part text => exact Or.inr (Or.inl ⟨c, text, rfl⟩)
      | gate gate =>
          have none := blocked (.handOver w) rfl
          refine Or.inr (Or.inr ⟨c, gate, rfl, ?_⟩)
          simpa [step?, handOver?, hw, activity] using none
  | signalling c =>
      have none := blocked (.signal w) rfl
      simp [step?, signal?, hw, activity] at none
  | dead => simp [Worker.isAlive, activity] at alive

/-- What a worker can be doing that cannot take a step, where only listings and deletions are
    called. -/
theorem Blocked.cases (blocked : p.Blocked w) (hw : p.workers[w]? = some worker)
    (ordinary : worker.Ordinary) : (worker.activity = .idle ∧ worker.queue = []) ∨
      ∃ c text, worker.activity = .handing c (.part text) := by
  rcases blocked.of_alive hw ordinary.isAlive with rest | part | ⟨c, gate, activity, _⟩
  · exact Or.inl rest
  · exact Or.inr part
  · have lives := ordinary.activity
    rw [activity] at lives
    cases lives

/-- A worker that stands in a hand-off and cannot take a step waits for a caller that still
    listens and is not cancelled, and whose channel is full. -/
theorem Run.full_of_blocked (run : Run start h p) (fresh : IsFresh start)
    (blocked : p.Blocked w) (hw : p.workers[w]? = some worker)
    (activity : worker.activity = .handing c (.part text)) :
    ∃ call intake, p.calls[c]? = some call ∧ call.intake? = some intake ∧
      intake.channel.parts.length = intake.channel.capacity ∧ call.phase.isOpen = true ∧
        call.cancelled = false := by
  -- Whoever is in the hand-off of a call owes it a ticket, so the call has been made.
  have busy : worker.activity.call? = some c := by rw [activity]; rfl
  have known := (run.accounts fresh).known w worker hw c (Worker.mem_owed_of_busy busy)
  have hc : p.calls[c]? = some p.calls[c] := Array.getElem?_eq_getElem known
  have forgo := blocked (.forgo w) rfl
  have handOver := blocked (.handOver w) rfl
  simp only [step?, forgo?, hw, activity, hc, Option.bind_eq_bind, Option.bind_some] at forgo
  simp only [step?, handOver?, hw, activity, hc, Option.bind_eq_bind, Option.bind_some] at handOver
  have uncancelled : p.calls[c].cancelled = false := by
    by_contra cancelled
    rw [if_pos (by simpa using cancelled)] at forgo
    cases forgo
  cases hi : p.calls[c].intake? with
  | none => simp [hi] at handOver
  | some intake =>
      rw [hi] at handOver
      have listening : intake.channel.listening = true := by
        by_contra unheard
        simp [Bool.eq_false_iff.mpr unheard] at handOver
      have noRoom : intake.channel.hasRoom = false := by
        by_contra room
        simp [listening] at handOver
        exact room handOver
      refine ⟨p.calls[c], intake, hc, hi, ?_, ?_, uncancelled⟩
      · have fits := ((run.custody fresh c _ hc).intake intake hi).fits
        have full : intake.channel.capacity ≤ intake.channel.parts.length := by
          simpa [Channel.hasRoom] using noRoom
        exact Nat.le_antisymm fits full
      · by_contra ended
        have unheard := run.unheard fresh hc (Bool.eq_false_iff.mpr ended) hi
        exact absurd (unheard.symm.trans listening) Bool.false_ne_true

end Waiting

section Stuck

variable {start p : Pool} {h : List Moment} {c : CallId} {w : WorkerId} {worker : Worker}
  {call : Call} {intake : Intake}

theorem Stuck.not_submitting (stuck : p.Stuck) (hc : p.calls[c]? = some call) (w : WorkerId) :
    call.phase ≠ .submitting w := by
  intro phase
  have none := stuck (.submit c)
  simp only [step?, submit?, hc, phase, Option.bind_eq_bind, Option.bind_some] at none
  split at none
  · split at none <;> cases none
  · cases none

-- A caller that waits needs nobody to take a part from its channel.
theorem Stuck.parts_eq_nil (stuck : p.Stuck) (hc : p.calls[c]? = some call)
    (hi : call.intake? = some intake) (waiting : call.phase = .waiting) :
    intake.channel.parts = [] := by
  cases parts : intake.channel.parts with
  | nil => rfl
  | cons part rest =>
      have none := stuck (.receive c)
      simp [step?, receive?, hc, hi, waiting, parts] at none

theorem Stuck.closer_ne_waiting (stuck : p.Stuck) (hc : p.calls[c]? = some call)
    (hi : call.intake? = some intake) (resolved : call.isResolved = true) :
    intake.closer ≠ .waiting := by
  intro closer
  have none := stuck (.letGo c)
  simp [step?, letGo?, hc, hi, closer, resolved] at none

-- A caller that waits in a pool that is stuck has something to wait for.
theorem Stuck.conclusion?_eq_none (stuck : p.Stuck) (hc : p.calls[c]? = some call)
    (waiting : call.phase = .waiting) : call.conclusion? = none := by
  cases conclusion : call.conclusion? with
  | none => rfl
  | some result =>
      have none := stuck (.conclude c)
      simp [step?, conclude?, hc, waiting, Phase.isWaiting, conclusion] at none

/-- In a pool that is stuck a living worker is idle without messages, or it stands at a gate
    that is closed. -/
theorem Run.idle_or_gated_of_stuck (run : Run start h p) (fresh : IsFresh start)
    (stuck : p.Stuck) (hw : p.workers[w]? = some worker) (alive : worker.isAlive = true) :
    (worker.activity = .idle ∧ worker.queue = []) ∨
      ∃ c gate, worker.activity = .handing c (.gate gate) ∧ p.isOpen gate = false := by
  have blocked : p.Blocked w := fun step _ => stuck step
  rcases blocked.of_alive hw alive with rest | ⟨c, text, activity⟩ | gated
  · exact Or.inl rest
  · -- The caller in front of the full channel can take a part from it.
    rcases run.full_of_blocked fresh blocked hw activity with ⟨call, intake, hc, hi, full, opens, _⟩
    have waiting : call.phase = .waiting := by
      cases phase : call.phase with
      | waiting => rfl
      | submitting v => exact absurd phase (stuck.not_submitting hc v)
      | _ => simp [phase, Phase.isOpen] at opens
    have empty := stuck.parts_eq_nil hc hi waiting
    have room := ((run.custody fresh c call hc).intake intake hi).room
    rw [empty, List.length_nil] at full
    omega
  · exact Or.inr gated

/-- In a pool that is stuck nobody stands in a hand-off, and nothing is on a queue. -/
theorem Run.idle_of_stuck (run : Run start h p) (fresh : IsFresh start)
    (plain : ∀ m ∈ h, m.action.isOrdinary = true) (stuck : p.Stuck)
    (hw : p.workers[w]? = some worker) : worker.activity = .idle ∧ worker.queue = [] := by
  have ordinary := (run.ordinary fresh plain).workers w worker hw
  rcases run.idle_or_gated_of_stuck fresh stuck hw ordinary.isAlive with
    rest | ⟨c, gate, activity, _⟩
  · exact rest
  · have lives := ordinary.activity
    rw [activity] at lives
    cases lives

-- The tickets of a call are resolved when nobody owes it one.
theorem Accounts.isResolved_of_not_owed (acc : Accounts p) (hc : p.calls[c]? = some call)
    (paid : ∀ (w : WorkerId) (worker : Worker), p.workers[w]? = some worker → c ∉ worker.owed) :
    call.isResolved = true := by
  rw [Call.isResolved, Array.all_eq_true]
  intro w hlt
  have given := acc.given c call hc
  have inside : w < p.workers.size := by
    have size : p.size = p.workers.size := rfl
    omega
  have hw : p.workers[w]? = some p.workers[w] := Array.getElem?_eq_getElem inside
  have none := paid w _ hw
  rw [acc.owes w _ c call hw hc, Array.getElem?_eq_getElem hlt, Option.some.injEq] at none
  simpa using none

-- Workers that are idle owe nobody anything.
theorem Accounts.isResolved_of_idle (acc : Accounts p) (hc : p.calls[c]? = some call)
    (idle : ∀ (w : WorkerId) (worker : Worker), p.workers[w]? = some worker →
      worker.activity = .idle ∧ worker.queue = []) : call.isResolved = true := by
  refine acc.isResolved_of_not_owed hc fun w worker hw => ?_
  rcases idle w worker hw with ⟨activity, queue⟩
  simp [Worker.owed, activity, queue, Activity.call?]

-- A listing that nobody owes anything, and whose closer has ended, has a channel without senders.
theorem Run.senders_eq_nil (run : Run start h p) (fresh : IsFresh start)
    (hc : p.calls[c]? = some call) (hi : call.intake? = some intake)
    (waiting : call.phase = .waiting) (ended : intake.closer = .ended)
    (paid : ∀ (w : WorkerId) (worker : Worker), p.workers[w]? = some worker → c ∉ worker.owed) :
    intake.channel.senders = [] := by
  have kept := run.custody fresh c call hc
  have unheld : call.holders = [] := by
    rw [List.eq_nil_iff_forall_not_mem]
    intro holder mem
    cases holder with
    | caller =>
        rcases kept.caller mem with ⟨v, submitting⟩
        rw [waiting] at submitting
        cases submitting
    | worker w =>
        rcases kept.worker w mem with ⟨worker, hw, held⟩
        exact paid w worker hw (Worker.held_subset_owed held)
  have keptIntake := kept.intake intake hi
  rw [unheld] at keptIntake
  refine keptIntake.senders_eq_nil ended fun w attached => ?_
  rcases attached with ⟨worker, hw, attached⟩
  -- Who has a hand-off owes the signal that comes after it.
  have busy : worker.activity.call? = some c := by
    cases activity : worker.activity <;> simp_all [Activity.attached?, Activity.call?]
  exact paid w worker hw (Worker.mem_owed_of_busy busy)

-- In a pool that is stuck nobody waits for a call that is owed nothing any more.
theorem Run.not_waiting_of_paid (run : Run start h p) (fresh : IsFresh start) (stuck : p.Stuck)
    (hc : p.calls[c]? = some call)
    (paid : ∀ (w : WorkerId) (worker : Worker), p.workers[w]? = some worker → c ∉ worker.owed) :
    call.phase ≠ .waiting := by
  intro waiting
  have none := stuck.conclusion?_eq_none hc waiting
  have resolved := (run.accounts fresh).isResolved_of_not_owed hc paid
  cases purpose : call.purpose with
  | count | completion =>
      rw [Call.conclusion?, purpose, Call.wait?, if_pos resolved] at none
      cases lost : call.firstLost? <;> simp [lost] at none
  | listing intake =>
      have hi : call.intake? = some intake := by rw [Call.intake?, purpose]
      have ended : intake.closer = .ended := by
        have begun := (run.supervised fresh hc hi).begun waiting
        have gone := stuck.closer_ne_waiting hc hi resolved
        cases closer : intake.closer <;> simp_all
      have senders := run.senders_eq_nil fresh hc hi waiting ended paid
      have parts := stuck.parts_eq_nil hc hi waiting
      simp [Call.conclusion?, purpose, Channel.isClosed, senders, parts] at none

-- Nobody owes anything when no step is left, but for those who stand at a closed gate.
theorem Run.not_owed_of_ungated (run : Run start h p) (fresh : IsFresh start) (stuck : p.Stuck)
    (ungated : p.Ungated) (hw : p.workers[w]? = some worker) : worker.owed = [] := by
  cases alive : worker.isAlive with
  | true =>
      rcases run.idle_or_gated_of_stuck fresh stuck hw alive with
        ⟨activity, queue⟩ | ⟨d, gate, activity, closed⟩
      · rw [Worker.owed, activity, queue]
        rfl
      · exact absurd (closed.symm.trans (ungated w worker d gate hw activity)) Bool.false_ne_true
  | false =>
      have activity : worker.activity = .dead := by simpa [Worker.isAlive] using alive
      rw [Worker.owed, activity, run.queue_of_dead fresh hw alive]
      rfl

-- A call that has not been abandoned has its result when no step is left.
theorem Run.result_of_stuck (run : Run start h p) (fresh : IsFresh start) (stuck : p.Stuck)
    (ungated : p.Ungated) (hc : p.calls[c]? = some call) (kept : call.phase ≠ .dropped) :
    ∃ result, p.result? c = some result := by
  cases phase : call.phase with
  | submitting w => exact absurd phase (stuck.not_submitting hc w)
  | waiting =>
      refine absurd phase (run.not_waiting_of_paid fresh stuck hc fun w worker hw => ?_)
      rw [run.not_owed_of_ungated fresh stuck ungated hw]
      exact List.not_mem_nil
  | refused cause => exact ⟨.error cause, by rw [result?, hc, Option.map_some, phase]⟩
  | returned result => exact ⟨result, by rw [result?, hc, Option.map_some, phase]⟩
  | dropped => exact absurd phase kept

/-- A pool that is stuck has nothing left to do. -/
theorem Run.settled_of_stuck (run : Run start h p) (fresh : IsFresh start)
    (plain : ∀ m ∈ h, m.action.isOrdinary = true) (stuck : p.Stuck) : p.Settled := by
  have idle (w : WorkerId) (worker : Worker) (hw : p.workers[w]? = some worker) :=
    run.idle_of_stuck fresh plain stuck hw
  have acc := run.accounts fresh
  have alive := (run.ordinary fresh plain).allAlive
  have closed (c : CallId) (call : Call) (intake : Intake) (hc : p.calls[c]? = some call)
      (hi : call.intake? = some intake) : intake.closer ≠ .waiting :=
    stuck.closer_ne_waiting hc hi (acc.isResolved_of_idle hc idle)
  refine ⟨fun c call hc => ?_, closed, idle⟩
  cases phase : call.phase with
  | submitting w => exact absurd phase (stuck.not_submitting hc w)
  | refused cause => exact absurd phase (run.not_refused fresh alive hc cause)
  | returned result => exact Or.inl ⟨result, rfl⟩
  | dropped => exact Or.inr rfl
  | waiting =>
      refine absurd phase (run.not_waiting_of_paid fresh stuck hc fun w worker hw => ?_)
      rcases idle w worker hw with ⟨activity, queue⟩
      simp [Worker.owed, activity, queue, Activity.call?]

-- Every step makes the load smaller, so some step is the last one.
theorem Run.exists_settled (run : Run start h p) (fresh : IsFresh start)
    (plain : ∀ m ∈ h, m.action.isOrdinary = true) : ∃ later q, Run p later q ∧
      (∀ m ∈ later, m.action.isStep = true) ∧ q.Stuck ∧ q.Settled := by
  generalize measure : p.load = n
  induction n using Nat.strongRecOn generalizing h p with
  | ind n ih =>
      by_cases stuck : p.Stuck
      · exact ⟨[], p, .start, by simp, stuck, run.settled_of_stuck fresh plain stuck⟩
      · rcases not_forall.mp stuck with ⟨step, possible⟩
        rcases Option.ne_none_iff_exists'.mp possible with ⟨p', act⟩
        have act : p.act? (.step step) = some p' := act
        have less := (change_of_act? act).load_lt
        have plain' : ∀ m ∈ h ++ [⟨p, .step step⟩], m.action.isOrdinary = true := by
          intro m hm
          rcases List.mem_append.mp hm with before | now
          · exact plain m before
          · rw [List.mem_singleton.mp now]
            rfl
        rcases ih p'.load (measure ▸ less) (run.next act) plain' rfl with
          ⟨later, q, run', steps, rest⟩
        refine ⟨[⟨p, .step step⟩] ++ later, q, (Trace.single act).trans run', ?_, rest⟩
        intro m hm
        rcases List.mem_append.mp hm with first | rest
        · rw [List.mem_singleton.mp first]
          rfl
        · exact steps m rest

-- What does not submit anything does not call with work of one's own either.
theorem Action.isOrdinary_of_submits {a : Action} (quiet : a.submits = false) :
    a.isOrdinary = true := by
  cases a <;> first | rfl | cases quiet

/-- A pool on which only listings and deletions are called never gets stuck: as long as it is
    not settled somebody can take a step. A worker that cannot is idle without messages, or
    it stands before the full channel of a caller that still listens and is not cancelled.
    Without submissions there are at most as many steps as the load says, whoever takes them
    and whatever is cancelled or abandoned meanwhile, and when no step is left the pool is
    settled. -/
theorem Run.comes_to_rest (run : Run start h p) (fresh : IsFresh start)
    (plain : ∀ m ∈ h, m.action.isOrdinary = true) :
    (¬ p.Settled → ∃ step p', p.step? step = some p') ∧
    (∀ (w : WorkerId) (worker : Worker), p.workers[w]? = some worker → p.Blocked w →
      (worker.activity = .idle ∧ worker.queue = []) ∨
        ∃ c text call intake, worker.activity = .handing c (.part text) ∧
          p.calls[c]? = some call ∧ call.intake? = some intake ∧
          intake.channel.parts.length = intake.channel.capacity ∧ call.phase.isOpen = true ∧
          call.cancelled = false) ∧
    (∀ later q, Run p later q → (∀ m ∈ later, m.action.submits = false) →
      stepsOf later ≤ p.load ∧ (q.Stuck → q.Settled)) ∧
    ∃ later q, Run p later q ∧ (∀ m ∈ later, m.action.isStep = true) ∧ q.Stuck ∧ q.Settled := by
  refine ⟨fun busy => ?_, fun w worker hw blocked => ?_, fun later q run' quiet => ?_,
    run.exists_settled fresh plain⟩
  · by_contra none
    refine busy (run.settled_of_stuck fresh plain fun step => ?_)
    rw [Option.eq_none_iff_forall_ne_some]
    exact fun p' possible => none ⟨step, p', possible⟩
  · refine (blocked.cases hw ((run.ordinary fresh plain).workers w worker hw)).imp_right ?_
    rintro ⟨c, text, activity⟩
    rcases run.full_of_blocked fresh blocked hw activity with ⟨call, intake, full⟩
    exact ⟨c, text, call, intake, activity, full⟩
  · have steps := run'.stepsOf_le quiet
    refine ⟨by omega, Run.settled_of_stuck (run.trans run') fresh fun m hm => ?_⟩
    rcases List.mem_append.mp hm with before | after
    · exact plain m before
    · exact Action.isOrdinary_of_submits (quiet m after)

end Stuck

/-- Two listings come to two workers in opposite orders, through channels with room for one
    text each. Either worker has filled one of the channels and stands before the other. -/
def crossedListings : List Action :=
  [.dispatch 0 ⟨"a", .empty, .counter 2⟩, .dispatch 1 ⟨"b", .empty, .counter 1⟩,
    .list 1 .counter false, .list 1 .counter false] ++
  List.map Action.step
    [.submit 0, .submit 1, .submit 1, .submit 0, .submit 0, .submit 1,
      .take 0, .take 0, .dropWork 0, .handOver 0, .finish 0, .signal 0,
      .take 1, .take 1, .dropWork 1, .handOver 1, .finish 1, .signal 1,
      .take 0, .dropWork 0, .take 1, .dropWork 1]

theorem crossedListings_go_on : ∃ h p, Run (start 2) h p ∧ p.Blocked 0 ∧ p.Blocked 1 ∧
    (∃ step p', p.step? step = some p') ∧
    ∃ later q, Run p later q ∧ (∀ m ∈ later, m.action.isStep = true) ∧ q.Stuck ∧ q.Settled := by
  have done : (Trace.perform? act? [] (start 2) crossedListings).map (fun r =>
      ((Step.allBy 0).all fun step => (r.2.step? step).isNone,
        (Step.allBy 1).all fun step => (r.2.step? step).isNone,
        r.2.calls[0]?.map fun call => call.phase.isOpen)) =
      some (true, true, some true) := by
    decide +kernel
  rcases Option.map_eq_some_iff.mp done with ⟨⟨h, p⟩, performed, facts⟩
  simp only [Prod.mk.injEq] at facts
  rcases facts with ⟨first, second, open?⟩
  rcases Option.map_eq_some_iff.mp open? with ⟨call, hc, opens⟩
  have run : Run (start 2) h p := Trace.of_perform? .start performed
  have plain : ∀ m ∈ h, m.action.isOrdinary = true := by
    have all : crossedListings.all Action.isOrdinary = true := by decide
    exact Trace.forall_of_perform? performed all
  have unsettled : ¬ p.Settled := by
    intro settled
    rcases settled.calls 0 call hc with ⟨result, returned⟩ | dropped
    · rw [returned] at opens
      cases opens
    · rw [dropped] at opens
      cases opens
  rcases run.comes_to_rest (isFresh_start 2) plain with ⟨going, _, _, resting⟩
  exact ⟨h, p, run, blocked_of_all first, blocked_of_all second, going unsettled, resting⟩

end Pool

end ShardConsole
