import ShardConsole.Proofs.Pool.Returns
import ShardConsole.Proofs.Sums

/-!
# The Load of a Pool

How much a pool still has to do.

Every step of a worker, a caller or a closer brings something to an end, and the load is a
number that says how many steps are still to come at most. A metric on a queue costs one
step. The work of a call costs five on each worker, from taking it to the completion signal,
and one more for the part that may then have to be taken from the channel. A call that
submits owes every worker that it has not reached one more step than that, the one that puts
the work on the queue.

A part that is handed over moves from the worker to the channel, so the load of one goes
down by two when that of the other goes up by one. All other steps make one of the loads
smaller and none greater.

Cancelling or abandoning a call and opening a gate never add to the load. Without new
submissions a pool therefore takes at most as many steps as its load says, in whatever order
they come.

## Main definitions

* `Pool.load`: The load of a pool, made up of those of its workers and calls.
* `Action.submits`: Whether an action gives the pool something new to do.
* `stepsOf`: The number of steps of a history.

## Theorems

* `load_modifyWorker`, `load_modifyCall`: The load after one worker or call has changed.
* `Change.load_lt`: Every step makes the load smaller.
* `Change.load_le`: Nothing but a submission makes it greater.
* `Run.stepsOf_le`: A run without submissions has at most as many steps as the load says.
-/

namespace ShardConsole

namespace Pool

/-- What a message on a queue costs. -/
def Message.load : Message → Nat
  | .metric _ => 1
  | .work _ _ => 6

/-- What is left of a hand-off that has begun. A part that is handed over costs a step of
    the caller, too. -/
def Handoff.load : Handoff → Nat
  | .done => 2
  | .part _ | .gate _ => 4

/-- What is left of what a worker is doing. -/
def Activity.load : Activity → Nat
  | .idle | .dead => 0
  | .signalling _ => 1
  | .handing _ handoff => handoff.load
  | .holding _ handoff => handoff.load + 1

def Worker.load (worker : Worker) : Nat :=
  worker.activity.load + (worker.queue.map Message.load).sum

/-- What is left for a caller, apart from the parts that it takes. -/
def Phase.load (workers : Nat) : Phase → Nat
  | .submitting next => 7 * (workers - next) + 3
  | .waiting => 1
  | .refused _ | .returned _ | .dropped => 0

def Closer.load : Closer → Nat
  | .waiting => 1
  | .absent | .ended => 0

def Intake.load (intake : Intake) : Nat :=
  intake.channel.parts.length + intake.closer.load

def Call.load (workers : Nat) (call : Call) : Nat :=
  call.phase.load workers + (call.intake?.map Intake.load).getD 0

/-- How much a pool still has to do. -/
def load (p : Pool) : Nat :=
  (p.workers.toList.map Worker.load).sum + (p.calls.toList.map (Call.load p.size)).sum

/-- Whether an action gives the pool something new to do. -/
def Action.submits : Action → Bool
  | .dispatch _ _ | .list _ _ _ | .delete _ _ _ | .process _ => true
  | .step _ | .cancel _ | .drop _ | .openGate _ => false

def Action.isStep : Action → Bool
  | .step _ => true
  | _ => false

/-- The number of steps of a history. -/
def stepsOf (h : List Moment) : Nat :=
  h.countP fun m => m.action.isStep

section Sums

variable {p : Pool} {c : CallId} {w : WorkerId} {worker : Worker} {call : Call} {k : Nat}

theorem load_modifyWorker (change : Worker → Worker) (hw : p.workers[w]? = some worker) :
    (p.modifyWorker w change).load + worker.load = p.load + (change worker).load := by
  have sum := sum_map_modify Worker.load change (Array.getElem?_toList.trans hw)
  rw [load, load, size_modifyWorker, calls_modifyWorker, modifyWorker, Array.toList_modify]
  omega

theorem load_modifyCall (change : Call → Call) (hc : p.calls[c]? = some call) :
    (p.modifyCall c change).load + call.load p.size = p.load + (change call).load p.size := by
  have sum := sum_map_modify (Call.load p.size) change (Array.getElem?_toList.trans hc)
  rw [load, load, size_modifyCall, workers_modifyCall, modifyCall, Array.toList_modify]
  omega

-- A call that is not there is not changed.
theorem load_modifyCall_le (change : Call → Call)
    (le : ∀ call, p.calls[c]? = some call → (change call).load p.size ≤ call.load p.size + k) :
    (p.modifyCall c change).load ≤ p.load + k := by
  cases hc : p.calls[c]? with
  | some call =>
      have eq := load_modifyCall change hc
      have := le call hc
      omega
  | none =>
      rw [modifyCall_eq_self fun call there => by cases hc.symm.trans there]
      exact Nat.le_add_right _ _

end Sums

section Calls

variable {call : Call} {k n : Nat}

theorem Call.load_mapIntake_le (call : Call) (change : Intake → Intake)
    (le : ∀ intake, call.intake? = some intake → (change intake).load ≤ intake.load + k) :
    (call.mapIntake change).load n ≤ call.load n + k := by
  rw [Call.load, Call.load, Call.phase_mapIntake, Call.intake?_mapIntake]
  cases hi : call.intake? with
  | none =>
      simp only [Option.map_none, Option.getD_none]
      omega
  | some intake =>
      have := le intake hi
      simp only [Option.map_some, Option.getD_some]
      omega

theorem Call.load_mapIntake {intake : Intake} (change : Intake → Intake)
    (hi : call.intake? = some intake) :
    (call.mapIntake change).load n + intake.load = call.load n + (change intake).load := by
  rw [Call.load, Call.load, Call.phase_mapIntake, Call.intake?_mapIntake, hi]
  simp only [Option.map_some, Option.getD_some]
  omega

theorem Call.load_dropWork (holder : Holder) : (call.dropWork holder).load n = call.load n := by
  rw [Call.load, Call.load, Call.phase_dropWork, Call.intake?_dropWork]
  cases call.intake? with
  | none => rfl
  | some intake =>
      -- Letting go of a sender takes nothing out of the channel.
      simp only [Option.map_some, Option.getD_some, Intake.load]
      split <;> rfl

-- A call that ends leaves at most its closer behind.
theorem Call.load_finishWith_le (call : Call) (phase : Phase) (ended : phase.load n = 0) :
    (call.finishWith phase).load n + call.phase.load n ≤ call.load n := by
  rw [Call.load, Call.load, Call.intake?_finishWith]
  have same : (call.finishWith phase).phase = phase := by simp
  rw [same, ended]
  cases call.intake? with
  | none => simp
  | some intake =>
      simp only [Option.map_some, Option.getD_some, Intake.load, Channel.hangUp, List.length_nil]
      omega

theorem Call.load_refuse_le (w : WorkerId) :
    (call.refuse w).load n + call.phase.load n ≤ call.load n := by
  have ended := call.load_finishWith_le (n := n) (.refused ⟨w⟩) rfl
  have left := ((call.finishWith (.refused ⟨w⟩)).dropWork .caller).load_mapIntake_le
    (n := n) (k := 0) (fun intake => { intake with channel := intake.channel.release .closer })
    fun _ _ => Nat.le_refl _
  rw [Call.load_dropWork] at left
  exact Nat.le_trans (Nat.add_le_add_right left _) ended

-- The caller waits from now on, and so does the closer.
theorem Call.load_await_le : call.await.load n + call.phase.load n ≤ call.load n + 2 := by
  have begun := (({ call with phase := .waiting } : Call).dropWork .caller).load_mapIntake_le
    (n := n) (k := 1) (fun intake => { intake with closer := .waiting })
    fun intake _ => by simp only [Intake.load, Closer.load]; omega
  rw [Call.load_dropWork] at begun
  have waiting : ({ call with phase := .waiting } : Call).load n + call.phase.load n =
      call.load n + 1 := by
    simp only [Call.load, Phase.load, Call.intake?]
    omega
  rw [Call.await]
  omega

theorem Call.load_give {w : Nat} (phase : call.phase = .submitting w) (inside : w < n) :
    (call.give w).load n + 7 = call.load n := by
  have same : (call.give w).intake? = call.intake? := rfl
  have next : (call.give w).phase = .submitting (w + 1) := rfl
  simp only [Call.load, same, next, phase, Phase.load]
  omega

end Calls

section Steps

variable {p p' : Pool} {a : Action} {step : Step}

-- A death takes what was on the queue off the load, and nothing of it comes to the calls.
theorem load_bury {w : WorkerId} {worker : Worker} (lost : List Message)
    (hw : p.workers[w]? = some worker) : (p.bury w lost).load + worker.load = p.load := by
  have buried := load_modifyWorker (fun worker => { worker with queue := [], activity := .dead }) hw
  have calls : (p.bury w lost).calls.toList.map (Call.load p.size) =
      p.calls.toList.map (Call.load p.size) := by
    refine List.ext_getElem? fun c => ?_
    rw [List.getElem?_map, List.getElem?_map, Array.getElem?_toList, Array.getElem?_toList, bury,
      Array.getElem?_mapIdx, Option.map_map]
    refine congrArg (fun f => Option.map f _) (funext fun call => ?_)
    rw [Function.comp_apply]
    split
    · exact Call.load_dropWork _
    · rfl
  have size : (p.bury w lost).size = p.size := size_modifyWorker p w _
  rw [load, load, size_modifyWorker, calls_modifyWorker] at buried
  rw [load, load, size, calls]
  exact buried

-- A worker that goes on to something else has the load of that instead.
theorem load_setActivity {w : WorkerId} {worker : Worker} (activity : Activity)
    (hw : p.workers[w]? = some worker) :
    (p.setActivity w activity).load + worker.activity.load = p.load + activity.load := by
  have moved := load_modifyWorker (fun worker => { worker with activity := activity }) hw
  simp only [Worker.load] at moved
  rw [setActivity]
  omega

/-- Every step makes the load smaller. -/
theorem Change.load_lt (change : Change p (.step step) p') : p'.load < p.load := by
  cases change with
  | begin begins => cases begins
  | @give c call w worker hc phase hw alive =>
      -- Putting the work on a queue costs one step more than handling it there.
      have queued := load_modifyWorker
        (fun worker => { worker with queue := worker.queue ++ [.work c call.work] }) hw
      have given := load_modifyCall (p := p.enqueue w (.work c call.work)) (·.give w) hc
      have less := call.load_give phase (lt_size_of_worker hw)
      have size : (p.enqueue w (.work c call.work)).size = p.size := size_modifyWorker p w _
      simp only [Worker.load, List.map_append, List.map_cons, List.map_nil, List.sum_append,
        List.sum_cons, List.sum_nil, Message.load] at queued
      rw [size] at given
      rw [← enqueue] at queued
      omega
  | @refuse c call w worker hc phase hw dead =>
      have changed := load_modifyCall (·.refuse w) hc
      have less := call.load_refuse_le (n := p.size) w
      simp only [phase, Phase.load] at less
      omega
  | @await c call w hc phase hw =>
      have changed := load_modifyCall Call.await hc
      have less := call.load_await_le (n := p.size)
      simp only [phase, Phase.load] at less
      omega
  | @merge w worker m rest hw idle queue =>
      have changed := load_modifyWorker
        (fun worker => { worker with shard := worker.shard.receive m, queue := rest }) hw
      simp only [Worker.load, queue, List.map_cons, List.sum_cons, Message.load] at changed
      omega
  | @run w worker c job rest shard report handoff hw idle queue ran =>
      have changed := load_modifyWorker (fun _ => ⟨shard, rest, .holding c handoff⟩) hw
      have noted := load_modifyCall_le
        (p := p.modifyWorker w fun _ => ⟨shard, rest, .holding c handoff⟩) (c := c) (k := 0)
        (·.noteRun w report) fun call _ =>
          ({ call with reports := call.reports ++ [(w, report)] } : Call).load_mapIntake_le
            _ fun _ _ => Nat.le_refl _
      have small : handoff.load ≤ 4 := by cases handoff <;> simp [Handoff.load]
      simp only [Worker.load, idle, queue, List.map_cons, List.sum_cons, Message.load,
        Activity.load] at changed
      omega
  | @die w worker c job rest hw idle queue failed =>
      have buried := load_bury worker.queue hw
      simp only [Worker.load, queue, List.map_cons, List.sum_cons, Message.load] at buried
      rw [queue]
      omega
  | @dropWork w worker c handoff hw activity =>
      have changed := load_setActivity (.handing c handoff) hw
      have dropped := load_modifyCall_le (p := p.setActivity w (.handing c handoff)) (c := c)
        (k := 0) (·.dropWork (.worker w)) fun call _ => Nat.le_of_eq (call.load_dropWork _)
      simp only [activity, Activity.load] at changed
      omega
  | @passGate w worker c gate hw activity isOpen =>
      have changed := load_setActivity (.handing c .done) hw
      simp only [activity, Activity.load, Handoff.load] at changed
      omega
  | @discard w worker c text call hw activity hc unheard =>
      have changed := load_setActivity (.handing c .done) hw
      simp only [activity, Activity.load, Handoff.load] at changed
      omega
  | @forgo w worker c text call hw activity hc cancelled =>
      have changed := load_setActivity (.handing c .done) hw
      simp only [activity, Activity.load, Handoff.load] at changed
      omega
  | @push w worker c text call intake hw activity hc hi listening room =>
      -- The part goes from the worker to the channel, where it costs one step.
      have changed := load_setActivity (.handing c .done) hw
      have pushed := load_modifyCall_le (p := p.setActivity w (.handing c .done)) (c := c) (k := 1)
        (·.mapChannel (·.push text)) fun call _ => call.load_mapIntake_le _ fun intake _ => by
          simp only [Intake.load, Channel.push, List.length_append, List.length_singleton]
          omega
      simp only [activity, Activity.load, Handoff.load] at changed
      omega
  | @finish w worker c hw activity =>
      have changed := load_setActivity (.signalling c) hw
      have released := load_modifyCall_le (p := p.setActivity w (.signalling c)) (c := c) (k := 0)
        (·.mapChannel (·.release (.handoff w))) fun call _ =>
          call.load_mapIntake_le _ fun _ _ => Nat.le_refl _
      simp only [activity, Activity.load, Handoff.load] at changed
      omega
  | @signal w worker c hw activity =>
      have changed := load_setActivity .idle hw
      have resolved := load_modifyCall_le (p := p.setActivity w .idle) (c := c) (k := 0)
        (·.resolve w .done) fun call _ => Nat.le_refl _
      simp only [activity, Activity.load] at changed
      omega
  | @letGo c call intake hc hi closer resolved =>
      have changed := load_modifyCall (fun call => call.mapIntake fun intake =>
        { intake with channel := intake.channel.release .closer, closer := .ended }) hc
      have less := Call.load_mapIntake (n := p.size) (fun intake =>
        { intake with channel := intake.channel.release .closer, closer := .ended }) hi
      have ended : intake.load = intake.channel.parts.length + 1 := by
        rw [Intake.load, closer, Closer.load]
      have after : Intake.load { intake with
          channel := intake.channel.release .closer, closer := .ended } =
          intake.channel.parts.length := rfl
      omega
  | @receive c call intake part rest hc hi phase parts =>
      have changed := load_modifyCall (fun call => call.mapIntake fun intake =>
        { intake with
          channel := { intake.channel with parts := rest }
          output := intake.output ++ part }) hc
      have less := Call.load_mapIntake (n := p.size) (fun intake =>
        { intake with
          channel := { intake.channel with parts := rest }
          output := intake.output ++ part }) hi
      have before : intake.load = rest.length + 1 + intake.closer.load := by
        rw [Intake.load, parts, List.length_cons]
      have after : Intake.load { intake with
          channel := { intake.channel with parts := rest }
          output := intake.output ++ part } = rest.length + intake.closer.load := rfl
      omega
  | @conclude c call result hc phase conclusion =>
      have changed := load_modifyCall (fun call => call.finishWith (.returned result)) hc
      have less := call.load_finishWith_le (n := p.size) (.returned result) rfl
      simp only [phase, Phase.load] at less
      omega
  | @desist c call reply hc phase cancelled soFar =>
      have changed := load_modifyCall (fun call => call.finishWith (.returned (.ok reply))) hc
      have less := call.load_finishWith_le (n := p.size) (.returned (.ok reply)) rfl
      simp only [phase, Phase.load] at less
      omega

/-- Nothing but a submission makes the load greater. -/
theorem Change.load_le (change : Change p a p') (quiet : a.submits = false) :
    p'.load ≤ p.load := by
  by_cases step : a.isStep = true
  · cases a with
    | step s => exact Nat.le_of_lt change.load_lt
    | _ => cases step
  · cases change with
    | begin begins => cases begins <;> cases quiet
    | dispatch => cases quiet
    | openGate => exact Nat.le_refl _
    | cancel => exact load_modifyCall_le (k := 0) _ fun _ _ => Nat.le_refl _
    | drop =>
        refine load_modifyCall_le (k := 0) _ fun call _ => ?_
        by_cases waiting : call.phase.isWaiting = true
        · have less := call.load_finishWith_le (n := p.size) .dropped rfl
          rw [if_pos waiting]
          omega
        · rw [if_neg waiting]
          exact Nat.le_refl _
    | _ => exact absurd rfl step

/-- A run without submissions has at most as many steps as the load says. -/
theorem Run.stepsOf_le {later : List Moment} {q : Pool} (run : Run p later q)
    (quiet : ∀ m ∈ later, m.action.submits = false) : stepsOf later + q.load ≤ p.load := by
  induction run with
  | start => exact Nat.le_of_eq (Nat.zero_add _)
  | @next later q q' a run act ih =>
      have before := ih fun m hm => quiet m (List.mem_append_left _ hm)
      have change := change_of_act? act
      have less := change.load_le (quiet ⟨q, a⟩ (by simp))
      rw [stepsOf, List.countP_append, List.countP_singleton, ← stepsOf]
      by_cases step : a.isStep = true
      · have lt : q'.load < q.load := by
          cases a with
          | step s => exact change.load_lt
          | _ => cases step
        rw [if_pos step]
        omega
      · rw [if_neg step]
        omega

end Steps

end Pool

end ShardConsole
