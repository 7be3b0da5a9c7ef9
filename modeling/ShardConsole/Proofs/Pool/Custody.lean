import ShardConsole.Proofs.Pool.Returns

/-!
# Custody of Work and Senders

Who holds the work of a call and the senders of its channel, and why.

A channel is closed when every sender has been let go of, so a sender that nobody is going
to let go of would leave the caller waiting for ever. `Custody` rules that out: whatever is
held is held for a reason. The call holds its work while it submits. A worker holds it from
the moment at which the work is put on its queue until it has run it and let go. The sender
that the work has is there as long as somebody holds the work, that of a hand-off as long as
the worker is in the hand-off, and the closer's until the closer has ended.

No reason is left once the workers have come to rest and the closer has ended, and then the
channel has no senders.

Nothing is listed twice, which matters because letting go takes one entry off a list: an
entry that was there twice would stay.

## Main definitions

* `Worker.held`: The calls whose work a worker holds.
* `Pool.Holds`, `Pool.Attached`: The reasons that a worker can have.
* `Intake.Kept`, `Call.Kept`: Everything of one call is held for a reason.
* `Custody`: The same for all calls of a pool.

## Theorems

* `Intake.Kept.shrink`: Letting go of senders leaves the others with their reasons.
* `Change.custody`: Every change of a pool keeps custody.
* `Run.custody`: Custody holds in every state of a run.
* `Intake.Kept.senders_eq_nil`: A channel for which no reason is left has no senders.
-/

namespace ShardConsole

namespace Pool

/-- The call whose work a worker has run and not yet let go of. -/
def Activity.held? : Activity → Option CallId
  | .holding c _ => some c
  | _ => none

/-- The call whose hand-off a worker has begun, or is about to begin. -/
def Activity.attached? : Activity → Option CallId
  | .holding c _ | .handing c _ => some c
  | _ => none

/-- The calls whose work a worker holds. -/
def Worker.held (worker : Worker) : List CallId :=
  worker.activity.held?.toList ++ callsOf worker.queue

/-- A worker of a pool holds the work of a call. -/
def Holds (p : Pool) (c : CallId) (w : WorkerId) : Prop :=
  ∃ worker, p.workers[w]? = some worker ∧ c ∈ worker.held

/-- A worker of a pool is in the hand-off of a call. -/
def Attached (p : Pool) (c : CallId) (w : WorkerId) : Prop :=
  ∃ worker, p.workers[w]? = some worker ∧ worker.activity.attached? = some c

/-- Every sender of a channel is there for a reason, and the texts in the channel fit. -/
structure Intake.Kept (attached : WorkerId → Prop) (holders : List Holder) (intake : Intake) :
    Prop where
  once : intake.channel.senders.Nodup
  closer : Sender.closer ∈ intake.channel.senders → intake.closer ≠ .ended
  work : Sender.work ∈ intake.channel.senders → holders ≠ []
  handoff : ∀ w, Sender.handoff w ∈ intake.channel.senders → attached w
  room : 1 ≤ intake.channel.capacity
  fits : intake.channel.parts.length ≤ intake.channel.capacity

/-- Everything of a call is held for a reason. -/
structure Call.Kept (holds attached : WorkerId → Prop) (call : Call) : Prop where
  once : call.holders.Nodup
  caller : Holder.caller ∈ call.holders → ∃ w, call.phase = .submitting w
  worker : ∀ w, Holder.worker w ∈ call.holders → holds w
  intake : ∀ intake, call.intake? = some intake → intake.Kept attached call.holders

/-- Everything that is held in a pool is held for a reason. -/
def Custody (p : Pool) : Prop :=
  ∀ (c : CallId) (call : Call), p.calls[c]? = some call → call.Kept (p.Holds c) (p.Attached c)

section Reasons

variable {p : Pool} {c d : CallId} {v w : WorkerId} {worker : Worker}

theorem Holds.of_modifyWorker {change : Worker → Worker} (hv : p.workers[v]? = some worker)
    (keeps : c ∈ worker.held → c ∈ (change worker).held) (holds : p.Holds c w) :
    (p.modifyWorker v change).Holds c w := by
  rcases holds with ⟨other, hw, held⟩
  rw [Holds, getElem?_modifyWorker]
  by_cases same : v = w
  · subst same
    cases hv.symm.trans hw
    exact ⟨change worker, by rw [if_pos rfl, hv, Option.map_some], keeps held⟩
  · exact ⟨other, by rw [if_neg same, hw], held⟩

theorem Attached.of_modifyWorker {change : Worker → Worker} (hv : p.workers[v]? = some worker)
    (keeps : worker.activity.attached? = some c → (change worker).activity.attached? = some c)
    (attached : p.Attached c w) : (p.modifyWorker v change).Attached c w := by
  rcases attached with ⟨other, hw, busy⟩
  rw [Attached, getElem?_modifyWorker]
  by_cases same : v = w
  · subst same
    cases hv.symm.trans hw
    exact ⟨change worker, by rw [if_pos rfl, hv, Option.map_some], keeps busy⟩
  · exact ⟨other, by rw [if_neg same, hw], busy⟩

-- A worker that is changed does not touch the reasons of the others.
theorem Holds.of_ne {change : Worker → Worker} (other : v ≠ w) (holds : p.Holds c w) :
    (p.modifyWorker v change).Holds c w := by
  rcases holds with ⟨worker, hw, held⟩
  exact ⟨worker, by rw [getElem?_modifyWorker, if_neg other, hw], held⟩

theorem Attached.of_ne {change : Worker → Worker} (other : v ≠ w) (attached : p.Attached c w) :
    (p.modifyWorker v change).Attached c w := by
  rcases attached with ⟨worker, hw, busy⟩
  exact ⟨worker, by rw [getElem?_modifyWorker, if_neg other, hw], busy⟩

-- An idle worker is in no hand-off.
theorem not_attached_of_idle (hw : p.workers[w]? = some worker)
    (idle : worker.activity = .idle) : ¬ p.Attached c w := by
  rintro ⟨other, ho, busy⟩
  cases hw.symm.trans ho
  rw [idle] at busy
  cases busy

-- A worker goes on to hold what it holds when something comes to its queue.
theorem Worker.held_enqueue {m : Message} (held : c ∈ worker.held) :
    c ∈ Worker.held { worker with queue := worker.queue ++ [m] } := by
  rw [Worker.held, callsOf_append, ← List.append_assoc]
  exact List.mem_append_left _ held

-- Whoever holds the work of a call owes the call a ticket.
theorem Worker.held_subset_owed : worker.held ⊆ worker.owed := by
  intro c held
  rcases List.mem_append.mp held with busy | queued
  · refine List.mem_append_left _ ?_
    cases activity : worker.activity <;> simp_all [Activity.held?, Activity.call?]
  · exact List.mem_append_right _ queued

end Reasons

section Intakes

variable {attached attached' : WorkerId → Prop} {holders holders' : List Holder}
  {intake intake' : Intake}

/-- An intake whose senders have at most become fewer is still kept, if the reasons for
    those that are left are still there. -/
theorem Intake.Kept.shrink (kept : intake.Kept attached holders)
    (senders : intake'.channel.senders.Sublist intake.channel.senders)
    (closer : Sender.closer ∈ intake'.channel.senders → intake.closer ≠ .ended →
      intake'.closer ≠ .ended)
    (work : Sender.work ∈ intake'.channel.senders → holders ≠ [] → holders' ≠ [])
    (handoff : ∀ w, Sender.handoff w ∈ intake'.channel.senders → attached w → attached' w)
    (capacity : intake'.channel.capacity = intake.channel.capacity)
    (fits : intake'.channel.parts.length ≤ intake.channel.capacity) :
    intake'.Kept attached' holders' where
  once := kept.once.sublist senders
  closer h := closer h (kept.closer (senders.subset h))
  work h := work h (kept.work (senders.subset h))
  handoff w h := handoff w h (kept.handoff w (senders.subset h))
  room := capacity ▸ kept.room
  fits := capacity ▸ fits

theorem Intake.Kept.mono (kept : intake.Kept attached holders)
    (still : ∀ w, attached w → attached' w) : intake.Kept attached' holders :=
  kept.shrink (.refl _) (fun _ => id) (fun _ => id) (fun w _ => still w) rfl kept.fits

-- The receiver goes away, and the senders stay.
theorem Intake.Kept.hangUp (kept : intake.Kept attached holders) :
    Intake.Kept attached holders { intake with channel := intake.channel.hangUp } :=
  kept.shrink (.refl _) (fun _ => id) (fun _ => id) (fun _ _ => id) rfl (Nat.zero_le _)

-- A sender that has been let go of is not there any more.
theorem Intake.Kept.notMem_release (kept : intake.Kept attached holders) (sender : Sender) :
    sender ∉ (intake.channel.release sender).senders := by
  intro mem
  exact absurd rfl (kept.once.mem_erase_iff.mp mem).1

-- Somebody lets go of the work; the work goes when nobody is left.
theorem Intake.Kept.dropWork (kept : intake.Kept attached holders) (holder : Holder) :
    Intake.Kept attached (holders.erase holder)
      { intake with channel :=
          if (holders.erase holder).isEmpty then intake.channel.release .work
          else intake.channel } := by
  cases left : (holders.erase holder).isEmpty with
  | true =>
      exact kept.shrink List.erase_sublist (fun _ => id)
        (fun mem => absurd mem (kept.notMem_release .work)) (fun _ _ => id) rfl kept.fits
  | false =>
      refine kept.shrink (.refl _) (fun _ => id) (fun _ _ => ?_) (fun _ _ => id) rfl kept.fits
      simpa using left

-- A hand-off gets a sender of its own.
theorem Intake.Kept.attach {w : WorkerId} (kept : intake.Kept attached holders)
    (before : ¬ attached w) (still : ∀ v, attached v → attached' v) (now : attached' w) :
    Intake.Kept attached' holders
      { intake with channel := intake.channel.attach (.handoff w) } where
  once := List.nodup_cons.mpr ⟨fun mem => before (kept.handoff w mem), kept.once⟩
  closer h := kept.closer (List.mem_of_ne_of_mem (by simp) h)
  work h := kept.work (List.mem_of_ne_of_mem (by simp) h)
  handoff v h := by
    rcases List.mem_cons.mp h with same | mem
    · cases same
      exact now
    · exact still v (kept.handoff v mem)
  room := kept.room
  fits := kept.fits

/-- A channel for which no reason is left has no senders. -/
theorem Intake.Kept.senders_eq_nil (kept : intake.Kept attached [])
    (ended : intake.closer = .ended) (rest : ∀ w, ¬ attached w) :
    intake.channel.senders = [] := by
  rw [List.eq_nil_iff_forall_not_mem]
  intro sender mem
  cases sender with
  | closer => exact kept.closer mem ended
  | work => exact kept.work mem rfl
  | handoff w => exact rest w (kept.handoff w mem)

end Intakes

section Calls

variable {holds holds' attached attached' : WorkerId → Prop} {call : Call} {w : WorkerId}

theorem Call.Kept.mono (kept : call.Kept holds attached) (still : ∀ w, holds w → holds' w)
    (still' : ∀ w, attached w → attached' w) : call.Kept holds' attached' where
  once := kept.once
  caller := kept.caller
  worker w h := still w (kept.worker w h)
  intake intake hi := (kept.intake intake hi).mono still'

-- A change of the intake leaves the holders alone.
theorem Call.Kept.mapIntake {change : Intake → Intake} (kept : call.Kept holds attached)
    (still : ∀ w, holds w → holds' w)
    (changed : ∀ intake, call.intake? = some intake → intake.Kept attached call.holders →
      (change intake).Kept attached' call.holders) :
    (call.mapIntake change).Kept holds' attached' where
  once := by rw [Call.holders_mapIntake]; exact kept.once
  caller := by rw [Call.holders_mapIntake, Call.phase_mapIntake]; exact kept.caller
  worker w := by rw [Call.holders_mapIntake]; exact fun h => still w (kept.worker w h)
  intake intake' hi' := by
    rw [Call.intake?_mapIntake, Option.map_eq_some_iff] at hi'
    rcases hi' with ⟨intake, hi, rfl⟩
    rw [Call.holders_mapIntake]
    exact changed intake hi (kept.intake intake hi)

-- A call that does not submit can go on to any phase.
theorem Call.Kept.finishWith (kept : call.Kept holds attached) (phase : Phase)
    (past : ∀ w, call.phase ≠ .submitting w) : (call.finishWith phase).Kept holds attached := by
  have moved : ({ call with phase := phase } : Call).Kept holds attached := by
    refine ⟨kept.once, fun mem => ?_, kept.worker, kept.intake⟩
    rcases kept.caller mem with ⟨w, submitting⟩
    exact absurd submitting (past w)
  exact moved.mapIntake (fun _ => id) fun _ _ => Intake.Kept.hangUp

theorem Call.holders_dropWork (call : Call) (holder : Holder) :
    (call.dropWork holder).holders = call.holders.erase holder :=
  Call.holders_mapIntake { call with holders := call.holders.erase holder } _

-- Whoever lets go of the work is not among its holders any more.
theorem Call.Kept.dropWork (kept : call.Kept holds attached) (holder : Holder)
    (still : ∀ w, Holder.worker w ≠ holder → holds w → holds' w) :
    (call.dropWork holder).Kept holds' attached where
  once := by rw [Call.holders_dropWork]; exact kept.once.erase _
  caller := by
    rw [Call.holders_dropWork, Call.phase_dropWork]
    exact fun mem => kept.caller (List.mem_of_mem_erase mem)
  worker w := by
    rw [Call.holders_dropWork]
    intro mem
    rcases kept.once.mem_erase_iff.mp mem with ⟨other, before⟩
    exact still w other (kept.worker w before)
  intake intake' hi' := by
    rw [Call.intake?_dropWork, Option.map_eq_some_iff] at hi'
    rcases hi' with ⟨intake, hi, rfl⟩
    rw [Call.holders_dropWork]
    exact (kept.intake intake hi).dropWork holder

-- A call that lets go of its work can go on to any phase.
theorem Call.Kept.leave (kept : call.Kept holds attached) (phase : Phase) :
    (({ call with phase := phase } : Call).dropWork .caller).Kept holds attached where
  once := by rw [Call.holders_dropWork]; exact kept.once.erase _
  caller := by
    rw [Call.holders_dropWork]
    exact fun mem => absurd mem kept.once.not_mem_erase
  worker w := by
    rw [Call.holders_dropWork]
    exact fun mem => kept.worker w (List.mem_of_mem_erase mem)
  intake intake' hi' := by
    rw [Call.intake?_dropWork, Option.map_eq_some_iff] at hi'
    rcases hi' with ⟨intake, hi, rfl⟩
    rw [Call.holders_dropWork]
    exact (kept.intake intake hi).dropWork .caller

theorem Call.Kept.await (kept : call.Kept holds attached) : call.await.Kept holds attached :=
  (kept.leave .waiting).mapIntake (fun _ => id) fun _ _ kept =>
    kept.shrink (.refl _) (fun _ _ => by simp) (fun _ => id) (fun _ _ => id) rfl kept.fits

theorem Call.Kept.refuse (kept : call.Kept holds attached) (w : WorkerId) :
    (call.refuse w).Kept holds attached := by
  have hungUp : (call.mapChannel Channel.hangUp).Kept holds attached :=
    kept.mapIntake (fun _ => id) fun _ _ => Intake.Kept.hangUp
  -- It makes no difference whether the receiver or the phase goes first.
  have same : call.finishWith (.refused ⟨w⟩) =
      { call.mapChannel Channel.hangUp with phase := .refused ⟨w⟩ } := by
    rcases call with ⟨_, purpose, _, _, _, _, _⟩
    cases purpose <;> rfl
  rw [Call.refuse, same]
  exact (hungUp.leave _).mapIntake (fun _ => id) fun _ _ kept =>
    kept.shrink List.erase_sublist (fun _ => id) (fun _ => id) (fun _ _ => id) rfl kept.fits

-- A worker that is given the work becomes one of its holders.
theorem Call.Kept.give (kept : call.Kept holds attached) (before : ¬ holds w)
    (still : ∀ v, holds v → holds' v) (now : holds' w) :
    (call.give w).Kept holds' attached where
  once := List.nodup_cons.mpr ⟨fun mem => before (kept.worker w mem), kept.once⟩
  caller := fun _ => ⟨w + 1, rfl⟩
  worker v h := by
    rcases List.mem_cons.mp h with same | mem
    · cases same
      exact now
    · exact still v (kept.worker v mem)
  intake intake hi := (kept.intake intake hi).shrink (.refl _) (fun _ => id)
    (fun _ _ => List.cons_ne_nil _ _) (fun _ _ => id) rfl (kept.intake intake hi).fits

theorem Call.Kept.noteRun {report : Report} (kept : call.Kept holds attached)
    (still : ∀ v, holds v → holds' v) (before : ¬ attached w)
    (still' : ∀ v, attached v → attached' v) (now : attached' w) :
    (call.noteRun w report).Kept holds' attached' := by
  have noted : ({ call with reports := call.reports ++ [(w, report)] } : Call).Kept
      holds attached := ⟨kept.once, kept.caller, kept.worker, kept.intake⟩
  exact noted.mapIntake still fun _ _ kept => kept.attach before still' now

-- Tickets are no reason to hold anything.
theorem Call.Kept.resolve {t : Ticket} (kept : call.Kept holds attached) (w : WorkerId) :
    (call.resolve w t).Kept holds attached :=
  ⟨kept.once, kept.caller, kept.worker, kept.intake⟩

end Calls

section Steps

variable {p p' q : Pool} {a : Action} {c d : CallId} {w : WorkerId} {worker : Worker}
  {call call' : Call}

-- What has to be shown of an action that changes one call, and that may change a worker.
theorem Custody.kept_of_modifyCall {change : Call → Call} (cus : p.Custody)
    (hc' : (q.modifyCall d change).calls[c]? = some call') (calls : q.calls = p.calls)
    (other : d ≠ c → ∀ w, (p.Holds c w → q.Holds c w) ∧ (p.Attached c w → q.Attached c w))
    (changed : ∀ call, p.calls[d]? = some call → call.Kept (p.Holds d) (p.Attached d) →
      (change call).Kept (q.Holds d) (q.Attached d)) :
    call'.Kept ((q.modifyCall d change).Holds c) ((q.modifyCall d change).Attached c) := by
  rcases of_modifyCall hc' with ⟨call, hc, same⟩
  rw [calls] at hc
  rcases same with ⟨rfl, rfl⟩ | ⟨hne, rfl⟩
  · exact changed call hc (cus d call hc)
  · exact (cus c call' hc).mono (fun w => (other hne w).1) fun w => (other hne w).2

-- What has to be shown of an action that changes a worker and no call.
theorem Custody.kept_of_modifyWorker {change : Worker → Worker} (cus : p.Custody)
    (hc : p.calls[c]? = some call) (hw : p.workers[w]? = some worker)
    (held : c ∈ worker.held → c ∈ (change worker).held)
    (busy : worker.activity.attached? = some c → (change worker).activity.attached? = some c) :
    call.Kept ((p.modifyWorker w change).Holds c) ((p.modifyWorker w change).Attached c) :=
  (cus c call hc).mono (fun _ => Holds.of_modifyWorker hw held)
    fun _ => Attached.of_modifyWorker hw busy

-- The work of a call that is about to be put on a queue is not held by the owner of it.
theorem Accounts.not_holds_of_submitting (acc : Accounts p) (hc : p.calls[c]? = some call)
    (phase : call.phase = .submitting w) : ¬ p.Holds c w := by
  rintro ⟨worker, hw, held⟩
  have pending := (acc.owes w worker c call hw hc).mp (Worker.held_subset_owed held)
  have size := (acc.given c call hc).1
  simp only [Call.given, phase] at size
  rw [← size] at pending
  simp at pending

-- A call that has just been made holds its work, and its closer and the work have senders.
theorem kept_of_begins {holds attached : WorkerId → Prop} (begins : a.Begins call) :
    call.Kept holds attached := by
  cases begins with
  | @list capacity kind cancelled channel created =>
      refine ⟨by simp [Call.start], fun _ => ⟨0, rfl⟩, by simp [Call.start], fun intake hi => ?_⟩
      cases hi
      unfold Channel.create? at created
      split at created
      · rename_i allowed
        cases created
        constructor <;> simp [Intake.start, Channel.attach, Call.start, allowed.1]
      · cases created
  | delete | process =>
      refine ⟨by simp [Call.start], fun _ => ⟨0, rfl⟩, by simp [Call.start], fun intake hi => ?_⟩
      cases hi

/-- Every change of a pool keeps custody. -/
theorem Change.custody (change : Change p a p') (acc : Accounts p) (cus : p.Custody) :
    p'.Custody := by
  intro c call' hc'
  cases change with
  | dispatch hv alive =>
      exact cus.kept_of_modifyWorker hc' hv Worker.held_enqueue id
  | begin begins =>
      rw [Pool.begin, Array.getElem?_push] at hc'
      split at hc'
      · cases hc'
        exact kept_of_begins begins
      · exact cus c call' hc'
  | cancel =>
      refine cus.kept_of_modifyCall hc' rfl (fun _ _ => ⟨id, id⟩) fun call _ kept => ?_
      exact ⟨kept.once, kept.caller, kept.worker, kept.intake⟩
  | drop =>
      refine cus.kept_of_modifyCall hc' rfl (fun _ _ => ⟨id, id⟩) fun call _ kept => ?_
      by_cases waiting : call.phase.isWaiting = true
      · rw [if_pos waiting]
        exact kept.finishWith _ fun w => by rw [isWaiting_iff.mp waiting]; simp
      · rw [if_neg waiting]
        exact kept
  | openGate => exact cus c call' hc'
  | @give d call v worker hd phase hv alive =>
      have holds (w : WorkerId) : p.Holds c w → (p.enqueue v (.work d call.work)).Holds c w :=
        Holds.of_modifyWorker hv Worker.held_enqueue
      refine cus.kept_of_modifyCall hc' rfl (fun _ w => ⟨holds w, ?_⟩) fun other ho kept => ?_
      · exact Attached.of_modifyWorker hv id
      · cases hd.symm.trans ho
        refine (kept.give (acc.not_holds_of_submitting hd phase) (fun w => ?_) ?_).mono
          (fun _ => id) fun w => Attached.of_modifyWorker hv id
        · exact Holds.of_modifyWorker hv Worker.held_enqueue
        · refine ⟨_, (getElem?_modifyWorker p v _ v).trans (by rw [if_pos rfl, hv]; rfl), ?_⟩
          simp [Worker.held]
  | refuse =>
      exact cus.kept_of_modifyCall hc' rfl (fun _ _ => ⟨id, id⟩) fun _ _ kept => kept.refuse _
  | await =>
      exact cus.kept_of_modifyCall hc' rfl (fun _ _ => ⟨id, id⟩) fun _ _ kept => kept.await
  | merge hv idle queue =>
      exact cus.kept_of_modifyWorker hc' hv
        (fun held => by simpa [Worker.held, queue] using held) id
  | @run v worker d job rest shard report handoff hv idle queue ran =>
      -- The work moves from the queue of the worker into its hands.
      have held (c : CallId) :
          c ∈ worker.held → c ∈ Worker.held ⟨shard, rest, .holding d handoff⟩ := by
        simp [Worker.held, idle, queue, Activity.held?]
      have busy (c : CallId) : worker.activity.attached? ≠ some c := by
        simp [idle, Activity.attached?]
      refine cus.kept_of_modifyCall hc' rfl (fun _ w => ⟨?_, ?_⟩) fun call hd kept => ?_
      · exact Holds.of_modifyWorker hv (held c)
      · exact Attached.of_modifyWorker hv fun same => absurd same (busy c)
      · refine kept.noteRun (fun w => Holds.of_modifyWorker hv (held d))
          (not_attached_of_idle hv idle) (fun w => ?_) ?_
        · exact Attached.of_modifyWorker hv fun same => absurd same (busy d)
        · exact ⟨_, (getElem?_modifyWorker p v _ v).trans (by rw [if_pos rfl, hv]; rfl), rfl⟩
  | @die v worker d job rest hv idle queue failed =>
      -- The worker that dies held what was on its queue, and is in no hand-off.
      have attached (c : CallId) (w : WorkerId) (busy : p.Attached c w) : v ≠ w := by
        rintro rfl
        exact not_attached_of_idle hv idle busy
      rcases of_bury hc' with ⟨call, hc, ⟨lost, rfl⟩ | ⟨kept, rfl⟩⟩
      · refine (((cus c call hc).resolve v).dropWork (.worker v) fun w other => ?_).mono
          (fun _ => id) fun w busy => Attached.of_ne (attached c w busy) busy
        exact Holds.of_ne fun same => other (congrArg Holder.worker same.symm)
      · refine (cus c call' hc).mono (fun w holds => Holds.of_ne (fun same => ?_) holds)
          fun w busy => Attached.of_ne (attached c w busy) busy
        subst same
        rcases holds with ⟨other, ho, held⟩
        cases hv.symm.trans ho
        simp only [Worker.held, idle, Activity.held?, Option.toList_none, List.nil_append] at held
        exact kept held
  | @dropWork v worker d handoff hv activity =>
      have busy (c : CallId) (w : WorkerId) :
          p.Attached c w → (p.setActivity v (.handing d handoff)).Attached c w :=
        Attached.of_modifyWorker hv (by simp [activity, Activity.attached?])
      refine cus.kept_of_modifyCall hc' rfl (fun hne w => ⟨?_, busy c w⟩) fun call hd kept => ?_
      · refine Holds.of_modifyWorker hv fun held => ?_
        simpa [Worker.held, activity, Activity.held?, Ne.symm hne] using held
      · refine (kept.dropWork (.worker v) fun w other => ?_).mono (fun _ => id) (busy d)
        exact Holds.of_ne fun same => other (congrArg Holder.worker same.symm)
  | passGate hv activity =>
      exact cus.kept_of_modifyWorker hc' hv (by simp [Worker.held, activity, Activity.held?])
        (by simp [activity, Activity.attached?])
  | discard hv activity =>
      exact cus.kept_of_modifyWorker hc' hv (by simp [Worker.held, activity, Activity.held?])
        (by simp [activity, Activity.attached?])
  | forgo hv activity =>
      exact cus.kept_of_modifyWorker hc' hv (by simp [Worker.held, activity, Activity.held?])
        (by simp [activity, Activity.attached?])
  | @push v worker d text call intake hv activity hd hi listening room =>
      have held (c : CallId) (w : WorkerId) :
          p.Holds c w → (p.setActivity v (.handing d .done)).Holds c w :=
        Holds.of_modifyWorker hv (by simp [Worker.held, activity, Activity.held?])
      have busy (c : CallId) (w : WorkerId) :
          p.Attached c w → (p.setActivity v (.handing d .done)).Attached c w :=
        Attached.of_modifyWorker hv (by simp [activity, Activity.attached?])
      refine cus.kept_of_modifyCall hc' rfl (fun _ w => ⟨held c w, busy c w⟩)
        fun other ho kept => ?_
      refine kept.mapIntake (held d) fun same hs kept => ?_
      cases hd.symm.trans ho
      cases hi.symm.trans hs
      refine kept.shrink (.refl _) (fun _ => id) (fun _ => id) (fun w _ => busy d w) rfl ?_
      simpa [Channel.push, Channel.hasRoom, Nat.succ_le_iff] using room
  | @finish v worker d hv activity =>
      have held (c : CallId) (w : WorkerId) :
          p.Holds c w → (p.setActivity v (.signalling d)).Holds c w :=
        Holds.of_modifyWorker hv (by simp [Worker.held, activity, Activity.held?])
      refine cus.kept_of_modifyCall hc' rfl (fun hne w => ⟨held c w, ?_⟩) fun call hd kept => ?_
      · refine Attached.of_modifyWorker hv fun busy => ?_
        rw [activity, Activity.attached?, Option.some.injEq] at busy
        exact absurd busy hne
      · refine kept.mapIntake (held d) fun intake hi kept => ?_
        refine kept.shrink List.erase_sublist (fun _ => id) (fun _ => id) (fun w mem => ?_) rfl
          kept.fits
        -- The sender of this worker is gone, and the other workers are where they were.
        refine Attached.of_ne fun same => ?_
        subst same
        exact kept.notMem_release _ mem
  | @signal v worker d hv activity =>
      have held (c : CallId) (w : WorkerId) :
          p.Holds c w → (p.setActivity v .idle).Holds c w :=
        Holds.of_modifyWorker hv (by simp [Worker.held, activity, Activity.held?])
      have busy (c : CallId) (w : WorkerId) :
          p.Attached c w → (p.setActivity v .idle).Attached c w :=
        Attached.of_modifyWorker hv (by simp [activity, Activity.attached?])
      exact cus.kept_of_modifyCall hc' rfl (fun _ w => ⟨held c w, busy c w⟩) fun call hd kept =>
        (kept.resolve v).mono (held d) (busy d)
  | letGo hd hi closer resolved =>
      refine cus.kept_of_modifyCall hc' rfl (fun _ _ => ⟨id, id⟩) fun call _ kept => ?_
      exact kept.mapIntake (fun _ => id) fun intake _ kept => kept.shrink List.erase_sublist
        (fun mem => absurd mem (kept.notMem_release .closer)) (fun _ => id) (fun _ _ => id) rfl
        kept.fits
  | @receive d call intake part rest hd hi phase parts =>
      refine cus.kept_of_modifyCall hc' rfl (fun _ _ => ⟨id, id⟩) fun other ho kept => ?_
      refine kept.mapIntake (fun _ => id) fun same hs kept => ?_
      cases hd.symm.trans ho
      cases hi.symm.trans hs
      refine kept.shrink (.refl _) (fun _ => id) (fun _ => id) (fun _ _ => id) rfl ?_
      have fits := kept.fits
      rw [parts] at fits
      exact Nat.le_of_succ_le fits
  | conclude hd phase conclusion =>
      refine cus.kept_of_modifyCall hc' rfl (fun _ _ => ⟨id, id⟩) fun other ho kept => ?_
      cases hd.symm.trans ho
      exact kept.finishWith _ fun w => by rw [phase]; simp
  | desist hd phase cancelled soFar =>
      refine cus.kept_of_modifyCall hc' rfl (fun _ _ => ⟨id, id⟩) fun other ho kept => ?_
      cases hd.symm.trans ho
      exact kept.finishWith _ fun w => by rw [phase]; simp

/-- Everything that is held in a state of a run is held for a reason. -/
theorem Run.custody {start : Pool} {h : List Moment} (run : Run start h p)
    (fresh : IsFresh start) : p.Custody := by
  induction run with
  | start =>
      intro c call hc
      simp [fresh.calls] at hc
  | next run act ih => exact (change_of_act? act).custody (Run.accounts run fresh) ih

end Steps

end Pool

end ShardConsole
