import ShardConsole.Proofs.Pool.Queues

/-!
# Calls in a Run

What becomes of one call when something happens to the pool.

`CallChange` is the view that a single call has of a change: the ways in which an action
can concern it, with the state of the call afterwards, and `stay` for every action that
does not. That an action leaves a call alone has to be said about the history as well,
which is what `Moment.Avoids` is for: nothing of the call is sent, run, handed over,
taken, signalled or lost at that moment.

An invariant of calls is then a case distinction over `CallChange`, without a word about
where in the pool the call stands.

## Main definitions

* `Moment.signalled`: The call that gets a completion signal at a moment.
* `Moment.lost`: The calls that lose a ticket at a moment.
* `Moment.Avoids`: A moment that does not concern a call.
* `CallChange`: What becomes of a call at a moment.

## Theorems

* `Change.callChange`: A change of the pool is one of these for every call.
-/

namespace ShardConsole

namespace Pool

/-- Whether a worker dies of its next message. -/
def Worker.isDoomed (w : WorkerId) (worker : Worker) : Bool :=
  match worker.queue with
  | .work _ job :: _ =>
    match job.invoke w worker.shard with
    | .failed => true
    | .ran _ _ _ => false
  | _ => false

/-- The call that gets the completion signal of a worker at a moment. -/
def Moment.signalled (w : WorkerId) (m : Moment) : List CallId :=
  match m.action with
  | .step (.signal other) =>
    if other = w then ((m.before.workers[w]?.map Worker.activity).bind Activity.call?).toList
    else []
  | _ => []

/-- The calls that lose the ticket of a worker at a moment. -/
def Moment.lost (w : WorkerId) (m : Moment) : List CallId :=
  match m.action with
  | .step (.take other) =>
    match m.before.workers[w]? with
    | some worker => if other = w ∧ worker.isDoomed w = true then callsOf worker.queue else []
    | none => []
  | _ => []

/-- Nothing happens to a call at a moment. -/
structure Moment.Avoids (m : Moment) (c : CallId) : Prop where
  sent : ∀ w, c ∉ callsOf (m.sent w)
  met : m.met c = []
  handed : m.handed c = []
  received : m.received c = []
  signalled : ∀ w, c ∉ m.signalled w
  lost : ∀ w, c ∉ m.lost w

/-- What becomes of a call at a moment. -/
inductive CallChange (p : Pool) (c : CallId) (call : Call) : Action → Call → Prop
  | stay {a : Action} (avoids : Moment.Avoids ⟨p, a⟩ c) : CallChange p c call a call
  | cancel : CallChange p c call (.cancel c) { call with cancelled := true }
  | drop (phase : call.phase = .waiting) :
      CallChange p c call (.drop c) (call.finishWith .dropped)
  | give {w : WorkerId} (phase : call.phase = .submitting w) (inside : w < p.size)
      (sent : ∀ v, Moment.sent v ⟨p, .step (.submit c)⟩ =
        if w = v then [.work c call.work] else []) :
      CallChange p c call (.step (.submit c)) (call.give w)
  | refuse {w : WorkerId} {worker : Worker} (phase : call.phase = .submitting w)
      (hw : p.workers[w]? = some worker) (dead : worker.isAlive = false)
      (sent : ∀ v, Moment.sent v ⟨p, .step (.submit c)⟩ = []) :
      CallChange p c call (.step (.submit c)) (call.refuse w)
  | await {w : WorkerId} (phase : call.phase = .submitting w) (outside : p.size ≤ w)
      (sent : ∀ v, Moment.sent v ⟨p, .step (.submit c)⟩ = []) :
      CallChange p c call (.step (.submit c)) call.await
  | run {w : WorkerId} {worker : Worker} {job : Work} {rest : List Message} {shard : Shard}
      {report : Report} {handoff : Handoff}
      (hw : p.workers[w]? = some worker) (idle : worker.activity = .idle)
      (queue : worker.queue = .work c job :: rest)
      (ran : job.invoke w worker.shard = .ran shard report handoff) :
      CallChange p c call (.step (.take w)) (call.noteRun w report)
  | lose {w : WorkerId} {worker : Worker} {d : CallId} {job : Work} {rest : List Message}
      (hw : p.workers[w]? = some worker) (idle : worker.activity = .idle)
      (queue : worker.queue = .work d job :: rest)
      (failed : job.invoke w worker.shard = .failed) (owed : c ∈ callsOf worker.queue) :
      CallChange p c call (.step (.take w)) (call.lose w)
  | dropWork {w : WorkerId} :
      CallChange p c call (.step (.dropWork w)) (call.dropWork (.worker w))
  | push {w : WorkerId} {worker : Worker} {text : String} {intake : Intake}
      (hw : p.workers[w]? = some worker) (activity : worker.activity = .handing c (.part text))
      (hi : call.intake? = some intake) (listening : intake.channel.listening = true)
      (room : intake.channel.hasRoom = true) :
      CallChange p c call (.step (.handOver w)) (call.mapChannel (·.push text))
  | finish {w : WorkerId} {worker : Worker} (hw : p.workers[w]? = some worker)
      (activity : worker.activity = .handing c .done) :
      CallChange p c call (.step (.finish w)) (call.mapChannel (·.release (.handoff w)))
  | signal {w : WorkerId} {worker : Worker} (hw : p.workers[w]? = some worker)
      (activity : worker.activity = .signalling c) :
      CallChange p c call (.step (.signal w)) (call.resolve w .done)
  | letGo {intake : Intake} (hi : call.intake? = some intake)
      (closer : intake.closer = .waiting) (resolved : call.isResolved = true) :
      CallChange p c call (.step (.letGo c)) (call.mapIntake fun intake =>
        { intake with channel := intake.channel.release .closer, closer := .ended })
  | receive {intake : Intake} {part : String} {rest : List String}
      (hi : call.intake? = some intake) (phase : call.phase = .waiting)
      (parts : intake.channel.parts = part :: rest) :
      CallChange p c call (.step (.receive c)) (call.mapIntake fun intake =>
        { intake with
          channel := { intake.channel with parts := rest }
          output := intake.output ++ part })
  | conclude {result : Except Unavailable Reply} (phase : call.phase = .waiting)
      (conclusion : call.conclusion? = some result) :
      CallChange p c call (.step (.conclude c)) (call.finishWith (.returned result))
  | desist {reply : Reply} (phase : call.phase = .waiting) (cancelled : call.cancelled = true)
      (soFar : call.soFar? = some reply) :
      CallChange p c call (.step (.desist c)) (call.finishWith (.returned (.ok reply)))

-- What becomes of the fields of a call is seen by opening its changes.
attribute [simp] Call.mapChannel Call.resolve Call.finishWith Call.give Call.refuse Call.await
  Call.noteRun Call.lose

section Avoiding

variable {p : Pool} {c d : CallId} {v w : WorkerId} {worker : Worker} {call : Call}

-- Actions of which nothing shows in a history leave every call alone.
theorem avoids_of_silent {a : Action}
    (sent : ∀ w, Moment.sent w ⟨p, a⟩ = []) (met : Moment.met c ⟨p, a⟩ = [])
    (handed : Moment.handed c ⟨p, a⟩ = []) (received : Moment.received c ⟨p, a⟩ = [])
    (signalled : ∀ w, Moment.signalled w ⟨p, a⟩ = [])
    (lost : ∀ w, Moment.lost w ⟨p, a⟩ = []) : Moment.Avoids ⟨p, a⟩ c where
  sent w := by rw [sent w]; exact List.not_mem_nil
  met := met
  handed := handed
  received := received
  signalled w := by rw [signalled w]; exact List.not_mem_nil
  lost w := by rw [lost w]; exact List.not_mem_nil

theorem met_of_metric {m : Metric} {rest : List Message} (hw : p.workers[w]? = some worker)
    (queue : worker.queue = .metric m :: rest) : Moment.met c ⟨p, .step (.take w)⟩ = [] := by
  simp [Moment.met, hw, queue, Message.call?]

theorem met_of_work {job : Work} {rest : List Message} (hw : p.workers[w]? = some worker)
    (queue : worker.queue = .work d job :: rest) :
    Moment.met c ⟨p, .step (.take w)⟩ = if d = c then [(w, worker.shard)] else [] := by
  simp [Moment.met, hw, queue, Message.call?]

-- A worker that runs the work of a call has it at the front of its queue.
theorem queue_of_met {a : Action} {shard : Shard} (met : (w, shard) ∈ Moment.met c ⟨p, a⟩) :
    a = .step (.take w) ∧ ∃ worker job rest, p.workers[w]? = some worker ∧
      worker.shard = shard ∧ worker.queue = .work c job :: rest := by
  unfold Moment.met at met
  split at met
  · rename_i v action
    have action : a = .step (.take v) := action
    split at met
    · rename_i worker hv
      split at met
      · rename_i head
        rw [List.mem_singleton, Prod.mk.injEq] at met
        rcases met with ⟨rfl, rfl⟩
        refine ⟨action, worker, ?_⟩
        cases queue : worker.queue with
        | nil => simp [queue] at head
        | cons message rest =>
            cases message with
            | metric => simp [queue, Message.call?] at head
            | work d job =>
                simp only [queue, List.head?_cons, Option.bind_some, Message.call?,
                  Option.some.injEq] at head
                subst head
                exact ⟨job, rest, hv, rfl, rfl⟩
      · cases met
    · cases met
  · cases met

theorem handed_of_passGate {gate : Gate} (hw : p.workers[w]? = some worker)
    (activity : worker.activity = .handing d (.gate gate)) :
    Moment.handed c ⟨p, .step (.handOver w)⟩ = [] := by
  simp only [Moment.handed, hw, activity, Option.map_some]

theorem handed_of_discard {text : String} (hw : p.workers[w]? = some worker)
    (activity : worker.activity = .handing d (.part text)) (hd : p.calls[d]? = some call)
    (unheard : ∀ intake, call.intake? = some intake → intake.channel.listening = false) :
    Moment.handed c ⟨p, .step (.handOver w)⟩ = [] := by
  simp only [Moment.handed, hw, activity, Option.map_some]
  split
  · rename_i _ intake same hi
    cases same
    -- A part that nobody hears is not noted as handed over.
    refine if_neg fun guard => ?_
    rcases guard with ⟨rfl, listening⟩
    rw [hd, Option.bind_some] at hi
    exact absurd (listening.symm.trans (unheard intake hi)) Bool.noConfusion
  · rfl

theorem handed_of_push {text : String} {intake : Intake} (hw : p.workers[w]? = some worker)
    (activity : worker.activity = .handing d (.part text)) (hd : p.calls[d]? = some call)
    (hi : call.intake? = some intake) (listening : intake.channel.listening = true) :
    Moment.handed c ⟨p, .step (.handOver w)⟩ = if d = c then [(w, text)] else [] := by
  by_cases same : d = c
  · subst same
    simp [Moment.handed, hw, activity, hd, hi, listening]
  · simp only [Moment.handed, hw, activity, Option.map_some, if_neg same]
    split
    · rename_i same' _
      cases same'
      exact if_neg fun guard => same guard.1
    · rfl

-- A worker that takes a message leaves a call alone if the message is not its work and the
-- worker does not die of it with the work of the call on its queue.
theorem avoids_take (hw : p.workers[w]? = some worker)
    (other : worker.queue.head?.bind Message.call? ≠ some c)
    (lives : worker.isDoomed w = true → c ∉ callsOf worker.queue) :
    Moment.Avoids ⟨p, .step (.take w)⟩ c where
  sent v := List.not_mem_nil
  met := by simp only [Moment.met, hw, if_neg other]
  handed := rfl
  received := rfl
  signalled v := List.not_mem_nil
  lost v := by
    by_cases hv : w = v
    · subst hv
      simp only [Moment.lost, hw, true_and]
      by_cases doomed : worker.isDoomed w = true
      · rw [if_pos doomed]
        exact lives doomed
      · rw [if_neg doomed]
        exact List.not_mem_nil
    · simp only [Moment.lost, hv, false_and, if_false]
      split <;> exact List.not_mem_nil

-- A worker that hands something over leaves a call alone if that does not go into the
-- channel of the call.
theorem avoids_handOver (handed : Moment.handed c ⟨p, .step (.handOver w)⟩ = []) :
    Moment.Avoids ⟨p, .step (.handOver w)⟩ c :=
  avoids_of_silent (fun _ => rfl) rfl handed rfl (fun _ => rfl) (fun _ => rfl)

end Avoiding

section Lookup

variable {p p' : Pool} {a : Action} {c d : CallId} {call' : Call}

-- A call that is found after one was changed was there before, and is another one only if
-- it is the one that was changed.
theorem of_modifyCall {change : Call → Call}
    (h : (p.modifyCall d change).calls[c]? = some call') :
    ∃ call, p.calls[c]? = some call ∧
      ((d = c ∧ call' = change call) ∨ (d ≠ c ∧ call' = call)) := by
  rw [getElem?_modifyCall] at h
  by_cases hd : d = c
  · rw [if_pos hd] at h
    rcases Option.map_eq_some_iff.mp h with ⟨call, hc, rfl⟩
    exact ⟨call, hc, Or.inl ⟨hd, rfl⟩⟩
  · rw [if_neg hd] at h
    exact ⟨call', h, Or.inr ⟨hd, rfl⟩⟩

theorem getElem?_modifyCall_of_ne {change : Call → Call} (other : d ≠ c) :
    (p.modifyCall c change).calls[d]? = p.calls[d]? := by
  rw [getElem?_modifyCall, if_neg (Ne.symm other)]

-- Two changes of a call lead to the same pool if they make the same of the call.
theorem modifyCall_congr {f g : Call → Call}
    (same : ∀ call, p.calls[c]? = some call → f call = g call) :
    p.modifyCall c f = p.modifyCall c g := by
  have calls : p.calls.modify c f = p.calls.modify c g := by
    refine Array.ext_getElem? fun i => ?_
    rw [Array.getElem?_modify, Array.getElem?_modify]
    by_cases hi : c = i
    · subst hi
      rw [if_pos rfl, if_pos rfl, Option.map_congr same]
    · rw [if_neg hi, if_neg hi]
  rw [modifyCall, modifyCall, calls]

-- A call that is not there is not changed, nor is one that stays as it is.
theorem modifyCall_eq_self {change : Call → Call}
    (same : ∀ call, p.calls[c]? = some call → change call = call) :
    p.modifyCall c change = p := by
  have calls : p.calls.modify c change = p.calls := by
    refine Array.ext_getElem? fun i => ?_
    rw [Array.getElem?_modify]
    by_cases hi : c = i
    · subst hi
      rw [if_pos rfl, Option.map_congr same, Option.map_id']
    · rw [if_neg hi]
  rw [modifyCall, calls]

theorem modifyCall_modifyCall (f g : Call → Call) :
    (p.modifyCall c f).modifyCall c g = p.modifyCall c (g ∘ f) := by
  have calls : (p.calls.modify c f).modify c g = p.calls.modify c (g ∘ f) := by
    refine Array.ext_getElem? fun i => ?_
    simp only [Array.getElem?_modify]
    by_cases hi : c = i
    · simp only [if_pos hi, Option.map_map]
    · simp only [if_neg hi]
  rw [modifyCall, modifyCall, modifyCall, calls]

-- A call that is found after a worker has died was there before, and is another one only if
-- it has lost its ticket.
theorem of_bury {w : WorkerId} {lost : List Message}
    (h : (p.bury w lost).calls[c]? = some call') :
    ∃ call, p.calls[c]? = some call ∧
      ((c ∈ callsOf lost ∧ call' = call.lose w) ∨ (c ∉ callsOf lost ∧ call' = call)) := by
  simp only [bury, Array.getElem?_mapIdx, calls_modifyWorker, Option.map_eq_some_iff] at h
  rcases h with ⟨call, hc, rfl⟩
  by_cases hl : c ∈ callsOf lost
  · exact ⟨call, hc, Or.inl ⟨hl, if_pos hl⟩⟩
  · exact ⟨call, hc, Or.inr ⟨hl, if_neg hl⟩⟩

-- What an action that changes at most one call is to every call.
theorem callChange_of_modifyCall {change : Call → Call}
    (h : (p.modifyCall d change).calls[c]? = some call')
    (avoids : d ≠ c → Moment.Avoids ⟨p, a⟩ c)
    (changed : ∀ call, p.calls[d]? = some call → d = c → CallChange p d call a (change call)) :
    ∃ call, p.calls[c]? = some call ∧ CallChange p c call a call' := by
  rcases of_modifyCall h with ⟨call, hc, ⟨rfl, rfl⟩ | ⟨hd, rfl⟩⟩
  · exact ⟨call, hc, changed call hc rfl⟩
  · exact ⟨call', hc, .stay (avoids hd)⟩

/-- A change of the pool makes a new call, or it is one of the changes of calls. -/
theorem Change.callChange (change : Change p a p') (h : p'.calls[c]? = some call') :
    (c = p.calls.size ∧ a.Begins call') ∨
      ∃ call, p.calls[c]? = some call ∧ CallChange p c call a call' := by
  cases change with
  | begin begins =>
      -- The call that is made is the last one, and the others stay.
      rw [Pool.begin, Array.getElem?_push] at h
      by_cases hc : c = p.calls.size
      · rw [if_pos hc, Option.some.injEq] at h
        exact Or.inl ⟨hc, h ▸ begins⟩
      · rw [if_neg hc] at h
        refine Or.inr ⟨call', h, .stay ?_⟩
        cases begins <;>
          exact avoids_of_silent (fun _ => rfl) rfl rfl rfl (fun _ => rfl) (fun _ => rfl)
  | dispatch =>
      refine Or.inr ⟨call', h, .stay ⟨fun w => ?_, rfl, rfl, rfl, ?_, ?_⟩⟩
      · simp only [Moment.sent]
        split <;> exact List.not_mem_nil
      · exact fun _ => List.not_mem_nil
      · exact fun _ => List.not_mem_nil
  | cancel =>
      refine Or.inr (callChange_of_modifyCall h (fun _ => ?_) fun call hc _ => .cancel)
      exact avoids_of_silent (fun _ => rfl) rfl rfl rfl (fun _ => rfl) (fun _ => rfl)
  | @drop d =>
      have silent : Moment.Avoids ⟨p, .drop d⟩ c :=
        avoids_of_silent (fun _ => rfl) rfl rfl rfl (fun _ => rfl) (fun _ => rfl)
      refine Or.inr (callChange_of_modifyCall h (fun _ => silent) fun call hc hd => ?_)
      -- Only a call whose caller waits can be abandoned.
      by_cases waiting : call.phase.isWaiting = true
      · rw [if_pos waiting]
        exact .drop (isWaiting_iff.mp waiting)
      · rw [if_neg waiting]
        exact .stay (hd ▸ silent)
  | openGate =>
      refine Or.inr ⟨call', h, .stay ?_⟩
      exact avoids_of_silent (fun _ => rfl) rfl rfl rfl (fun _ => rfl) (fun _ => rfl)
  | @give d call w worker hd phase hw alive =>
      have sent := sent_of_give hd phase hw alive
      refine Or.inr (callChange_of_modifyCall h (fun hne => ⟨fun v => ?_, rfl, rfl, rfl, ?_, ?_⟩)
        fun other hc _ => ?_)
      · rw [sent v]
        split
        · simpa using Ne.symm hne
        · exact List.not_mem_nil
      · exact fun _ => List.not_mem_nil
      · exact fun _ => List.not_mem_nil
      · cases hd.symm.trans hc
        exact .give phase (lt_size_of_worker hw) sent
  | @refuse d call w worker hd phase hw dead =>
      have sent := sent_of_refuse hd phase hw dead
      refine Or.inr (callChange_of_modifyCall h (fun _ => ?_) fun other hc _ => ?_)
      · exact avoids_of_silent sent rfl rfl rfl (fun _ => rfl) (fun _ => rfl)
      · cases hd.symm.trans hc
        exact .refuse phase hw dead sent
  | @await d call w hd phase hw =>
      have sent := sent_of_await hd phase hw
      refine Or.inr (callChange_of_modifyCall h (fun _ => ?_) fun other hc _ => ?_)
      · exact avoids_of_silent sent rfl rfl rfl (fun _ => rfl) (fun _ => rfl)
      · cases hd.symm.trans hc
        exact .await phase (Array.getElem?_eq_none_iff.mp hw) sent
  | @merge w worker m rest hw idle queue =>
      refine Or.inr ⟨call', h, .stay (avoids_take hw ?_ ?_)⟩
      · simp [queue, Message.call?]
      · simp [Worker.isDoomed, queue]
  | @run w worker d job rest shard report handoff hw idle queue ran =>
      refine Or.inr (callChange_of_modifyCall h (fun hne => avoids_take hw ?_ ?_)
        fun other hc _ => .run hw idle queue ran)
      · simpa [queue, Message.call?] using hne
      · simp [Worker.isDoomed, queue, ran]
  | @die w worker d job rest hw idle queue failed =>
      -- The death concerns every call whose work was on the queue, and no other one.
      rcases of_bury h with ⟨call, hc, ⟨hl, rfl⟩ | ⟨hl, rfl⟩⟩
      · exact Or.inr ⟨call, hc, .lose hw idle queue failed hl⟩
      · refine Or.inr ⟨call', hc, .stay (avoids_take hw ?_ fun _ => hl)⟩
        intro head
        apply hl
        rw [queue] at head ⊢
        simp only [List.head?_cons, Option.bind_some] at head
        rw [callsOf, List.filterMap_cons, head]
        exact List.mem_cons_self
  | dropWork =>
      refine Or.inr (callChange_of_modifyCall h (fun _ => ?_) fun call hc _ => .dropWork)
      exact avoids_of_silent (fun _ => rfl) rfl rfl rfl (fun _ => rfl) (fun _ => rfl)
  | passGate hw activity =>
      exact Or.inr ⟨call', h, .stay (avoids_handOver (handed_of_passGate hw activity))⟩
  | discard hw activity hd unheard =>
      exact Or.inr ⟨call', h, .stay (avoids_handOver (handed_of_discard hw activity hd unheard))⟩
  | @push w worker d text call intake hw activity hd hi listening room =>
      refine Or.inr (callChange_of_modifyCall h (fun hne => avoids_handOver ?_)
        fun other hc _ => ?_)
      · rw [handed_of_push hw activity hd hi listening, if_neg hne]
      · cases hd.symm.trans hc
        exact .push hw activity hi listening room
  | forgo =>
      refine Or.inr ⟨call', h, .stay ?_⟩
      exact avoids_of_silent (fun _ => rfl) rfl rfl rfl (fun _ => rfl) (fun _ => rfl)
  | @finish w worker d hw activity =>
      refine Or.inr (callChange_of_modifyCall h (fun _ => ?_) fun call hc _ => .finish hw activity)
      exact avoids_of_silent (fun _ => rfl) rfl rfl rfl (fun _ => rfl) (fun _ => rfl)
  | @signal w worker d hw activity =>
      refine Or.inr (callChange_of_modifyCall h
        (fun hne => ⟨?_, rfl, rfl, rfl, fun v => ?_, ?_⟩) fun call hc _ => .signal hw activity)
      · exact fun _ => List.not_mem_nil
      · simp only [Moment.signalled]
        split
        · rename_i hv
          subst hv
          simpa [hw, activity, Activity.call?] using Ne.symm hne
        · exact List.not_mem_nil
      · exact fun _ => List.not_mem_nil
  | letGo hd hi closer resolved =>
      refine Or.inr (callChange_of_modifyCall h (fun _ => ?_) fun other hc _ => ?_)
      · exact avoids_of_silent (fun _ => rfl) rfl rfl rfl (fun _ => rfl) (fun _ => rfl)
      · cases hd.symm.trans hc
        exact .letGo hi closer resolved
  | @receive d _ _ _ _ hd hi phase parts =>
      refine Or.inr (callChange_of_modifyCall h (fun hne => ?_) fun other hc _ => ?_)
      · refine avoids_of_silent (fun _ => rfl) rfl rfl ?_ (fun _ => rfl) (fun _ => rfl)
        simp only [Moment.received, if_neg hne]
      · cases hd.symm.trans hc
        exact .receive hi phase parts
  | conclude hd phase conclusion =>
      refine Or.inr (callChange_of_modifyCall h (fun _ => ?_) fun other hc _ => ?_)
      · exact avoids_of_silent (fun _ => rfl) rfl rfl rfl (fun _ => rfl) (fun _ => rfl)
      · cases hd.symm.trans hc
        exact .conclude phase conclusion
  | desist hd phase cancelled soFar =>
      refine Or.inr (callChange_of_modifyCall h (fun _ => ?_) fun other hc _ => ?_)
      · exact avoids_of_silent (fun _ => rfl) rfl rfl rfl (fun _ => rfl) (fun _ => rfl)
      · cases hd.symm.trans hc
        exact .desist phase cancelled soFar

end Lookup

end Pool

end ShardConsole
