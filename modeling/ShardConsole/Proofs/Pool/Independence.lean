import ShardConsole.Proofs.Pool.Origins

/-!
# Independence from Callers

What happens in a pool does not depend on whether the caller of a deletion has left.

A deletion has no channel, so a worker that works for it never looks for its caller. All that
tells a call whose caller waits from one whose caller has left is its phase, and apart from
the caller's own leaving nothing that can happen depends on that phase. So the same actions
are possible in both pools, and they lead to the same workers, the same gates and the same
other calls: `act?_inPhase` says so for one action, `perform?_inPhase` for any sequence.

For one action this is shown by going through its changes, in one direction only. The other
direction is the same statement once the call is put back into the phase in which it was.

## Main definitions

* `Action.ends`: The actions with which the caller of a call leaves.
* `Call.inPhase`: A call in another phase.

## Theorems

* `modifyCall_comm`: Two changes of calls that do not depend on each other.
* `Change.act?_inPhase`: What is possible stays possible.
* `act?_inPhase`, `perform?_inPhase`: What is possible, and what it leads to.
* `eq_inPhase_of_ends`: A caller that leaves changes nothing but the phase of its call.
-/

namespace ShardConsole

namespace Pool

/-- The actions with which the caller of a call leaves. -/
def Action.ends (c : CallId) : Action → Bool
  | .step (.conclude d) | .step (.desist d) | .drop d => d = c
  | _ => false

/-- The same call in another phase. -/
def Call.inPhase (phase : Phase) (call : Call) : Call :=
  { call with phase := phase }

section Commuting

variable {p : Pool} {c d : CallId} {w : WorkerId} {call : Call} {f g : Call → Call}
  {phase : Phase}

-- It makes no difference which of two calls is changed first, or which of two changes of one
-- call comes first if they do not depend on each other.
theorem modifyCall_comm (comm : d = c → ∀ call, g (f call) = f (g call)) :
    (p.modifyCall c f).modifyCall d g = (p.modifyCall d g).modifyCall c f := by
  have calls : (p.calls.modify c f).modify d g = (p.calls.modify d g).modify c f := by
    refine Array.ext_getElem? fun i => ?_
    simp only [Array.getElem?_modify]
    by_cases hd : d = i
    · by_cases hc : c = i
      · simp only [if_pos hd, if_pos hc, Option.map_map, Function.comp_def,
          comm (hd.trans hc.symm)]
      · simp only [if_pos hd, if_neg hc]
    · simp only [if_neg hd]
  rw [modifyCall, modifyCall, modifyCall, modifyCall, calls]

theorem Call.mapIntake_inPhase (call : Call) (change : Intake → Intake) :
    (call.inPhase phase).mapIntake change = (call.mapIntake change).inPhase phase := by
  rcases call with ⟨_, purpose, _, _, _, _, _⟩
  cases purpose <;> rfl

theorem Call.dropWork_inPhase (call : Call) (holder : Holder) :
    (call.inPhase phase).dropWork holder = (call.dropWork holder).inPhase phase :=
  Call.mapIntake_inPhase { call with holders := call.holders.erase holder } _

theorem Call.noteRun_inPhase (call : Call) (report : Report) :
    (call.inPhase phase).noteRun w report = (call.noteRun w report).inPhase phase :=
  Call.mapIntake_inPhase { call with reports := call.reports ++ [(w, report)] } _

theorem Call.lose_inPhase (call : Call) :
    (call.inPhase phase).lose w = (call.lose w).inPhase phase :=
  Call.dropWork_inPhase (call.resolve w .lost) _

theorem bury_modifyCall (lost : List Message)
    (comm : ∀ call : Call, (f call).lose w = f (call.lose w)) :
    (p.modifyCall c f).bury w lost = (p.bury w lost).modifyCall c f := by
  have calls : ((p.calls.modify c f).mapIdx fun d call =>
      if d ∈ callsOf lost then call.lose w else call) =
      (p.calls.mapIdx fun d call => if d ∈ callsOf lost then call.lose w else call).modify c f := by
    refine Array.ext_getElem? fun i => ?_
    simp only [Array.getElem?_modify, Array.getElem?_mapIdx]
    by_cases hc : c = i
    · simp only [if_pos hc, Option.map_map, Function.comp_def]
      by_cases gone : i ∈ callsOf lost
      · simp only [if_pos gone, comm]
      · simp only [if_neg gone]
    · rw [if_neg hc, if_neg hc]
  simp only [bury, modifyCall, modifyWorker, calls]

theorem begin_modifyCall (call : Call) (known : c < p.calls.size) :
    ((p.modifyCall c f).begin call).1 = ((p.begin call).1).modifyCall c f := by
  have calls : (p.calls.modify c f).push call = (p.calls.push call).modify c f := by
    refine Array.ext_getElem? fun i => ?_
    simp only [Array.getElem?_modify, Array.getElem?_push, Array.size_modify]
    by_cases last : i = p.calls.size
    · have other : c ≠ i := last ▸ Nat.ne_of_lt known
      rw [if_pos last, if_pos last, if_neg other]
    · rw [if_neg last, if_neg last]
  simp only [Pool.begin, modifyCall, calls]

end Commuting

section Staying

variable {p p' : Pool} {c d : CallId} {w : WorkerId} {call other : Call} {phase : Phase}
  {a : Action}

-- Whatever the phase of a call, a worker finds the same channel and the same token.
theorem exists_inPhase (phase : Phase) (c : CallId) (hd : p.calls[d]? = some other) :
    ∃ same, (p.modifyCall c (·.inPhase phase)).calls[d]? = some same ∧
      same.intake? = other.intake? ∧ same.cancelled = other.cancelled := by
  rw [getElem?_modifyCall]
  by_cases hc : c = d
  · exact ⟨other.inPhase phase, by rw [if_pos hc, hd]; rfl, rfl, rfl⟩
  · exact ⟨other, by rw [if_neg hc, hd], rfl, rfl⟩

/-- What is possible is still possible when the caller of a deletion has left, and it leads to
    the same pool but for the phase of that call. -/
theorem Change.act?_inPhase (change : Change p a p') (phase : Phase)
    (hc : p.calls[c]? = some call) (purpose : call.purpose = .count)
    (past : ∀ w, call.phase ≠ .submitting w) (stays : a.ends c = false) :
    (p.modifyCall c (·.inPhase phase)).act? a = some (p'.modifyCall c (·.inPhase phase)) := by
  have unheard : call.intake? = none := by rw [Call.intake?, purpose]
  cases change with
  | dispatch hw alive =>
      simp only [act?, dispatchTo, workers_modifyCall, hw, alive, if_true]
      rfl
  | begin begins =>
      have known := lt_size_of_call hc
      cases begins with
      | list created =>
          simp only [act?, beginList?, created, Option.map_some]
          rw [begin_modifyCall _ known]
      | delete => exact congrArg some (begin_modifyCall _ known)
      | process => exact congrArg some (begin_modifyCall _ known)
  | cancel => exact congrArg some (modifyCall_comm fun _ _ => rfl)
  | drop =>
      refine congrArg some (modifyCall_comm fun same => ?_)
      simp [Action.ends, same] at stays
  | openGate => rfl
  | @give d other v worker hd submitting hv alive =>
      have ne : d ≠ c := by
        rintro rfl
        cases hc.symm.trans hd
        exact past v submitting
      simp only [act?, step?, submit?, Option.bind_eq_bind, workers_modifyCall,
        getElem?_modifyCall_of_ne ne, hd, Option.bind_some, submitting, hv, alive, if_true]
      exact congrArg some (modifyCall_comm (p := p.enqueue v _) fun same => absurd same ne)
  | @refuse d other v worker hd submitting hv dead =>
      have ne : d ≠ c := by
        rintro rfl
        cases hc.symm.trans hd
        exact past v submitting
      simp only [act?, step?, submit?, Option.bind_eq_bind, workers_modifyCall,
        getElem?_modifyCall_of_ne ne, hd, Option.bind_some, submitting, hv, dead]
      exact congrArg some (modifyCall_comm fun same => absurd same ne)
  | @await d other v hd submitting hv =>
      have ne : d ≠ c := by
        rintro rfl
        cases hc.symm.trans hd
        exact past v submitting
      simp only [act?, step?, submit?, Option.bind_eq_bind, workers_modifyCall,
        getElem?_modifyCall_of_ne ne, hd, Option.bind_some, submitting, hv]
      exact congrArg some (modifyCall_comm fun same => absurd same ne)
  | @merge v worker m rest hv idle queue =>
      simp only [act?, step?, take?, Option.bind_eq_bind, workers_modifyCall, hv,
        Option.bind_some, idle, queue]
      rfl
  | @run v worker d job rest shard report handoff hv idle queue ran =>
      simp only [act?, step?, take?, Option.bind_eq_bind, workers_modifyCall, hv,
        Option.bind_some, idle, queue, ran]
      exact congrArg some (modifyCall_comm
        (p := p.modifyWorker v fun _ => ⟨shard, rest, .holding d handoff⟩) fun _ call =>
          call.noteRun_inPhase report)
  | @die v worker d job rest hv idle queue failed =>
      simp only [act?, step?, take?, Option.bind_eq_bind, workers_modifyCall, hv,
        Option.bind_some, idle, queue, failed]
      exact congrArg some (bury_modifyCall _ fun call => call.lose_inPhase)
  | @dropWork v worker d handoff hv activity =>
      simp only [act?, step?, dropWork?, Option.bind_eq_bind, workers_modifyCall, hv,
        Option.bind_some, activity]
      exact congrArg some (modifyCall_comm (p := p.setActivity v _) fun _ call =>
        call.dropWork_inPhase _)
  | @passGate v worker d gate hv activity isOpen =>
      have isOpen' : (p.modifyCall c (·.inPhase phase)).isOpen gate = true := isOpen
      simp only [act?, step?, handOver?, Option.bind_eq_bind, workers_modifyCall, hv,
        Option.bind_some, activity, isOpen', if_true]
      rfl
  | @discard v worker d text other hv activity hd unheard' =>
      -- The caller that has left is not one that a worker can hear.
      rcases exists_inPhase phase c hd with ⟨same, hs, channel, _⟩
      simp only [act?, step?, handOver?, Option.bind_eq_bind, workers_modifyCall, hv,
        Option.bind_some, activity, hs, channel]
      cases hi : other.intake? with
      | none => rfl
      | some intake =>
          simp only [unheard' intake hi, Bool.not_false, if_true]
          rfl
  | @push v worker d text other intake hv activity hd hi listening room =>
      rcases exists_inPhase phase c hd with ⟨same, hs, channel, _⟩
      simp only [act?, step?, handOver?, Option.bind_eq_bind, workers_modifyCall, hv,
        Option.bind_some, activity, hs, channel, hi, listening, room, Bool.not_true,
        Bool.false_eq_true, if_false, if_true]
      exact congrArg some (modifyCall_comm (p := p.setActivity v _) fun _ call =>
        call.mapIntake_inPhase _)
  | @forgo v worker d text other hv activity hd cancelled =>
      rcases exists_inPhase phase c hd with ⟨same, hs, _, token⟩
      simp only [act?, step?, forgo?, Option.bind_eq_bind, workers_modifyCall, hv,
        Option.bind_some, activity, hs, token, cancelled, if_true]
      rfl
  | @finish v worker d hv activity =>
      simp only [act?, step?, finish?, Option.bind_eq_bind, workers_modifyCall, hv,
        Option.bind_some, activity]
      exact congrArg some (modifyCall_comm (p := p.setActivity v _) fun _ call =>
        call.mapIntake_inPhase _)
  | @signal v worker d hv activity =>
      simp only [act?, step?, signal?, Option.bind_eq_bind, workers_modifyCall, hv,
        Option.bind_some, activity]
      exact congrArg some (modifyCall_comm (p := p.setActivity v _) fun _ _ => rfl)
  | @letGo d other intake hd hi closer resolved =>
      have ne : d ≠ c := by
        rintro rfl
        cases hc.symm.trans hd
        cases unheard.symm.trans hi
      simp only [act?, step?, letGo?, Option.bind_eq_bind, getElem?_modifyCall_of_ne ne, hd,
        Option.bind_some, hi, closer, resolved, and_self, if_true]
      exact congrArg some (modifyCall_comm fun same => absurd same ne)
  | @receive d other intake part rest hd hi waiting parts =>
      have ne : d ≠ c := by
        rintro rfl
        cases hc.symm.trans hd
        cases unheard.symm.trans hi
      simp only [act?, step?, receive?, Option.bind_eq_bind, getElem?_modifyCall_of_ne ne, hd,
        Option.bind_some, hi, waiting, parts]
      exact congrArg some (modifyCall_comm fun same => absurd same ne)
  | @conclude d other result hd waiting conclusion =>
      have ne : d ≠ c := fun same => by simp [Action.ends, same] at stays
      simp only [act?, step?, conclude?, Option.bind_eq_bind, getElem?_modifyCall_of_ne ne, hd,
        Option.bind_some, isWaiting_iff.mpr waiting, if_true, conclusion]
      exact congrArg some (modifyCall_comm fun same => absurd same ne)
  | @desist d other reply hd waiting cancelled soFar =>
      have ne : d ≠ c := fun same => by simp [Action.ends, same] at stays
      simp only [act?, step?, desist?, Option.bind_eq_bind, getElem?_modifyCall_of_ne ne, hd,
        Option.bind_some, isWaiting_iff.mpr waiting, cancelled, Bool.and_self, if_true, soFar]
      exact congrArg some (modifyCall_comm fun same => absurd same ne)

-- A call that does not submit any more does not begin again.
theorem CallChange.not_submitting {call' : Call} (change : CallChange p c call a call')
    (past : ∀ w, call.phase ≠ .submitting w) (w : WorkerId) : call'.phase ≠ .submitting w := by
  cases change with
  | give submitting => exact absurd submitting (past _)
  | refuse submitting => exact absurd submitting (past _)
  | await submitting => exact absurd submitting (past _)
  | _ => simp [past w]

/-- The same actions are possible whether or not the caller of a deletion has left, and they
    lead to the same pool but for the phase of that call. -/
theorem act?_inPhase (hc : p.calls[c]? = some call) (purpose : call.purpose = .count)
    (past : ∀ w, call.phase ≠ .submitting w) (past' : ∀ w, phase ≠ .submitting w)
    (stays : a.ends c = false) : (p.modifyCall c (·.inPhase phase)).act? a =
      (p.act? a).map (·.modifyCall c (·.inPhase phase)) := by
  cases act : p.act? a with
  | some p' => exact (change_of_act? act).act?_inPhase phase hc purpose past stays
  | none =>
      cases act' : (p.modifyCall c (·.inPhase phase)).act? a with
      | none => rfl
      | some q =>
          -- The call can be put back into the phase in which it was.
          have back : (p.modifyCall c (·.inPhase phase)).modifyCall c (·.inPhase call.phase) =
              p := by
            rw [modifyCall_modifyCall]
            refine modifyCall_eq_self fun same hs => ?_
            cases hc.symm.trans hs
            rfl
          have hc' : (p.modifyCall c (·.inPhase phase)).calls[c]? = some (call.inPhase phase) := by
            rw [getElem?_modifyCall, if_pos rfl, hc, Option.map_some]
          have possible := (change_of_act? act').act?_inPhase call.phase hc' purpose past' stays
          rw [back, act] at possible
          cases possible

/-- The same sequences of actions are possible whether or not the caller of a deletion has
    left, and they lead to the same pool but for the phase of that call. -/
theorem perform?_inPhase {actions : List Action} (hc : p.calls[c]? = some call)
    (purpose : call.purpose = .count) (past : ∀ w, call.phase ≠ .submitting w)
    (past' : ∀ w, phase ≠ .submitting w) (stay : ∀ a ∈ actions, a.ends c = false)
    (h h' : List Moment) :
    (Trace.perform? act? h' (p.modifyCall c (·.inPhase phase)) actions).map Prod.snd =
      (Trace.perform? act? h p actions).map fun r => r.2.modifyCall c (·.inPhase phase) := by
  induction actions generalizing p call h h' with
  | nil => rfl
  | cons a rest ih =>
      rw [Trace.perform?, Trace.perform?,
        act?_inPhase hc purpose past past' (stay a List.mem_cons_self)]
      cases act : p.act? a with
      | none => rfl
      | some p' =>
          rw [Option.map_some, Option.bind_some, Option.bind_some]
          -- The call is still the deletion that it was, and past submitting.
          rcases (change_of_act? act).callChange_of hc with ⟨call', hc', changed⟩
          have purpose' : call'.purpose = .count :=
            Purpose.eq_count_of_form (changed.form_eq.trans (by rw [purpose]; rfl))
          exact ih hc' purpose' (changed.not_submitting past)
            (fun a ha => stay a (List.mem_cons_of_mem _ ha)) _ _

theorem Call.finishWith_eq_inPhase (phase : Phase) (purpose : call.purpose = .count) :
    call.finishWith phase = call.inPhase phase := by
  rcases call with ⟨_, _, _, _, _, _, _⟩
  cases purpose
  rfl

-- A caller that leaves changes nothing but the phase of its call.
theorem eq_inPhase_of_ends (hc : p.calls[c]? = some call) (purpose : call.purpose = .count)
    (waiting : call.phase = .waiting) (leaves : a.ends c = true) (act : p.act? a = some p') :
    ∃ phase, (∀ w, phase ≠ .submitting w) ∧ p' = p.modifyCall c (·.inPhase phase) := by
  have finished (phase : Phase) :
      p.modifyCall c (·.finishWith phase) = p.modifyCall c (·.inPhase phase) :=
    modifyCall_congr fun same hs => by
      cases hc.symm.trans hs
      exact Call.finishWith_eq_inPhase phase purpose
  cases change_of_act? act with
  | @drop d =>
      have same : d = c := by simpa [Action.ends] using leaves
      subst same
      refine ⟨.dropped, by simp, (modifyCall_congr fun same hs => ?_).trans (finished _)⟩
      cases hc.symm.trans hs
      rw [isWaiting_iff.mpr waiting, if_pos rfl]
  | @conclude d other result hd =>
      have same : d = c := by simpa [Action.ends] using leaves
      subst same
      exact ⟨.returned result, by simp, finished _⟩
  | @desist d other reply hd =>
      have same : d = c := by simpa [Action.ends] using leaves
      subst same
      exact ⟨.returned (.ok reply), by simp, finished _⟩
  | begin begins => cases begins <;> cases leaves
  | _ => cases leaves

end Staying

end Pool

end ShardConsole
