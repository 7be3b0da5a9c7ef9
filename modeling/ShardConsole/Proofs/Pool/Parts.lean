import Mathlib.Data.List.Perm.Subperm
import ShardConsole.Proofs.Pool.Returns

/-!
# Parts of a Listing

What becomes of the parts that the workers make for a listing.

A worker makes its part when it runs the work, and carries it until it is in the channel
or dropped. `Pool.carried_append` keeps the books for each worker: what it carried and
what it makes is what it hands over, what it forgoes and what it still carries. A part is
forgone only if the call is cancelled or nobody listens, so for an uncancelled call whose
caller listens nothing gets lost on the way to the channel.

The account closes when the tickets are resolved, since a worker that still carries a part
still owes its ticket.

## Main definitions

* `partsOf`: The parts that come from shards, without the empty ones.
* `textsFrom`: The parts that come from one worker.
* `Pool.carried`: The part that a worker carries for a call.
* `Moment.forgone`: The part that a worker drops at a moment.

## Theorems

* `perm_of_textsFrom_eq`: Parts are the same in another order if each worker's are the same.
* `subperm_of_textsFrom_sublist`: Parts are among others if each worker's are.
* `Accounts.carried_of_resolved`: Nobody carries a part when the tickets are resolved.
* `Change.carried_append`: The account of one worker.
* `Change.forgone_eq_nil`: Nothing is dropped while an uncancelled caller listens.
-/

namespace ShardConsole

namespace Pool

/-- The parts that the listings of some shards come to; an empty listing is no part. -/
def partsOf (kind : Kind) (visits : List (WorkerId × Shard)) : List (WorkerId × String) :=
  (visits.map fun visit => (visit.1, visit.2.text kind)).filter (·.2 ≠ "")

/-- The texts that come from one worker. -/
def textsFrom (w : WorkerId) (parts : List (WorkerId × String)) : List String :=
  (parts.filter (·.1 = w)).map Prod.snd

/-- The part that a worker has with it for a call, if it has one. -/
def Worker.carried (c : CallId) (worker : Worker) : List String :=
  match worker.activity with
  | .holding d (.part text) | .handing d (.part text) => if d = c then [text] else []
  | _ => []

/-- The part that a worker of a pool has with it for a call, if it has one. -/
def carried (p : Pool) (c : CallId) (w : WorkerId) : List String :=
  (p.workers[w]?.map (Worker.carried c)).getD []

/-- The part for a call that a worker drops at a moment. -/
def Moment.forgone (c : CallId) (w : WorkerId) (m : Moment) : List String :=
  match m.action with
  | .step (.forgo v) | .step (.handOver v) =>
    if v = w ∧ m.handed c = [] then m.before.carried c w else []
  | _ => []

section Texts

variable {kind : Kind} {w : WorkerId}

@[simp] theorem textsFrom_nil : textsFrom w [] = [] := rfl

@[simp] theorem textsFrom_append (first last : List (WorkerId × String)) :
    textsFrom w (first ++ last) = textsFrom w first ++ textsFrom w last := by
  simp only [textsFrom, List.filter_append, List.map_append]

theorem textsFrom_singleton (v : WorkerId) (text : String) :
    textsFrom w [(v, text)] = if v = w then [text] else [] := by
  by_cases same : v = w <;> simp [textsFrom, same]

@[simp] theorem partsOf_nil : partsOf kind [] = [] := rfl

@[simp] theorem partsOf_append (first last : List (WorkerId × Shard)) :
    partsOf kind (first ++ last) = partsOf kind first ++ partsOf kind last := by
  simp only [partsOf, List.map_append, List.filter_append]

-- One shard makes one part, of the worker that has it, or none.
theorem textsFrom_partsOf_singleton (v : WorkerId) (shard : Shard) :
    textsFrom w (partsOf kind [(v, shard)]) =
      if v = w ∧ shard.text kind ≠ "" then [shard.text kind] else [] := by
  by_cases empty : shard.text kind = "" <;> by_cases same : v = w <;>
    simp [partsOf, textsFrom, empty, same]

-- How often a part is there can be seen from the texts of its worker alone.
theorem count_eq_count_textsFrom (parts : List (WorkerId × String)) (v : WorkerId)
    (text : String) : parts.count (v, text) = (textsFrom v parts).count text := by
  induction parts with
  | nil => rfl
  | cons part rest ih =>
      rcases part with ⟨u, other⟩
      rw [← List.singleton_append, List.count_append, textsFrom_append, List.count_append, ih,
        textsFrom_singleton]
      by_cases hu : u = v <;> simp [hu, List.count_singleton]

/-- Texts with their workers are the same, up to their order, if they are the same from
    each worker. -/
theorem perm_of_textsFrom_eq {first last : List (WorkerId × String)}
    (same : ∀ w, textsFrom w first = textsFrom w last) : first.Perm last := by
  rw [List.perm_iff_count]
  rintro ⟨v, text⟩
  rw [count_eq_count_textsFrom, count_eq_count_textsFrom, same v]

/-- Texts with their workers are among others if those from each worker are. -/
theorem subperm_of_textsFrom_sublist {first last : List (WorkerId × String)}
    (among : ∀ w, (textsFrom w first).Sublist (textsFrom w last)) : first.Subperm last := by
  rw [List.subperm_ext_iff]
  rintro ⟨v, text⟩ _
  rw [count_eq_count_textsFrom, count_eq_count_textsFrom]
  exact (among v).count_le text

end Texts

section Carrying

variable {p p' : Pool} {a : Action} {c : CallId} {v w : WorkerId} {worker : Worker} {kind : Kind}

theorem Worker.carried_eq_nil (h : worker.activity.call? ≠ some c) : worker.carried c = [] := by
  unfold Worker.carried
  split
  · rename_i d text activity
    refine if_neg fun same => h ?_
    rw [activity, same]
    rfl
  · rename_i d text activity
    refine if_neg fun same => h ?_
    rw [activity, same]
    rfl
  · rfl

theorem carried_eq (hw : p.workers[w]? = some worker) : p.carried c w = worker.carried c := by
  rw [carried, hw, Option.map_some, Option.getD_some]

-- A worker that is not busy for a call carries nothing for it.
theorem carried_eq_nil (idle : ∀ worker, p.workers[w]? = some worker →
    worker.activity.call? ≠ some c) : p.carried c w = [] := by
  cases hw : p.workers[w]? with
  | none => rw [carried, hw, Option.map_none, Option.getD_none]
  | some worker => rw [carried_eq hw, Worker.carried_eq_nil (idle worker hw)]

theorem Accounts.carried_of_resolved {call : Call} (acc : Accounts p)
    (hc : p.calls[c]? = some call) (resolved : call.isResolved = true) (w : WorkerId) :
    p.carried c w = [] :=
  carried_eq_nil fun _ hw => acc.not_busy hw hc resolved

theorem Accounts.carried_of_unknown (acc : Accounts p) (unknown : p.calls.size ≤ c)
    (w : WorkerId) : p.carried c w = [] := by
  refine carried_eq_nil fun worker hw busy => ?_
  exact absurd (acc.known w worker hw c (Worker.mem_owed_of_busy busy)) (Nat.not_lt.mpr unknown)

-- Making a call does not change what the workers carry.
theorem Change.carried_of_begins {call : Call} (change : Change p a p') (begins : a.Begins call) :
    p'.carried c w = p.carried c w := by
  cases change <;> first | rfl | cases begins

-- What the workers of a pool carry after one of them was changed.
theorem carried_modifyWorker {change : Worker → Worker} (hv : p.workers[v]? = some worker) :
    (p.modifyWorker v change).carried c w =
      if v = w then (change worker).carried c else p.carried c w := by
  rw [carried, getElem?_modifyWorker]
  by_cases same : v = w
  · subst same
    simp [hv]
  · rw [if_neg same, if_neg same, carried]

-- A change of a worker that goes on to carry what it carried changes nothing.
theorem carried_modifyWorker_of_eq {change : Worker → Worker}
    (hv : p.workers[v]? = some worker)
    (same : (change worker).carried c = worker.carried c) :
    (p.modifyWorker v change).carried c w = p.carried c w := by
  rw [carried_modifyWorker hv]
  by_cases hvw : v = w
  · subst hvw
    rw [if_pos rfl, same, carried_eq hv]
  · rw [if_neg hvw]

-- A worker that has run the work of a listing carries the listing of its shard.
theorem Worker.carried_of_list {v : WorkerId} {before shard : Shard} {report : Report}
    {handoff : Handoff} {rest : List Message}
    (ran : (Work.list kind).invoke v before = .ran shard report handoff) :
    Worker.carried c ⟨shard, rest, .holding c handoff⟩ =
      textsFrom v (partsOf kind [(v, before)]) := by
  cases ran
  rw [textsFrom_partsOf_singleton]
  by_cases empty : before.text kind = "" <;> simp [Worker.carried, empty]

-- Nothing is dropped if the worker that could do so has nothing with it, or hands over what
-- it has.
theorem forgone_eq_nil {step : Step} (acts : step = .forgo v ∨ step = .handOver v)
    (nothing : Moment.handed c ⟨p, .step step⟩ = [] → p.carried c v = []) :
    Moment.forgone c w ⟨p, .step step⟩ = [] := by
  have eq : Moment.forgone c w ⟨p, .step step⟩ =
      if v = w ∧ Moment.handed c ⟨p, .step step⟩ = [] then p.carried c w else [] := by
    rcases acts with rfl | rfl <;> rfl
  rw [eq]
  by_cases guard : v = w ∧ Moment.handed c ⟨p, .step step⟩ = []
  · rw [if_pos guard, ← guard.1]
    exact nothing guard.2
  · exact if_neg guard

/-- What a worker carried and what it makes is what it hands over, what it forgoes and what
    it still carries. -/
theorem Change.carried_append (change : Change p a p')
    (work : ∀ worker job rest, p.workers[w]? = some worker →
      worker.queue = .work c job :: rest → job = Work.list kind) :
    p.carried c w ++ textsFrom w (partsOf kind (Moment.met c ⟨p, a⟩)) =
      textsFrom w (Moment.handed c ⟨p, a⟩) ++ Moment.forgone c w ⟨p, a⟩ ++ p'.carried c w := by
  cases change with
  | dispatch hv alive =>
      exact (List.append_nil _).trans (carried_modifyWorker_of_eq hv rfl).symm
  | begin begins => cases begins <;> exact List.append_nil _
  | cancel => exact List.append_nil _
  | drop => exact List.append_nil _
  | openGate => exact List.append_nil _
  | give hd phase hv alive =>
      exact (List.append_nil _).trans (carried_modifyWorker_of_eq hv rfl).symm
  | refuse => exact List.append_nil _
  | await => exact List.append_nil _
  | @merge v worker m rest hv idle queue =>
      rw [met_of_metric hv queue]
      exact (List.append_nil _).trans (carried_modifyWorker_of_eq hv rfl).symm
  | @run v worker d job rest shard report handoff hv idle queue ran =>
      change _ = [] ++ [] ++ Pool.carried (p.modifyWorker v _) c w
      rw [met_of_work hv queue, carried_modifyWorker hv, List.nil_append, List.nil_append]
      by_cases hvw : v = w
      · subst hvw
        have before : worker.carried c = [] :=
          Worker.carried_eq_nil (by simp [idle, Activity.call?])
        rw [carried_eq hv, before, if_pos rfl, List.nil_append]
        by_cases hd : d = c
        · subst hd
          cases work worker job rest hv queue
          rw [if_pos rfl, Worker.carried_of_list ran]
        · rw [if_neg hd, Worker.carried_eq_nil (by simpa [Activity.call?] using hd)]
          rfl
      · rw [if_neg hvw]
        by_cases hd : d = c <;> simp [hd, hvw, textsFrom_partsOf_singleton]
  | @die v worker d job rest hv idle queue failed =>
      have before : worker.carried c = [] :=
        Worker.carried_eq_nil (by simp [idle, Activity.call?])
      change _ = [] ++ [] ++ Pool.carried (p.modifyWorker v _) c w
      rw [met_of_work hv queue, carried_modifyWorker_of_eq hv (by rw [before]; rfl),
        List.nil_append, List.nil_append]
      by_cases hd : d = c
      · subst hd
        by_cases hvw : v = w
        · -- Nobody dies of the work of a listing.
          subst hvw
          cases work worker job rest hv queue
          cases failed
        · simp [hvw, textsFrom_partsOf_singleton]
      · simp [hd]
  | @dropWork v worker d handoff hv activity =>
      -- The worker lets go of the work and keeps the part.
      refine (List.append_nil _).trans (carried_modifyWorker_of_eq hv ?_).symm
      cases handoff <;> simp only [Worker.carried, activity]
  | @passGate v worker d gate hv activity isOpen =>
      have nothing : worker.carried c = [] := by simp only [Worker.carried, activity]
      rw [handed_of_passGate hv activity,
        forgone_eq_nil (.inr rfl) fun _ => (carried_eq hv).trans nothing]
      exact (List.append_nil _).trans
        (carried_modifyWorker_of_eq hv (by rw [nothing]; rfl)).symm
  | @discard v worker d text call hv activity hd unheard =>
      have handed : Moment.handed c ⟨p, .step (.handOver v)⟩ = [] :=
        handed_of_discard hv activity hd unheard
      change _ ++ [] = _ ++ _ ++ (p.modifyWorker v _).carried c w
      rw [handed, textsFrom_nil, List.append_nil, List.nil_append, carried_modifyWorker hv]
      by_cases hvw : v = w
      · subst hvw
        simp [Moment.forgone, handed, Worker.carried]
      · simp [Moment.forgone, hvw]
  | @push v worker d text call intake hv activity hd hi listening room =>
      have before : worker.carried c = if d = c then [text] else [] := by
        simp only [Worker.carried, activity]
      change _ ++ [] = _ ++ _ ++ (p.modifyWorker v _).carried c w
      rw [carried_modifyWorker hv, List.append_nil, Moment.forgone,
        handed_of_push hv activity hd hi listening]
      -- The part leaves the worker for the channel, whichever call it is for.
      by_cases hvw : v = w
      · subst hvw
        rw [carried_eq hv, before]
        by_cases same : d = c <;> simp [same, textsFrom_singleton, Worker.carried]
      · by_cases same : d = c <;> simp [hvw, same, textsFrom_singleton]
  | @forgo v worker d text call hv activity hd cancelled =>
      change _ ++ [] = [] ++ _ ++ (p.modifyWorker v _).carried c w
      rw [carried_modifyWorker hv, List.append_nil, List.nil_append]
      by_cases hvw : v = w
      · simp [Moment.forgone, hvw, Moment.handed, Worker.carried]
      · simp [Moment.forgone, hvw]
  | finish hv activity =>
      exact (List.append_nil _).trans
        (carried_modifyWorker_of_eq hv (by simp only [Worker.carried, activity])).symm
  | signal hv activity =>
      exact (List.append_nil _).trans
        (carried_modifyWorker_of_eq hv (by simp only [Worker.carried, activity])).symm
  | letGo => exact List.append_nil _
  | receive => exact List.append_nil _
  | conclude => exact List.append_nil _
  | desist => exact List.append_nil _

/-- Nothing is dropped for an uncancelled call while its caller listens. -/
theorem Change.forgone_eq_nil {call : Call} {intake : Intake} (change : Change p a p')
    (hc : p.calls[c]? = some call) (uncancelled : call.cancelled = false)
    (hi : call.intake? = some intake) (listening : intake.channel.listening = true) :
    Moment.forgone c w ⟨p, a⟩ = [] := by
  -- A worker that carries a part for one call carries none for another.
  have other {v : WorkerId} {worker : Worker} {d : CallId} {text : String} (hd : d ≠ c)
      (hv : p.workers[v]? = some worker) (activity : worker.activity = .handing d (.part text)) :
      p.carried c v = [] := by
    rw [carried_eq hv]
    exact Worker.carried_eq_nil (by simpa [activity, Activity.call?] using hd)
  cases change with
  | begin begins => cases begins <;> rfl
  | passGate hv activity isOpen =>
      refine forgone_eq_nil (.inr rfl) fun _ => ?_
      rw [carried_eq hv]
      simp only [Worker.carried, activity]
  | @discard v worker d text _ hv activity hd unheard =>
      refine forgone_eq_nil (.inr rfl) fun _ => other (fun same => ?_) hv activity
      subst same
      cases hc.symm.trans hd
      exact absurd (listening.symm.trans (unheard intake hi)) Bool.noConfusion
  | @push v worker d text _ intake' hv activity hd hi' listening' room =>
      -- What goes into the channel of the call is not dropped.
      refine forgone_eq_nil (.inr rfl) fun handed => other (fun same => ?_) hv activity
      rw [handed_of_push hv activity hd hi' listening', if_pos same] at handed
      cases handed
  | @forgo v worker d text _ hv activity hd cancelled =>
      refine forgone_eq_nil (.inl rfl) fun _ => other (fun same => ?_) hv activity
      subst same
      cases hc.symm.trans hd
      exact absurd (uncancelled.symm.trans cancelled) Bool.noConfusion
  | _ => rfl

end Carrying

end Pool

end ShardConsole
