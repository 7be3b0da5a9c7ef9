import ShardConsole.Proofs.Pool.Histories
import ShardConsole.Proofs.Shard.Restriction

/-!
# Serial Runs

Runs of a pool in which one operation follows another.

An operation is a metric that is routed by its name, an uncancelled deletion or an
uncancelled listing, and the next one begins only when every call has returned. Metrics may
still be waiting on the queues then, and the workers, the closers and the caller go on in
any order in between, so a serial run is not a sequential one.

What the operations mean for one worker can be read off the history without looking at
any queue: `meant` is the sequence of the metrics that the worker owns and of the work of
all calls, in the order of the operations. `Run.meant_eq` says that the queue of the worker
is on its way there. Only the work of the last call may still be missing from it, and that
work comes next.

## Main definitions

* `ownerBy`: The worker that owns a name when names are routed by a hash.
* `Quiet`: A pool in which every call has returned.
* `Moment.IsSerial`: A step, or an operation in a quiet pool.
* `Moment.onSingle`, `single`: What the operations do to one shard.
* `Moment.meant`, `meant`: What the operations mean for a worker.
* `unsent`: The work that a call has yet to put on the queue of a worker.

## Theorems

* `Run.only_last`: Only the last call of a serial run may not have returned.
* `Run.uncancelled`: No call of a serial run is cancelled.
* `Run.meant_eq`: A worker is given what the operations mean for it.
* `Run.restricts_meant`: What the operations mean for a worker is its part of the single shard.
* `Run.restricts_of_met`: The work of a call meets parts of the single shard.
-/

namespace ShardConsole

namespace Pool

/-- The worker that owns a name when names are routed by a hash. -/
def ownerBy (hash : String → UInt64) (workers : Nat) (name : String) : WorkerId :=
  (hash name).toNat % workers

-- A metric is dispatched to the worker that owns its name by the hash of this program.
theorem dispatch_eq (p : Pool) (m : Metric) :
    p.dispatch m = p.dispatchTo (ownerBy Routing.hash p.size m.name) m := rfl

theorem ownerBy_lt {hash : String → UInt64} {workers : Nat} (positive : 0 < workers)
    (name : String) : ownerBy hash workers name < workers :=
  Nat.mod_lt _ positive

/-- Whether a call has given its result back. -/
def Phase.isReturned : Phase → Bool
  | .returned _ => true
  | _ => false

theorem Phase.isReturned_iff (phase : Phase) :
    phase.isReturned = true ↔ ∃ result, phase = .returned result := by
  cases phase <;> simp [isReturned]

/-- A pool in which every call has returned. -/
def Quiet (p : Pool) : Prop :=
  ∀ (c : CallId) (call : Call), p.calls[c]? = some call →
    ∃ result, call.phase = .returned result

theorem quiet_iff (p : Pool) : p.Quiet ↔ ∀ call ∈ p.calls, call.phase.isReturned = true := by
  unfold Quiet
  constructor
  · intro quiet call hc
    rcases Array.mem_iff_getElem?.mp hc with ⟨c, hc⟩
    exact call.phase.isReturned_iff.mpr (quiet c call hc)
  · intro all c call hc
    exact call.phase.isReturned_iff.mp (all call (Array.mem_of_getElem? hc))

instance (p : Pool) : Decidable p.Quiet :=
  decidable_of_iff _ (quiet_iff p).symm

/-- A step of the pool, or an operation that begins when all calls have returned: a metric
    that is routed by its name, an uncancelled deletion or an uncancelled listing. -/
def Moment.IsSerial (hash : String → UInt64) (m : Moment) : Prop :=
  match m.action with
  | .step _ => True
  | .dispatch w metric => m.before.Quiet ∧ w = ownerBy hash m.before.size metric.name
  | .list _ _ cancelled | .delete _ _ cancelled => m.before.Quiet ∧ cancelled = false
  | .process _ | .cancel _ | .drop _ | .openGate _ => False

instance (hash : String → UInt64) (m : Moment) : Decidable (m.IsSerial hash) :=
  match m with
  | ⟨_, .step _⟩ => isTrue trivial
  | ⟨p, .dispatch w metric⟩ =>
    inferInstanceAs (Decidable (p.Quiet ∧ w = ownerBy hash p.size metric.name))
  | ⟨p, .list _ _ cancelled⟩ => inferInstanceAs (Decidable (p.Quiet ∧ cancelled = false))
  | ⟨p, .delete _ _ cancelled⟩ => inferInstanceAs (Decidable (p.Quiet ∧ cancelled = false))
  | ⟨_, .process _⟩ => isFalse not_false
  | ⟨_, .cancel _⟩ => isFalse not_false
  | ⟨_, .drop _⟩ => isFalse not_false
  | ⟨_, .openGate _⟩ => isFalse not_false

/-- What an operation does to a single shard. -/
def Moment.onSingle (whole : Shard) (m : Moment) : Shard :=
  match m.action with
  | .dispatch _ metric => whole.receive metric
  | .delete kind names _ => (whole.deleteAll kind names).1
  | _ => whole

/-- A single shard after the operations of a history. -/
def single (h : List Moment) : Shard :=
  h.foldl Moment.onSingle Shard.empty

/-- What an operation means for a worker. -/
def Moment.meant (w : WorkerId) (m : Moment) : List Message :=
  match m.action with
  | .dispatch v metric => if v = w then [.metric metric] else []
  | .list _ kind _ => [.work m.before.calls.size (Work.list kind)]
  | .delete kind names _ => [.work m.before.calls.size (Work.delete kind names)]
  | _ => []

/-- What the operations of a history mean for a worker. -/
def meant (w : WorkerId) (h : List Moment) : List Message :=
  h.flatMap (Moment.meant w)

/-- The work that a call has yet to put on the queue of a worker. -/
def Call.unsent (c : CallId) (w : WorkerId) (call : Call) : List Message :=
  match call.phase with
  | .submitting v => if v ≤ w then [.work c call.work] else []
  | _ => []

/-- The work that the last call has yet to put on the queue of a worker. -/
def unsent (p : Pool) (w : WorkerId) : List Message :=
  (p.calls[p.calls.size - 1]?.map (Call.unsent (p.calls.size - 1) w)).getD []

section Projections

variable (w : WorkerId) (h : List Moment) (m : Moment)

@[simp] theorem single_snoc : single (h ++ [m]) = m.onSingle (single h) := by
  rw [single, single, List.foldl_append, List.foldl_cons, List.foldl_nil]

@[simp] theorem meant_snoc : meant w (h ++ [m]) = meant w h ++ m.meant w := by
  simp only [meant, List.flatMap_append, List.flatMap_singleton]

-- An operation means at most one message for a worker.
theorem Moment.length_meant_le : (m.meant w).length ≤ 1 := by
  rcases m with ⟨p, a⟩
  cases a with
  | dispatch v metric =>
      by_cases mine : v = w
      · exact Nat.le_of_eq (congrArg List.length (if_pos mine))
      · exact Nat.le_trans (Nat.le_of_eq (congrArg List.length (if_neg mine))) (Nat.zero_le 1)
  | list => exact Nat.le_refl 1
  | delete => exact Nat.le_refl 1
  | _ => exact Nat.zero_le 1

end Projections

section Steps

variable {p p' : Pool} {a : Action} {c : CallId} {w : WorkerId} {call call' : Call}
  {hash : String → UInt64} {step : Step}

-- A call that has returned stays so.
theorem CallChange.returned (change : CallChange p c call a call')
    {result : Except Unavailable Reply} (phase : call.phase = .returned result) :
    call'.phase = .returned result := by
  cases change with
  | drop waiting => rw [phase] at waiting; cases waiting
  | give submitting => rw [phase] at submitting; cases submitting
  | refuse submitting => rw [phase] at submitting; cases submitting
  | await submitting => rw [phase] at submitting; cases submitting
  | conclude waiting => rw [phase] at waiting; cases waiting
  | desist waiting => rw [phase] at waiting; cases waiting
  | _ => simpa using phase

-- An action that does not submit anything leaves what a call has yet to submit.
theorem CallChange.unsent_eq (change : CallChange p c call a call')
    (other : a ≠ .step (.submit c)) : call'.unsent c w = call.unsent c w := by
  have same (work : call'.work = call.work) (phase : call'.phase = call.phase) :
      call'.unsent c w = call.unsent c w := by
    rw [Call.unsent, Call.unsent, phase, work]
  cases change with
  | drop phase => simp [Call.unsent, phase]
  | give => exact absurd rfl other
  | refuse => exact absurd rfl other
  | await => exact absurd rfl other
  | conclude phase => simp [Call.unsent, phase]
  | desist phase => simp [Call.unsent, phase]
  | _ =>
    refine same ?_ ?_ <;> simp

-- A step makes no call.
theorem Change.calls_size_eq (change : Change p (.step step) p') :
    p'.calls.size = p.calls.size := by
  cases change with
  | begin begins => cases begins
  | die => simp [bury]
  | _ => simp [modifyCall, setActivity, enqueue]

-- In a quiet pool nothing is left to be submitted.
theorem Quiet.unsent_eq (quiet : p.Quiet) (w : WorkerId) : p.unsent w = [] := by
  rw [unsent]
  cases hc : p.calls[p.calls.size - 1]? with
  | none => rfl
  | some call =>
      rcases quiet _ call hc with ⟨result, phase⟩
      rw [Option.map_some, Option.getD_some, Call.unsent, phase]

-- What is left to be submitted is that of the last call.
theorem unsent_eq_of_last (hc : p.calls[c]? = some call) (last : c + 1 = p.calls.size) :
    p.unsent w = call.unsent c w := by
  have same : p.calls.size - 1 = c := by rw [← last, Nat.add_sub_cancel]
  rw [unsent, same, hc, Option.map_some, Option.getD_some]

-- A step puts on the queue of a worker what was left to be submitted to it, or leaves it to
-- be submitted.
theorem Change.unsent_append_step (change : Change p (.step step) p') (alive : p.AllAlive)
    (only : ∀ (c : CallId) (call : Call), p.calls[c]? = some call →
      c + 1 = p.calls.size ∨ ∃ result, call.phase = .returned result)
    (hw : w < p.size) :
    p.unsent w = Moment.sent w ⟨p, .step step⟩ ++ p'.unsent w := by
  have size := change.calls_size_eq
  -- A call that submits is the last one.
  have last {c : CallId} {call : Call} {v : WorkerId} (hc : p.calls[c]? = some call)
      (phase : call.phase = .submitting v) : c + 1 = p.calls.size := by
    rcases only c call hc with last | ⟨result, returned⟩
    · exact last
    · rw [phase] at returned
      cases returned
  by_cases submits : ∃ c, step = .submit c
  · rcases submits with ⟨c, rfl⟩
    cases change with
    | begin begins => cases begins
    | @give _ call v worker hc phase hv lives =>
        have hc' : ((p.enqueue v (.work c call.work)).modifyCall c (·.give v)).calls[c]? =
            some (call.give v) := by
          rw [getElem?_modifyCall, if_pos rfl]
          exact congrArg (Option.map _) hc
        rw [unsent_eq_of_last hc (last hc phase),
          unsent_eq_of_last hc' ((last hc phase).trans size.symm), sent_of_give hc phase hv lives w]
        simp only [Call.unsent, phase, Call.give]
        -- The work is put on the queue of one worker and is left for those behind it.
        by_cases hvw : v = w
        · subst hvw
          simp only [Nat.le_refl, if_true, Nat.not_succ_le_self, if_false, List.append_nil]
        · have same : v + 1 ≤ w ↔ v ≤ w :=
            ⟨Nat.le_of_succ_le, fun le => Nat.lt_of_le_of_ne le hvw⟩
          simp only [hvw, if_false, same, List.nil_append]
    | refuse hc phase hv dead =>
        exact absurd (dead.symm.trans (alive _ _ hv)) Bool.false_ne_true
    | @await _ call v hc phase hv =>
        have hc' : (p.modifyCall c Call.await).calls[c]? = some call.await := by
          rw [getElem?_modifyCall, if_pos rfl, hc, Option.map_some]
        -- There is no worker behind the last one.
        have outside : ¬v ≤ w := by
          have le : p.size ≤ v := Array.getElem?_eq_none_iff.mp hv
          exact Nat.not_le.mpr (Nat.lt_of_lt_of_le hw le)
        rw [unsent_eq_of_last hc (last hc phase),
          unsent_eq_of_last hc' ((last hc phase).trans size.symm), sent_of_await hc phase hv w]
        simp [Call.unsent, phase, outside]
  · have sent : Moment.sent w ⟨p, .step step⟩ = [] := by
      cases step with
      | submit c => exact absurd ⟨c, rfl⟩ submits
      | _ => rfl
    rw [sent, List.nil_append, unsent, unsent, size]
    cases hc : p.calls[p.calls.size - 1]? with
    | none =>
        have hc' : p'.calls[p.calls.size - 1]? = none := by
          rw [Array.getElem?_eq_none_iff] at hc ⊢
          omega
        rw [hc']
    | some call =>
        rcases change.callChange_of hc with ⟨call', hc', changed⟩
        rw [hc', Option.map_some, Option.map_some, Option.getD_some, Option.getD_some]
        refine (changed.unsent_eq fun same => submits ?_).symm
        exact ⟨_, Action.step.inj same⟩

-- What was left to be submitted to a worker, with what an operation means for it, is put on
-- its queue or left to be submitted.
theorem Change.unsent_append (change : Change p a p') (alive : p.AllAlive)
    (serial : Moment.IsSerial hash ⟨p, a⟩)
    (only : ∀ (c : CallId) (call : Call), p.calls[c]? = some call →
      c + 1 = p.calls.size ∨ ∃ result, call.phase = .returned result)
    (hw : w < p.size) :
    p.unsent w ++ Moment.meant w ⟨p, a⟩ = Moment.sent w ⟨p, a⟩ ++ p'.unsent w := by
  -- A call that has just been made has everything left to submit.
  have fresh {call : Call} (phase : call.phase = .submitting 0) :
      (p.begin call).1.unsent w = [.work p.calls.size call.work] := by
    have hc : (p.begin call).1.calls[p.calls.size]? = some call := Array.getElem?_push_size
    rw [unsent_eq_of_last hc (Array.size_push call).symm, Call.unsent, phase]
    exact if_pos (Nat.zero_le w)
  cases a with
  | step step => exact (List.append_nil _).trans (change.unsent_append_step alive only hw)
  | dispatch v metric =>
      have same : p'.unsent w = p.unsent w := by
        cases change with
        | dispatch => rfl
        | begin begins => cases begins
      rw [same, serial.1.unsent_eq w, List.append_nil]
      rfl
  | list capacity kind cancelled =>
      cases change with
      | begin begins =>
          cases begins
          rw [serial.1.unsent_eq w, fresh rfl]
          rfl
  | delete kind names cancelled =>
      cases change with
      | begin begins =>
          cases begins
          rw [serial.1.unsent_eq w, fresh rfl]
          rfl
  | process => exact absurd serial not_false
  | cancel => exact absurd serial not_false
  | drop => exact absurd serial not_false
  | openGate => exact absurd serial not_false

end Steps

section Runs

variable {start p : Pool} {h h₁ h₂ : List Moment} {m : Moment} {c : CallId} {w : WorkerId}
  {call : Call} {shard : Shard} {hash : String → UInt64}

/-- Only the last call of a serial run may not have returned. -/
theorem Run.only_last (run : Run start h p) (fresh : IsFresh start)
    (serial : ∀ m ∈ h, m.IsSerial hash) (c : CallId) (call : Call)
    (hc : p.calls[c]? = some call) :
    c + 1 = p.calls.size ∨ ∃ result, call.phase = .returned result := by
  induction run generalizing c call with
  | start =>
      rw [fresh.calls] at hc
      simp at hc
  | @next h p p' a run act ih =>
      have change := change_of_act? act
      have before := fun m hm => serial m (List.mem_append_left _ hm)
      have now : Moment.IsSerial hash ⟨p, a⟩ := serial _ (by simp)
      rcases change.callChange hc with ⟨rfl, begins⟩ | ⟨call₀, hc₀, changed⟩
      · -- A call that has just been made is the last one.
        refine Or.inl ?_
        cases change with
        | begin => exact (Array.size_push _).symm
        | _ => cases begins
      · have returned : (∃ result, call₀.phase = .returned result) →
            ∃ result, call.phase = .returned result := by
          rintro ⟨result, phase⟩
          exact ⟨result, changed.returned phase⟩
        -- A step leaves the last call the last, and an operation finds a quiet pool.
        cases a with
        | step step =>
            rw [change.calls_size_eq]
            exact (ih before c call₀ hc₀).imp_right returned
        | dispatch => exact Or.inr (returned (now.1 c call₀ hc₀))
        | list => exact Or.inr (returned (now.1 c call₀ hc₀))
        | delete => exact Or.inr (returned (now.1 c call₀ hc₀))
        | process => exact absurd now not_false
        | cancel => exact absurd now not_false
        | drop => exact absurd now not_false
        | openGate => exact absurd now not_false

/-- No call of a serial run is cancelled. -/
theorem Run.uncancelled (run : Run start h p) (fresh : IsFresh start)
    (serial : ∀ m ∈ h, m.IsSerial hash) (hc : p.calls[c]? = some call) :
    call.cancelled = false := by
  induction run generalizing call with
  | start =>
      rw [fresh.calls] at hc
      simp at hc
  | @next h p p' a run act ih =>
      have before := fun m hm => serial m (List.mem_append_left _ hm)
      have now : Moment.IsSerial hash ⟨p, a⟩ := serial _ (by simp)
      rcases (change_of_act? act).callChange hc with ⟨_, begins⟩ | ⟨call₀, hc₀, changed⟩
      · cases begins with
        | list => exact now.2
        | delete => exact now.2
        | process => exact absurd now not_false
      · have first := ih before hc₀
        cases changed with
        | cancel => exact absurd now not_false
        | _ =>
          simpa using first

/-- What a worker has been given, and after it the work that the last call has yet to put
    on its queue, is what the operations mean for it. -/
theorem Run.meant_eq (run : Run start h p) (fresh : IsFresh start)
    (empty : start.queueOf w = []) (alive : p.AllAlive) (serial : ∀ m ∈ h, m.IsSerial hash)
    (hw : w < p.size) : meant w h = enqueued start w h ++ p.unsent w := by
  induction run with
  | start =>
      rw [enqueued, empty, unsent, fresh.calls]
      rfl
  | @next h p p' a run act ih =>
      have change := change_of_act? act
      have before := fun m hm => serial m (List.mem_append_left _ hm)
      have now : Moment.IsSerial hash ⟨p, a⟩ := serial _ (by simp)
      have alive := alive.of_act? act
      rw [change.size_eq] at hw
      have append := change.unsent_append alive now (Run.only_last run fresh before) hw
      rw [meant_snoc, enqueued_snoc, ih alive before hw, List.append_assoc, append,
        List.append_assoc]

-- A worker is meant to run the work of each call once.
theorem Run.nodup_meant (run : Run start h p) (fresh : IsFresh start)
    (empty : start.queueOf w = []) (alive : p.AllAlive) (serial : ∀ m ∈ h, m.IsSerial hash)
    (hw : w < p.size) : (callsOf (meant w h)).Nodup := by
  have deliveries := run.deliveries fresh
  rw [run.meant_eq fresh empty alive serial hw, callsOf_append]
  -- What is still to be put on a queue is not there yet, since the call has no ticket for it.
  rw [unsent]
  cases hc : p.calls[p.calls.size - 1]? with
  | none =>
      rw [Option.map_none, Option.getD_none, callsOf_nil, List.append_nil]
      exact deliveries.once w
  | some call =>
      rw [Option.map_some, Option.getD_some, Call.unsent]
      split
      · rename_i v phase
        by_cases hv : v ≤ w
        · rw [if_pos hv, callsOf_work_cons, callsOf_nil]
          refine List.nodup_append.mpr ⟨deliveries.once w, List.nodup_singleton _, ?_⟩
          rintro d hd _ same rfl
          rw [List.mem_singleton] at same
          rcases (deliveries.given w d).mp hd with ⟨call', hc', hlt⟩
          rw [same, hc, Option.some.injEq] at hc'
          have size := ((run.accounts fresh).given _ call hc).1
          rw [Call.given, phase] at size
          rw [← hc', size] at hlt
          exact absurd hlt (Nat.not_lt.mpr hv)
        · rw [if_neg hv, callsOf_nil, List.append_nil]
          exact deliveries.once w
      · rw [callsOf_nil, List.append_nil]
        exact deliveries.once w

-- An operation does to the part of a worker what it means for the worker.
theorem Moment.restricts_meant {whole part : Shard} (serial : m.IsSerial hash)
    (h : Shard.Restricts (fun name => ownerBy hash m.before.size name == w) whole part) :
    Shard.Restricts (fun name => ownerBy hash m.before.size name == w) (m.onSingle whole)
      (replay w part (m.meant w)) := by
  rcases m with ⟨p, a⟩
  cases a with
  | dispatch v metric =>
      have owner : v = ownerBy hash p.size metric.name := serial.2
      by_cases mine : v = w
      · have meant : Moment.meant w ⟨p, .dispatch v metric⟩ = [.metric metric] := if_pos mine
        rw [meant]
        exact h.receive (beq_iff_eq.mpr (owner.symm.trans mine))
      · have meant : Moment.meant w ⟨p, .dispatch v metric⟩ = [] := if_neg mine
        rw [meant]
        exact h.receive_other (beq_eq_false_iff_ne.mpr fun same => mine (owner.trans same))
  | delete kind names cancelled => exact h.deleteAll kind names
  | _ => exact h

/-- What the operations of a serial run mean for a worker makes its part of the single
    shard, if the workers have started with empty shards. -/
theorem Run.restricts_meant (run : Run start h p) (serial : ∀ m ∈ h, m.IsSerial hash)
    (w : WorkerId) : Shard.Restricts (fun name => ownerBy hash p.size name == w) (single h)
      (replay w Shard.empty (meant w h)) := by
  induction run with
  | start => exact Shard.restricts_empty
  | @next h p p' a run act ih =>
      have before := ih fun m hm => serial m (List.mem_append_left _ hm)
      have now : Moment.IsSerial hash ⟨p, a⟩ := serial _ (by simp)
      rw [single_snoc, meant_snoc, replay, List.foldl_append, (change_of_act? act).size_eq]
      exact Moment.restricts_meant now before

theorem start_worker {n : Nat} {worker : Worker} (hw : (Pool.start n).workers[w]? = some worker) :
    worker = Worker.start := by
  rw [Pool.start, Array.getElem?_replicate, Option.ite_none_right_eq_some] at hw
  exact (Option.some.inj hw.2).symm

theorem queueOf_start (n : Nat) (w : WorkerId) : (Pool.start n).queueOf w = [] := by
  cases hw : (Pool.start n).workers[w]? with
  | none => rw [queueOf, hw, Option.map_none, Option.getD_none]
  | some worker => rw [queueOf_eq hw, start_worker hw, Worker.start]

/-- The work of a call that an operation has made meets, on every worker, the part of the
    single shard that the operations before have left there. -/
theorem Run.restricts_of_met {n : Nat} (run : Run (Pool.start n) h p) (alive : p.AllAlive)
    (serial : ∀ m ∈ h, m.IsSerial hash) (split : h = h₁ ++ m :: h₂) {job : Work}
    (operation : m.meant w = [.work c job]) (met : (w, shard) ∈ invocations c h) :
    Shard.Restricts (fun name => ownerBy hash p.size name == w) (single h₁) shard := by
  have fresh := isFresh_start n
  rcases List.mem_flatMap.mp met with ⟨m', hm', met⟩
  rcases List.append_of_mem hm' with ⟨g₁, g₂, split'⟩
  rcases run.shard_of_met alive split' met with ⟨first, hf, shard_eq⟩
  rcases run.enqueued_of_met alive split' met with ⟨job', rest, enqueued_eq⟩
  have hw : w < p.size := by
    rw [run.size_eq]
    exact lt_size_of_worker hf
  have once := run.nodup_meant fresh (queueOf_start n w) alive serial hw
  have eq := run.meant_eq fresh (queueOf_start n w) alive serial hw
  -- What the worker had handled is what the operations before meant for it.
  have handled_eq : handled w g₁ = meant w h₁ := by
    have before : meant w h = meant w h₁ ++ .work c job :: meant w h₂ := by
      rw [split]
      simp only [meant, List.flatMap_append, List.flatMap_cons, operation, List.singleton_append]
    rw [enqueued_eq, List.append_assoc, List.cons_append] at eq
    rw [eq] at once
    exact split_unique (eq.symm.trans before) once
  subst split
  have size : p.size = m.before.size := by rw [run.size_eq, Run.size_eq run.split.1]
  rw [shard_eq, start_worker hf, handled_eq, size]
  exact Run.restricts_meant run.split.1 (fun m hm => serial m (List.mem_append_left _ hm)) w

end Runs

end Pool

end ShardConsole
