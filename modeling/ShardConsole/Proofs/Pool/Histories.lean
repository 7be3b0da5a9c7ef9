import ShardConsole.Proofs.Pool.Parts

/-!
# Histories that Listings Show

What a listing shows of one worker is a piece of that worker's past.

The messages that are ever put on the queue of a worker form one sequence, and the worker
handles them in that order. When it comes to the work of a listing it has handled exactly
what was put on its queue before that work, no more and no less. The part that it renders
is then its first shard with those messages applied, and the work of other listings among
them can be left out, because it changes nothing.

So a listing shows what was there before it was made: a metric that was dispatched, and a
deletion that was put on all queues, whether or not anybody waited for it. And since the
queues only grow, a listing that is made when another one is on all queues does not show
less than the other one.

## Main definitions

* `updates`: The messages that are not the work of a listing.
* `Submitted`: A call whose work has been put on all queues.
* `Sees`: What a worker had handled when it ran the work of a call.

## Theorems

* `split_unique`: The work of a call stands at one place of a queue.
* `Run.enqueued_of_met`: Where the work stood that a worker runs.
* `Run.replay_updates`: Listings do not change shards.
* `Run.textsFrom_sublist`: What a worker has handed over is among what it has made.
* `Run.listing_sees_history`: What a listing shows of the past of a worker.
-/

namespace ShardConsole

namespace Pool

/-- Whether a message is the work of a call that lists. -/
def isListing (p : Pool) (m : Message) : Bool :=
  match m.call? with
  | some c => ((p.calls[c]?).bind Call.intake?).isSome
  | none => false

/-- The messages among some that are not the work of a listing: metrics, and the work that
    may change a shard. -/
def updates (p : Pool) (messages : List Message) : List Message :=
  messages.filter fun m => !p.isListing m

/-- A call whose work has been put on all queues, whatever has become of it since. -/
def Submitted (p : Pool) (c : CallId) : Prop :=
  ∃ call, p.calls[c]? = some call ∧ ∀ w, call.phase ≠ .submitting w

/-- In a history a worker ran the work of a call on some shard, when it had handled some
    updates. -/
def Sees (h : List Moment) (p : Pool) (c : CallId) (w : WorkerId) (shard : Shard)
    (seen : List Message) : Prop :=
  ∃ h₁ m h₂, h = h₁ ++ m :: h₂ ∧ (w, shard) ∈ m.met c ∧ seen = p.updates (handled w h₁)

section Sequences

variable {c : CallId} {job job' : Work}

/-- The work of a call that is put on a queue once stands at one place there. -/
theorem split_unique {first first' last last' : List Message}
    (eq : first ++ .work c job :: last = first' ++ .work c job' :: last')
    (once : (callsOf (first ++ .work c job :: last)).Nodup) : first = first' := by
  induction first generalizing first' with
  | nil =>
      cases first' with
      | nil => rfl
      | cons m rest =>
          rcases List.cons_eq_cons.mp eq with ⟨rfl, eq⟩
          rw [eq] at once
          simp at once
  | cons m rest ih =>
      cases first' with
      | nil =>
          rcases List.cons_eq_cons.mp eq with ⟨rfl, eq⟩
          simp at once
      | cons m' rest' =>
          rcases List.cons_eq_cons.mp eq with ⟨rfl, tail⟩
          refine congrArg _ (ih tail ?_)
          rw [List.cons_append, callsOf, List.filterMap_cons] at once
          cases call : m.call? with
          | none => rwa [call] at once
          | some d =>
              rw [call] at once
              exact (List.nodup_cons.mp once).2

-- What was put on a queue before a moment at which the work of a call was not yet there
-- comes before that work.
theorem isPrefix_of_notMem {first last seen rest : List Message}
    (eq : first ++ last = seen ++ .work c job :: rest) (notMem : c ∉ callsOf first) :
    first <+: seen := by
  rcases List.append_eq_append_iff.mp eq with ⟨more, rfl, _⟩ | ⟨more, rfl, tail⟩
  · exact List.prefix_append first more
  · -- Otherwise the work would be among what was put there first.
    cases more with
    | nil => exact ⟨[], by simp⟩
    | cons m more =>
        rcases List.cons_eq_cons.mp tail with ⟨rfl, _⟩
        simp at notMem

-- What stands before the work of a call was on the queue when the work was.
theorem isPrefix_of_mem {first last seen rest : List Message}
    (eq : first ++ last = seen ++ .work c job :: rest) (mem : c ∈ callsOf first)
    (once : (callsOf (first ++ last)).Nodup) : seen <+: first := by
  rcases List.append_eq_append_iff.mp eq with ⟨more, rfl, tail⟩ | ⟨more, rfl, _⟩
  · -- Otherwise the work would be there once before this place and once at it.
    rw [tail, callsOf_append, callsOf_append, callsOf_work_cons] at once
    have disjoint := (List.nodup_append.mp once).2.2 c mem c (by simp)
    exact absurd rfl disjoint
  · exact List.prefix_append seen more

end Sequences

section Visits

variable {start p : Pool} {h h₁ h₂ : List Moment} {m : Moment} {c : CallId} {w : WorkerId}
  {shard : Shard}

/-- The work that a worker runs stood, in the sequence of all that was ever put on its
    queue, right behind what the worker had handled. -/
theorem Run.enqueued_of_met (run : Run start h p) (alive : p.AllAlive)
    (split : h = h₁ ++ m :: h₂) (met : (w, shard) ∈ m.met c) :
    ∃ job rest, enqueued start w h = handled w h₁ ++ .work c job :: rest := by
  subst split
  rcases run.split with ⟨run₁, _⟩
  rcases queue_of_met met with ⟨_, worker, job, rest, hw, _, queue⟩
  refine ⟨job, rest ++ (m :: h₂).flatMap (Moment.sent w), ?_⟩
  rw [enqueued_append, Run.enqueued_eq run₁ hw (run.allAlive_before alive w worker hw), queue,
    List.append_assoc, List.cons_append]

-- The shard that the work of a call meets has had the handled messages applied.
theorem Run.shard_of_met (run : Run start h p) (alive : p.AllAlive)
    (split : h = h₁ ++ m :: h₂) (met : (w, shard) ∈ m.met c) :
    ∃ first, start.workers[w]? = some first ∧
      shard = replay w first.shard (handled w h₁) := by
  subst split
  rcases run.split with ⟨run₁, _⟩
  rcases queue_of_met met with ⟨_, worker, _, _, hw, rfl, _⟩
  exact Run.shard_eq run₁ hw (run.allAlive_before alive w worker hw)

-- What is put on a queue as the work of a call stands right behind what was put there
-- before.
theorem enqueued_of_sent (split : h = h₁ ++ m :: h₂) (sent : c ∈ callsOf (m.sent w)) :
    ∃ job rest, enqueued start w h = enqueued start w h₁ ++ .work c job :: rest := by
  rcases m with ⟨p, a⟩
  rcases submitting_of_mem_sent sent with ⟨rfl, call, hc, phase⟩
  have one : Moment.sent w ⟨p, .step (.submit c)⟩ = [.work c call.work] := by
    unfold Moment.sent at sent ⊢
    simp only [messageOf?_eq hc] at sent ⊢
    split at sent
    · rename_i target
      rw [if_pos target, Option.toList_some]
    · cases sent
  refine ⟨call.work, h₂.flatMap (Moment.sent w), ?_⟩
  rw [split, enqueued_append, List.flatMap_cons, one, List.singleton_append]

-- A call that lists has the work of a listing.
theorem Run.list_of_intake (run : Run start h p) (fresh : IsFresh start) {call : Call}
    (hc : p.calls[c]? = some call) (listing : call.purpose.form = .listing) :
    ∃ kind, call.work = Work.list kind := by
  induction run generalizing call with
  | start => simp [fresh.calls] at hc
  | next run act ih =>
      rcases (change_of_act? act).callChange hc with ⟨_, begins⟩ | ⟨before, hb, changed⟩
      · cases begins with
        | list => exact ⟨_, rfl⟩
        | delete => cases listing
        | process => cases listing
      · rw [changed.form_eq] at listing
        rw [changed.work_eq]
        exact ih hb listing

/-- The work of listings can be left out of what is applied to a shard. -/
theorem Run.replay_updates (run : Run start h p) (fresh : IsFresh start) (messages : List Message)
    (sent : ∀ m ∈ messages, m ∈ enqueued start w h) (shard : Shard) :
    replay w shard (p.updates messages) = replay w shard messages := by
  induction messages generalizing shard with
  | nil => rfl
  | cons m rest ih =>
      have rest_sent := fun other hm => sent other (List.mem_cons_of_mem m hm)
      by_cases listing : p.isListing m = true
      · -- A listing gives the shard back as it was.
        have left : p.updates (m :: rest) = p.updates rest := by
          rw [updates, List.filter_cons, listing]
          rfl
        have same : m.apply w shard = shard := by
          cases m with
          | metric => cases listing
          | work d job =>
              rcases (run.deliveries fresh).work w d job (sent _ List.mem_cons_self) with
                ⟨call, hd, rfl⟩
              have form : call.purpose.form = .listing := by
                simp only [isListing, Message.call?, hd, Option.bind_some] at listing
                unfold Call.intake? at listing
                split at listing
                · rename_i purpose
                  rw [purpose]
                  rfl
                · cases listing
              rcases run.list_of_intake fresh hd form with ⟨kind, work⟩
              rw [work]
              rfl
        rw [left, ih rest_sent shard, replay, replay, List.foldl_cons, same]
      · have kept : p.updates (m :: rest) = m :: p.updates rest := by
          rw [updates, List.filter_cons, Bool.eq_false_iff.mpr listing]
          rfl
        rw [kept, replay, List.foldl_cons]
        exact ih rest_sent (m.apply w shard)

/-- The parts that a worker has handed over for a listing, cancelled or not, and the one that
    it carries are among those that it has made, in the same order. -/
theorem Run.textsFrom_sublist (run : Run start h p) (fresh : IsFresh start) (alive : p.AllAlive)
    {call : Call} {kind : Kind} (hc : p.calls[c]? = some call)
    (work : call.work = Work.list kind) :
    (textsFrom w (handed c h) ++ p.carried c w).Sublist
      (textsFrom w (partsOf kind (invocations c h))) := by
  induction run generalizing call with
  | start => simp [fresh.calls] at hc
  | @next h p p' a run act ih =>
      have acc := Run.accounts run fresh
      have change := change_of_act? act
      have before := alive.of_act? act
      rw [handed_snoc, textsFrom_append, invocations_snoc, partsOf_append, textsFrom_append]
      rcases change.callChange hc with ⟨same, begins⟩ | ⟨first, hf, changed⟩
      · rcases Run.silent run fresh (Nat.le_of_eq same.symm) with ⟨met, handed, _⟩
        have unknown := acc.carried_of_unknown (Nat.le_of_eq same.symm) w
        rw [met, handed, change.carried_of_begins begins, unknown]
        cases begins <;> exact List.Sublist.refl _
      · have work := changed.work_eq.symm.trans work
        have account := change.carried_append (c := c) (w := w)
          fun worker job rest hw queue => (Run.work_of_queue run fresh hw queue hf).trans work
        -- What is forgone now is missing among what is handed over and what is still carried.
        have kept : (textsFrom w (Moment.handed c ⟨p, a⟩) ++ p'.carried c w).Sublist
            (p.carried c w ++ textsFrom w (partsOf kind (Moment.met c ⟨p, a⟩))) := by
          rw [account]
          exact (List.sublist_append_left _ _).append_right _
        rw [List.append_assoc]
        refine (kept.append_left _).trans ?_
        rw [← List.append_assoc]
        exact (ih before hf work).append_right _

-- A part that is carried or has been handed over comes from a shard that was met there.
theorem Run.mem_partsOf (run : Run start h p) (fresh : IsFresh start) (alive : p.AllAlive)
    {call : Call} {kind : Kind} (hc : p.calls[c]? = some call)
    (work : call.work = Work.list kind) {text : String}
    (ht : text ∈ textsFrom w (handed c h) ++ p.carried c w) :
    text ∈ textsFrom w (partsOf kind (invocations c h)) :=
  (run.textsFrom_sublist fresh alive hc work).subset ht

end Visits

section Pasts

variable {start p : Pool} {h h₁ h₂ : List Moment} {m : Moment} {c d : CallId} {w : WorkerId}
  {shard shard' : Shard} {seen seen' : List Message}

-- What the work of a call meets is the first shard of the worker with the updates applied
-- that it had handled.
theorem Sees.shard_eq (sees : Sees h p c w shard seen) (run : Run start h p)
    (fresh : IsFresh start) (alive : p.AllAlive) :
    ∃ first, start.workers[w]? = some first ∧ shard = replay w first.shard seen := by
  rcases sees with ⟨h₁, m, h₂, split, met, rfl⟩
  rcases run.shard_of_met alive split met with ⟨first, hf, eq⟩
  rcases run.enqueued_of_met alive split met with ⟨job, rest, enqueued_eq⟩
  refine ⟨first, hf, ?_⟩
  rw [run.replay_updates (w := w) fresh, eq]
  intro message hm
  rw [enqueued_eq]
  exact List.mem_append_left _ hm

-- What had been handled comes first in the sequence of all updates.
theorem Sees.isPrefix (sees : Sees h p c w shard seen) (run : Run start h p)
    (alive : p.AllAlive) : seen <+: p.updates (enqueued start w h) := by
  rcases sees with ⟨h₁, m, h₂, split, met, rfl⟩
  rcases run.enqueued_of_met alive split met with ⟨job, rest, eq⟩
  rw [eq]
  exact (List.prefix_append _ _).filter _

-- What had been handled are the updates that were put on the queue before the work was.
theorem Sees.eq_of_sent (sees : Sees h p c w shard seen) (run : Run start h p)
    (fresh : IsFresh start) (alive : p.AllAlive) (split : h = h₁ ++ m :: h₂)
    (sent : c ∈ callsOf (m.sent w)) : seen = p.updates (enqueued start w h₁) := by
  rcases sees with ⟨g₁, g, g₂, same, met, rfl⟩
  have once := (run.deliveries fresh).once w
  rcases run.enqueued_of_met alive same met with ⟨job, rest, eq⟩
  rcases enqueued_of_sent split sent with ⟨job', rest', eq'⟩
  rw [eq] at once
  rw [split_unique (eq.symm.trans eq') once]

-- Only workers run anything.
theorem Sees.lt_size (sees : Sees h p c w shard seen) (run : Run start h p) : w < p.size := by
  rcases sees with ⟨h₁, m, h₂, rfl, met, rfl⟩
  rcases queue_of_met met with ⟨_, worker, _, _, hw, _⟩
  rw [run.size_eq, ← Run.size_eq run.split.1]
  exact lt_size_of_worker hw

-- What was put on the queue before the call was made had been handled.
theorem Sees.updates_before (sees : Sees h p c w shard seen) (run : Run start h p)
    (fresh : IsFresh start) (alive : p.AllAlive) (split : h = h₁ ++ m :: h₂)
    (unknown : m.before.calls.size ≤ c) : p.updates (enqueued start w h₁) <+: seen := by
  rcases sees with ⟨g₁, g, g₂, same, met, rfl⟩
  rcases run.enqueued_of_met alive same met with ⟨job, rest, eq⟩
  subst split
  rw [enqueued_append] at eq
  refine (isPrefix_of_notMem eq fun mem => ?_).filter _
  -- A call that is still to be made is on no queue.
  rcases ((Run.deliveries run.split.1 fresh).given w c).mp mem with ⟨call, hc, _⟩
  exact absurd (lt_size_of_call hc) (Nat.not_lt.mpr unknown)

-- The work of a call that has been put on all queues among living workers has been put on
-- each of them.
theorem Run.mem_enqueued_of_submitted (run : Run start h p) (fresh : IsFresh start)
    (alive : p.AllAlive) (submitted : p.Submitted d) (hw : w < p.size) :
    d ∈ callsOf (enqueued start w h) := by
  rcases submitted with ⟨call, hd, phase⟩
  have given := ((run.accounts fresh).given d call hd).1
  refine ((run.deliveries fresh).given w d).mpr ⟨call, hd, ?_⟩
  cases hp : call.phase with
  | submitting v => exact absurd hp (phase v)
  | refused cause => exact absurd hp (run.not_refused fresh alive hd cause)
  | _ =>
    rw [Call.given, hp] at given
    exact given ▸ hw

-- A call that was on all queues when another one was made does not see more than that one.
theorem Sees.isPrefix_of_submitted (sees : Sees h p c w shard seen)
    (sees' : Sees h p d w shard' seen') (run : Run start h p) (fresh : IsFresh start)
    (alive : p.AllAlive) (split : h = h₁ ++ m :: h₂) (unknown : m.before.calls.size ≤ c)
    (submitted : m.before.Submitted d) : seen' <+: seen := by
  refine List.IsPrefix.trans ?_ (sees.updates_before run fresh alive split unknown)
  have inside := sees.lt_size run
  rcases sees' with ⟨g₁, g, g₂, same, met, rfl⟩
  have once := (run.deliveries fresh).once w
  rcases run.enqueued_of_met alive same met with ⟨job, rest, eq⟩
  subst split
  rw [enqueued_append] at eq once
  have size : p.size = m.before.size := by rw [run.size_eq, Run.size_eq run.split.1]
  have mem := Run.mem_enqueued_of_submitted run.split.1 (w := w) fresh (run.allAlive_before alive)
    submitted (size ▸ inside)
  exact (isPrefix_of_mem eq mem once).filter _

-- A metric that was dispatched is on its queue, as an update.
theorem metric_mem_updates {metric : Metric} (hm : m ∈ h)
    (action : m.action = .dispatch w metric) :
    .metric metric ∈ p.updates (enqueued start w h) := by
  refine List.mem_filter.mpr ⟨List.mem_append_right _ (List.mem_flatMap.mpr ⟨m, hm, ?_⟩), rfl⟩
  simp [Moment.sent, action]

theorem Begun.append_right {a : Action} (begun : Begun h₁ c a) (h₂ : List Moment) :
    Begun (h₁ ++ h₂) c a := by
  rcases begun with ⟨m, hm, rest⟩
  exact ⟨m, List.mem_append_left _ hm, rest⟩

-- A deletion that has been put on all queues is on each of them, as an update.
theorem Run.delete_mem_updates {kind : Kind} {names : List String} {cancelled : Bool}
    (run : Run start (h₁ ++ m :: h₂) p) (fresh : IsFresh start) (alive : p.AllAlive)
    (begun : Begun h₁ d (.delete kind names cancelled)) (submitted : m.before.Submitted d)
    (hw : w < p.size) :
    .work d (Work.delete kind names) ∈ p.updates (enqueued start w h₁) := by
  have run₁ := run.split.1
  have size : p.size = m.before.size := by rw [run.size_eq, Run.size_eq run₁]
  have mem := Run.mem_enqueued_of_submitted run₁ (w := w) fresh (run.allAlive_before alive)
    submitted (size ▸ hw)
  rcases List.mem_filterMap.mp mem with ⟨message, hm, same⟩
  cases message with
  | metric => cases same
  | work e job =>
      cases same
      rcases (Run.deliveries run₁ fresh).work w d job hm with ⟨call, hd, rfl⟩
      rw [(Run.deletion_of_begun run₁ begun hd).1] at hm
      refine List.mem_filter.mpr ⟨hm, ?_⟩
      -- The call is not a listing in the end either.
      rcases run.of_begun (begun.append_right (m :: h₂)) with ⟨_, last, _, hl, _⟩
      have purpose := (run.deletion_of_begun (begun.append_right (m :: h₂)) hl).2
      simp [isListing, Message.call?, hl, Call.intake?, purpose]

end Pasts

/-- A worker is given two metrics and a deletion, whose caller is cancelled before the worker
    has done anything. -/
def cancelledDeletion : List Action :=
  [.dispatch 0 ⟨"a", .empty, .counter 2⟩, .dispatch 0 ⟨"b", .empty, .counter 1⟩,
    .delete .counter ["a"] false, .step (.submit 0), .step (.submit 0), .cancel 0,
    .step (.desist 0)]

/-- The worker then gets to the work of a listing. -/
def laterListing : List Action :=
  List.map Action.step
    [.submit 1, .submit 1, .take 0, .take 0, .take 0, .dropWork 0, .finish 0, .signal 0, .take 0,
      .dropWork 0, .handOver 0]

end Pool

end ShardConsole
