import ShardConsole.Proofs.Pool.ConcurrentDeletions
import ShardConsole.Proofs.Pool.Histories
import ShardConsole.Proofs.Pool.Listings

/-!
# What Leaves No Trace

Two runs of a pool that have little in common but what changes shards.

What a shard goes through is determined by the updates on the queue of its worker, and by
nothing else. If the queues of two runs have the same updates in the same order, then the shards
go through the same states, and each deletion meets the same shards and counts the same, however
many listings there are in one run that the other one does not have, wherever they stand on the
queues and whatever becomes of their callers.

The four collections of a shard do not depend on each other either. A listing of one kind depends
only on the metrics and the deletions of that kind that are before it on the queues. `AlikeFor`
says of two queues that they can be made the same by leaving out what does not matter to a kind.

The calls of two runs have different numbers, because one run may have calls that the other one
does not have. So updates are compared up to the number of their call, which `renumber` changes.

## Main definitions

* `Message.renumber`: The same message of a call with another number.
* `SameUpdates`: The queues of two runs have the same updates in the same order.
* `Answered`: A call that nobody has cancelled has a result.
* `transitions`: The states before and after each update that a worker handles.
* `Foreign`: A message that does not change the collection of a kind.
* `AlikeFor`: Messages that are the same but for foreign ones.
* `before`: The messages before the work of a call.

## Theorems

* `Run.update_cases`: An update is a metric, a deletion, or work of somebody's own.
* `Run.transitions_eq`: A shard goes through what the handled updates make of it.
* `Run.transitions_undisturbed`: The same updates lead through the same states.
* `Run.deletion_undisturbed`: A deletion behind the same updates counts the same.
* `AlikeFor.collection_eq`: Foreign messages leave the collection of a kind alone.
* `Run.listing_undisturbed`: A listing behind alike messages has the same parts.
-/

namespace ShardConsole

namespace Shard

variable {s t : Shard} {kind other : Kind}

-- What a change makes of a collection depends on that collection only.
theorem collection_modify_congr (same : s.collection kind = t.collection kind)
    (change : Collection other.Total → Collection other.Total) :
    (s.modify other change).collection kind = (t.modify other change).collection kind := by
  by_cases hk : kind = other
  · subst hk
    rw [collection_modify_self, collection_modify_self, same]
  · rw [collection_modify_of_ne s hk, collection_modify_of_ne t hk, same]

theorem collection_deleteAll_congr (same : s.collection kind = t.collection kind)
    (names : List String) :
    (s.deleteAll other names).1.collection kind = (t.deleteAll other names).1.collection kind := by
  induction names generalizing s t with
  | nil => exact same
  | cons name rest ih =>
      rw [deleteAll_cons, deleteAll_cons]
      exact ih (collection_modify_congr same _)

theorem collection_deleteAll_of_ne (s : Shard) (ne : kind ≠ other) (names : List String) :
    (s.deleteAll other names).1.collection kind = s.collection kind := by
  induction names generalizing s with
  | nil => rfl
  | cons name rest ih =>
      rw [deleteAll_cons]
      exact (ih (s.delete other name)).trans (collection_modify_of_ne s ne _)

end Shard

namespace Pool

/-- The same message of a call with another number. -/
def Message.renumber (twin : CallId → CallId) : Message → Message
  | .metric m => .metric m
  | .work c job => .work (twin c) job

/-- The queues of two runs from one pool have the same updates in the same order, up to the
    numbers of their calls. -/
def SameUpdates (twin : CallId → CallId) (start : Pool) (h : List Moment) (p : Pool)
    (h' : List Moment) (p' : Pool) : Prop :=
  ∀ w < start.size, p'.updates (enqueued start w h') =
    (p.updates (enqueued start w h)).map (Message.renumber twin)

/-- A call that nobody has cancelled has a result. -/
def Answered (p : Pool) (c : CallId) (result : Except Unavailable Reply) : Prop :=
  ∃ call, p.calls[c]? = some call ∧ call.cancelled = false ∧ p.result? c = some result

/-- The states of a shard before and after each of the messages that its worker handles one after
    the other. -/
def path (w : WorkerId) (shard : Shard) : List Message → List (Shard × Shard)
  | [] => []
  | m :: rest => (shard, m.apply w shard) :: path w (m.apply w shard) rest

/-- The states of the shard of a worker before and after a moment at which it handles an
    update. -/
def Moment.transitions (w : WorkerId) (m : Moment) : List (Shard × Shard) :=
  (m.before.updates (m.handled w)).map fun _ =>
    (m.before.shardOf w, ((m.before.act? m.action).getD m.before).shardOf w)

/-- The states of the shard of a worker before and after each update that it handles. -/
def transitions (w : WorkerId) (h : List Moment) : List (Shard × Shard) :=
  h.flatMap (Moment.transitions w)

/-- A message that does not change the collection of a kind: a metric or a deletion of another
    kind, or any listing. -/
inductive Foreign (kind : Kind) : Message → Prop
  | metric {m : Metric} (other : m.kind ≠ kind) : Foreign kind (.metric m)
  | deletion {c : CallId} {k : Kind} {names : List String} (other : k ≠ kind) :
      Foreign kind (.work c (Work.delete k names))
  | listing {c : CallId} {k : Kind} : Foreign kind (.work c (Work.list k))

/-- Messages that are the same, up to the numbers of their calls, but for some that are foreign to
    a kind. -/
inductive AlikeFor (kind : Kind) : List Message → List Message → Prop
  | nil : AlikeFor kind [] []
  | metric {first last : List Message} (m : Metric) (rest : AlikeFor kind first last) :
      AlikeFor kind (.metric m :: first) (.metric m :: last)
  | deletion {first last : List Message} (c c' : CallId) (k : Kind) (names : List String)
      (rest : AlikeFor kind first last) :
      AlikeFor kind (.work c (Work.delete k names) :: first)
        (.work c' (Work.delete k names) :: last)
  | left {first last : List Message} {m : Message} (foreign : Foreign kind m)
      (rest : AlikeFor kind first last) : AlikeFor kind (m :: first) last
  | right {first last : List Message} {m : Message} (foreign : Foreign kind m)
      (rest : AlikeFor kind first last) : AlikeFor kind first (m :: last)

/-- The messages before the work of a call. -/
def before (c : CallId) (messages : List Message) : List Message :=
  messages.takeWhile fun m => m.call? ≠ some c

section Updates

variable {start p p' : Pool} {h : List Moment} {a : Action} {c : CallId} {w : WorkerId}
  {call : Call} {job : Work} {shard : Shard}

theorem isListing_work (hc : p.calls[c]? = some call) :
    p.isListing (.work c job) = decide (call.purpose.form = .listing) := by
  simp only [isListing, Message.call?, hc, Option.bind_some, Call.intake?]
  cases call.purpose <;> rfl

@[simp] theorem updates_append (first last : List Message) :
    p.updates (first ++ last) = p.updates first ++ p.updates last :=
  List.filter_append ..

-- Whether a message is an update is known as soon as its call has been made.
theorem Change.updates_eq (change : Change p a p') {messages : List Message}
    (known : ∀ c job, .work c job ∈ messages → ∃ call, p.calls[c]? = some call) :
    p'.updates messages = p.updates messages := by
  refine List.filter_congr fun m hm => ?_
  cases m with
  | metric => rfl
  | work c job =>
      rcases known c job hm with ⟨call, hc⟩
      rcases change.callChange_of hc with ⟨call', hc', changed⟩
      rw [isListing_work hc, isListing_work hc', changed.form_eq]

/-- An update is a metric, or the work of a deletion, or work of somebody's own. -/
theorem Run.update_cases (run : Run start h p) (fresh : IsFresh start) {m : Message}
    (mem : m ∈ p.updates (enqueued start w h)) : (∃ metric, m = .metric metric) ∨
      (∃ c kind names cancelled, m = .work c (Work.delete kind names) ∧
        Begun h c (.delete kind names cancelled)) ∨
      ∃ c job, m = .work c job ∧ Begun h c (.process job) := by
  rcases List.mem_filter.mp mem with ⟨queued, counts⟩
  cases m with
  | metric metric => exact Or.inl ⟨metric, rfl⟩
  | work c job =>
      rcases (run.deliveries fresh).work w c job queued with ⟨call, hc, rfl⟩
      rcases run.begun_of_call fresh hc with ⟨a, begun⟩
      rcases run.of_begun begun with ⟨first, _, begins, hl, work, form⟩
      cases hc.symm.trans hl
      rw [isListing_work hc, form] at counts
      rw [work]
      cases begins with
      | list => cases counts
      | delete => exact Or.inr (Or.inl ⟨c, _, _, _, rfl, begun⟩)
      | process => exact Or.inr (Or.inr ⟨c, _, rfl, begun⟩)

-- What a worker has handled has been put on its queue before all else.
theorem Run.handled_prefix (run : Run start h p) (alive : p.AllAlive) (w : WorkerId) :
    handled w h <+: enqueued start w h := by
  cases hw : p.workers[w]? with
  | none =>
      rw [run.handled_eq_nil hw]
      exact List.nil_prefix
  | some worker =>
      rw [run.enqueued_eq hw (alive w worker hw)]
      exact List.prefix_append _ _

-- What a worker handles at a moment is on its queue.
theorem exists_worker_of_handled {m : Message} (mem : m ∈ Moment.handled w ⟨p, a⟩) :
    ∃ worker, p.workers[w]? = some worker ∧ m ∈ worker.queue := by
  have queued : m ∈ p.queueOf w := by
    unfold Moment.handled at mem
    split at mem
    · split at mem
      · exact List.mem_of_mem_head? (Option.mem_toList.mp mem)
      · cases mem
    · cases mem
  cases hw : p.workers[w]? with
  | none => simp [queueOf, hw] at queued
  | some worker => exact ⟨worker, rfl, queueOf_eq hw ▸ queued⟩

theorem transitions_snoc (m : Moment) :
    transitions w (h ++ [m]) = transitions w h ++ m.transitions w := by
  simp only [transitions, List.flatMap_append, List.flatMap_singleton]

theorem path_append (first last : List Message) : path w shard (first ++ last) =
    path w shard first ++ path w (replay w shard first) last := by
  induction first generalizing shard with
  | nil => rfl
  | cons m rest ih => rw [List.cons_append, path, path, ih, replay, replay, List.foldl_cons,
      List.cons_append]

-- What messages make of a shard has nothing to do with the numbers of their calls.
theorem replay_renumber (twin : CallId → CallId) (messages : List Message) :
    replay w shard (messages.map (Message.renumber twin)) = replay w shard messages := by
  rw [replay, replay, List.foldl_map]
  congr 1
  funext shard m
  cases m <;> rfl

theorem path_renumber (twin : CallId → CallId) (messages : List Message) :
    path w shard (messages.map (Message.renumber twin)) = path w shard messages := by
  induction messages generalizing shard with
  | nil => rfl
  | cons m rest ih =>
      rw [List.map_cons, path, path, ih]
      cases m <;> rfl

theorem path_prefix {first last : List Message} (some : first <+: last) :
    path w shard first <+: path w shard last := by
  rcases some with ⟨more, rfl⟩
  rw [path_append]
  exact List.prefix_append _ _

-- The states of a shard at a moment are those that the messages lead through that its worker
-- handles then.
theorem Change.transitions_eq (change : Change p a p') (act : p.act? a = some p')
    (alive : p'.AllAlive) : Moment.transitions w ⟨p, a⟩ =
      path w (p.shardOf w) (p.updates (Moment.handled w ⟨p, a⟩)) := by
  have after : (p.act? a).getD p = p' := by rw [act, Option.getD_some]
  rw [Moment.transitions, after]
  cases hw : p'.workers[w]? with
  | none =>
      have none := Run.handled_eq_nil (Trace.single act) hw
      rw [handled, List.flatMap_singleton] at none
      rw [none]
      rfl
  | some worker' =>
      rcases change.workerChange hw with ⟨worker, hb, changed⟩
      cases changed with
      | stay _ _ none =>
          rw [none]
          rfl
      | @handle message _ shard one =>
          rw [one]
          by_cases counts : p.isListing message = true
          · simp [updates, counts, path]
          · simp [updates, counts, path, shardOf_eq hw, shardOf_eq hb, shard]
      | die _ dead => exact absurd (dead.symm.trans (alive w worker' hw)) Bool.false_ne_true

-- The worker of a pool has the shard that the updates make of its first one that it has handled.
theorem Run.shardOf_eq (run : Run start h p) (fresh : IsFresh start) (alive : p.AllAlive)
    (w : WorkerId) : p.shardOf w = replay w (start.shardOf w) (p.updates (handled w h)) := by
  rw [run.replay_updates fresh _ fun m mem => (run.handled_prefix alive w).subset mem]
  cases hw : p.workers[w]? with
  | none =>
      have none : start.workers[w]? = none := by
        rw [Array.getElem?_eq_none_iff] at hw ⊢
        exact Nat.le_of_eq run.size_eq.symm |>.trans hw
      rw [run.handled_eq_nil hw, shardOf, shardOf, hw, none]
      rfl
  | some worker =>
      rcases run.shard_eq hw (alive w worker hw) with ⟨first, hf, shard⟩
      rw [Pool.shardOf_eq hw, Pool.shardOf_eq hf, shard]

/-- The shard of a worker goes through what the updates make of it that the worker handles. -/
theorem Run.transitions_eq (run : Run start h p) (fresh : IsFresh start) (alive : p.AllAlive) :
    transitions w h = path w (start.shardOf w) (p.updates (handled w h)) := by
  induction run with
  | start => rfl
  | @next h p p' a run act ih =>
      have before := alive.of_act? act
      have change := change_of_act? act
      have known : ∀ c job, .work c job ∈ handled w (h ++ [⟨p, a⟩]) →
          ∃ call, p.calls[c]? = some call := by
        intro c job mem
        have queued : .work c job ∈ enqueued start w h := by
          rw [handled_snoc, List.mem_append] at mem
          rcases mem with earlier | now
          · exact (Run.handled_prefix run before w).subset earlier
          · rcases exists_worker_of_handled now with ⟨worker, hw, queued⟩
            exact Run.mem_enqueued run hw queued
        rcases (Run.deliveries run fresh).work w c job queued with ⟨call, hc, _⟩
        exact ⟨call, hc⟩
      rw [change.updates_eq known, handled_snoc, updates_append, path_append, transitions_snoc,
        ih before, change.transitions_eq act alive, Run.shardOf_eq run fresh before]

end Updates

section Disturbances

variable {start p p' : Pool} {h h' : List Moment} {c d l l' : CallId} {w : WorkerId}
  {call call' : Call} {shard shard' : Shard} {seen seen' : List Message}
  {twin : CallId → CallId} {kind : Kind} {result result' : Except Unavailable Reply}

-- A worker on whose queue no update waits has handled all that there are.
theorem Run.updates_handled (run : Run start h p) (alive : p.AllAlive) (hw : w < p.size)
    (none : p.updates (p.queueOf w) = []) :
    p.updates (handled w h) = p.updates (enqueued start w h) := by
  have worker : p.workers[w]? = some p.workers[w] := Array.getElem?_eq_getElem hw
  rw [queueOf_eq worker] at none
  rw [run.enqueued_eq worker (alive w _ worker), updates_append, none, List.append_nil]

/-- The same updates lead through the same states: in the run that has come less far a shard has
    gone through the first ones of the states that it has gone through in the other run, and when
    no update waits on the queues of its worker, it has gone through the same in both. -/
theorem Run.transitions_undisturbed (run : Run start h p) (run' : Run start h' p')
    (fresh : IsFresh start) (alive : p.AllAlive) (alive' : p'.AllAlive)
    (order : SameUpdates twin start h p h' p') (inside : w < start.size) :
    (transitions w h <+: transitions w h' ∨ transitions w h' <+: transitions w h) ∧
      (p.updates (p.queueOf w) = [] → p'.updates (p'.queueOf w) = [] →
        transitions w h = transitions w h') := by
  have first := run.transitions_eq (w := w) fresh alive
  have last := run'.transitions_eq (w := w) fresh alive'
  constructor
  · -- Both are the beginning of what all updates together lead through.
    have whole : transitions w h <+: path w (start.shardOf w) (p.updates (enqueued start w h)) :=
      first ▸ path_prefix ((run.handled_prefix alive w).filter _)
    have whole' :
        transitions w h' <+: path w (start.shardOf w) (p.updates (enqueued start w h)) := by
      have also :
          transitions w h' <+: path w (start.shardOf w) (p'.updates (enqueued start w h')) :=
        last ▸ path_prefix ((run'.handled_prefix alive' w).filter _)
      rwa [order w inside, path_renumber] at also
    exact List.prefix_or_prefix_of_prefix whole whole'
  · intro none none'
    rw [first, last, run.updates_handled alive (run.size_eq ▸ inside) none,
      run'.updates_handled alive' (run'.size_eq ▸ inside) none', order w inside, path_renumber]

-- What a call that is no listing has met stands in front of its work among the updates.
theorem Sees.updates_eq (sees : Sees h p d w shard seen) (run : Run start h p)
    (alive : p.AllAlive) (hd : p.calls[d]? = some call)
    (counts : call.purpose.form ≠ .listing) :
    ∃ job rest, p.updates (enqueued start w h) = seen ++ .work d job :: rest := by
  rcases sees with ⟨h₁, m, h₂, split, met, rfl⟩
  rcases run.enqueued_of_met alive split met with ⟨job, rest, eq⟩
  refine ⟨job, p.updates rest, ?_⟩
  rw [eq, updates_append, updates, updates, List.filter_cons]
  simp [isListing_work hd, counts, updates]

-- The work of a call is there once among the updates on a queue.
theorem Run.nodup_updates (run : Run start h p) (fresh : IsFresh start) (w : WorkerId) :
    (callsOf (p.updates (enqueued start w h))).Nodup :=
  ((run.deliveries fresh).once w).sublist (List.filter_sublist.filterMap _)

-- Behind the same updates a call meets the same shard on a worker.
theorem Sees.eq_of_order (sees : Sees h p d w shard seen)
    (sees' : Sees h' p' (twin d) w shard' seen') (run : Run start h p) (run' : Run start h' p')
    (fresh : IsFresh start) (alive : p.AllAlive) (alive' : p'.AllAlive)
    (order : SameUpdates twin start h p h' p') (hd : p.calls[d]? = some call)
    (counts : call.purpose.form ≠ .listing)
    (hd' : p'.calls[twin d]? = some call') (counts' : call'.purpose.form ≠ .listing) :
    shard = shard' := by
  rcases sees.shard_eq run fresh alive with ⟨first, hf, eq⟩
  rcases sees'.shard_eq run' fresh alive' with ⟨first', hf', eq'⟩
  cases hf.symm.trans hf'
  rcases sees.updates_eq run alive hd counts with ⟨job, rest, whole⟩
  rcases sees'.updates_eq run' alive' hd' counts' with ⟨job', rest', whole'⟩
  have once := run'.nodup_updates fresh w
  have order := order w (lt_size_of_worker hf)
  rw [whole'] at order once
  rw [whole, List.map_append, List.map_cons, Message.renumber] at order
  rw [split_unique order once, replay_renumber] at eq'
  exact eq.trans eq'.symm

-- What everybody has is the same, in another order, if the same people have it and it is the same
-- for each of them.
theorem perm_of_agree {β : Type} {first last : List (WorkerId × β)}
    (nodup : (first.map Prod.fst).Nodup)
    (everyone : (first.map Prod.fst).Perm (last.map Prod.fst))
    (agree : ∀ w x y, (w, x) ∈ first → (w, y) ∈ last → x = y) : first.Perm last := by
  have nodup' := everyone.nodup_iff.mp nodup
  rw [List.perm_ext_iff_of_nodup (.of_map _ nodup) (.of_map _ nodup')]
  rintro ⟨w, x⟩
  constructor
  · intro mem
    rcases List.mem_map.mp (everyone.subset (List.mem_map_of_mem mem)) with ⟨⟨_, y⟩, there, rfl⟩
    rwa [agree _ _ _ mem there]
  · intro mem
    rcases List.mem_map.mp (everyone.symm.subset (List.mem_map_of_mem mem)) with
      ⟨⟨_, y⟩, there, rfl⟩
    rwa [← agree _ _ _ there mem]

-- Whatever a call has met it has seen.
theorem exists_sees {visit : WorkerId × Shard} (mem : visit ∈ invocations d h) (p : Pool) :
    ∃ seen, Sees h p d visit.1 visit.2 seen := by
  rcases List.mem_flatMap.mp mem with ⟨m, hm, met⟩
  rcases List.append_of_mem hm with ⟨h₁, h₂, split⟩
  exact ⟨_, h₁, m, h₂, split, met, rfl⟩

/-- A deletion that stands behind the same updates on every queue meets the same shards, and if
    nobody cancels it, it counts the same. -/
theorem Run.deletion_undisturbed {names : List String} {flag flag' : Bool}
    (run : Run start h p) (run' : Run start h' p') (fresh : IsFresh start) (alive : p.AllAlive)
    (alive' : p'.AllAlive) (order : SameUpdates twin start h p h' p')
    (begun : Begun h d (.delete kind names flag))
    (begun' : Begun h' (twin d) (.delete kind names flag'))
    (answered : p.Answered d result) (answered' : p'.Answered (twin d) result') :
    (invocations d h).Perm (invocations (twin d) h') ∧ result = result' ∧
      ∃ count, result = .ok (.removed count) := by
  rcases answered with ⟨call, hd, uncancelled, hr⟩
  rcases answered' with ⟨call', hd', uncancelled', hr'⟩
  have counts : call.purpose.form ≠ .listing := by
    rw [(run.deletion_of_begun begun hd).2]
    simp [Purpose.form]
  have counts' : call'.purpose.form ≠ .listing := by
    rw [(run'.deletion_of_begun begun' hd').2]
    simp [Purpose.form]
  have everyone := run.invocations_of_result fresh alive hd uncancelled hr
  have everyone' := run'.invocations_of_result fresh alive' hd' uncancelled' hr'
  rw [run.size_eq] at everyone
  rw [run'.size_eq] at everyone'
  have same : (invocations d h).Perm (invocations (twin d) h') := by
    refine perm_of_agree (run.invocations_nodup fresh alive d) (everyone.trans everyone'.symm) ?_
    intro w shard shard' mem mem'
    rcases exists_sees mem p with ⟨seen, sees⟩
    rcases exists_sees mem' p' with ⟨seen', sees'⟩
    exact sees.eq_of_order sees' run run' fresh alive alive' order hd counts hd' counts'
  have count := run.removed_of_result fresh alive begun hd uncancelled hr
  have count' := run'.removed_of_result fresh alive' begun' hd' uncancelled' hr'
  refine ⟨same, ?_, _, count⟩
  rw [count, count', (same.map _).sum_eq]

end Disturbances

section Kinds

variable {start p p' : Pool} {h h' : List Moment} {l l' : CallId} {w : WorkerId}
  {call call' : Call} {shard shard' : Shard} {first last : List Message} {kind : Kind}
  {result result' : Except Unavailable Reply}

theorem before_eq {job : Work} {rest : List Message} (fresh : l ∉ callsOf first) :
    before l (first ++ .work l job :: rest) = first := by
  rw [before, List.takeWhile_append_of_pos, List.takeWhile_cons]
  · simp [Message.call?]
  · intro m hm
    refine decide_eq_true fun same => fresh ?_
    exact List.mem_filterMap.mpr ⟨m, hm, same⟩

theorem Foreign.collection_eq {m : Message} (foreign : Foreign kind m) (shard : Shard) :
    (m.apply w shard).collection kind = shard.collection kind := by
  cases foreign with
  | metric other => exact Shard.collection_modify_of_ne shard (Ne.symm other) _
  | deletion other => exact Shard.collection_deleteAll_of_ne shard (Ne.symm other) _
  | listing => rfl

/-- What is alike for a kind makes the same of its collection. -/
theorem AlikeFor.collection_eq (alike : AlikeFor kind first last)
    (same : shard.collection kind = shard'.collection kind) :
    (replay w shard first).collection kind = (replay w shard' last).collection kind := by
  induction alike generalizing shard shard' with
  | nil => exact same
  | metric m rest ih => exact ih (Shard.collection_modify_congr same _)
  | deletion c c' k names rest ih => exact ih (Shard.collection_deleteAll_congr same names)
  | left foreign rest ih => exact ih ((foreign.collection_eq shard).trans same)
  | right foreign rest ih => exact ih (same.trans (foreign.collection_eq shard').symm)

-- The work of a call meets what the messages before it have made of a shard.
theorem Run.shard_of_before (run : Run start h p) (fresh : IsFresh start) (alive : p.AllAlive)
    (mem : (w, shard) ∈ invocations l h) : ∃ worker, start.workers[w]? = some worker ∧
      shard = replay w worker.shard (before l (enqueued start w h)) := by
  rcases List.mem_flatMap.mp mem with ⟨m, hm, met⟩
  rcases List.append_of_mem hm with ⟨h₁, h₂, split⟩
  rcases run.shard_of_met alive split met with ⟨worker, hw, eq⟩
  rcases run.enqueued_of_met alive split met with ⟨job, rest, whole⟩
  have once := (run.deliveries fresh).once w
  rw [whole, callsOf_append, callsOf_work_cons] at once
  have absent : l ∉ callsOf (handled w h₁) := fun earlier =>
    (List.nodup_append.mp once).2.2 l earlier l List.mem_cons_self rfl
  exact ⟨worker, hw, by rw [whole, before_eq absent, eq]⟩

/-- A listing that stands behind messages that are alike for its kind on every queue has the same
    parts, in some order, if nobody cancels it, and returns what they come to. -/
theorem Run.listing_undisturbed {capacity capacity' : Nat} {flag flag' : Bool}
    (run : Run start h p) (run' : Run start h' p') (fresh : IsFresh start) (alive : p.AllAlive)
    (alive' : p'.AllAlive)
    (alike : ∀ w < start.size,
      AlikeFor kind (before l (enqueued start w h)) (before l' (enqueued start w h')))
    (begun : Begun h l (.list capacity kind flag))
    (begun' : Begun h' l' (.list capacity' kind flag'))
    (answered : p.Answered l result) (answered' : p'.Answered l' result') :
    (received l h).Perm (received l' h') ∧
      result = .ok (.listing (String.join (received l h))) ∧
        result' = .ok (.listing (String.join (received l' h'))) := by
  rcases answered with ⟨call, hl, uncancelled, hr⟩
  rcases answered' with ⟨call', hl', uncancelled', hr'⟩
  rcases run.parts_of_result fresh alive begun hl uncancelled hr with ⟨made, taken, text⟩
  rcases run'.parts_of_result fresh alive' begun' hl' uncancelled' hr' with ⟨made', taken', text'⟩
  have everyone := run.invocations_of_result fresh alive hl uncancelled hr
  have everyone' := run'.invocations_of_result fresh alive' hl' uncancelled' hr'
  rw [run.size_eq] at everyone
  rw [run'.size_eq] at everyone'
  refine ⟨?_, text, text'⟩
  rw [← taken, ← taken']
  refine (made.trans (.trans ?_ made'.symm)).map Prod.snd
  -- The shards need not be the same, but what is to be seen of them is.
  refine List.Perm.filter _ (perm_of_agree ?_ ?_ ?_)
  · rw [List.map_map]
    exact run.invocations_nodup fresh alive l
  · rw [List.map_map, List.map_map]
    exact everyone.trans everyone'.symm
  · intro w text text' mem mem'
    rcases List.mem_map.mp mem with ⟨⟨v, shard⟩, visit, same⟩
    rcases List.mem_map.mp mem' with ⟨⟨v', shard'⟩, visit', same'⟩
    cases same
    cases same'
    rcases run.shard_of_before fresh alive visit with ⟨worker, hw, eq⟩
    rcases run'.shard_of_before fresh alive' visit' with ⟨_, hw', eq'⟩
    cases hw.symm.trans hw'
    have first : worker.shard.collection kind = worker.shard.collection kind := rfl
    have same := (alike v (lt_size_of_worker hw)).collection_eq (w := v) first
    rw [← eq, ← eq'] at same
    rw [Shard.text, Shard.text, Shard.render, Shard.render, same]

end Kinds

end Pool

end ShardConsole
