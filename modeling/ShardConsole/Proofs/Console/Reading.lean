import ShardConsole.Proofs.Console.Rest
import ShardConsole.Proofs.Pool.Interference

/-!
# Reading Leaves No Trace

Looking at the metrics does not interfere with anybody who changes them.

Only metrics and deletions change shards, and they come from producers and from the commands that
delete. Whatever else the operators do, help, statistics and listings, blank lines and mistakes,
puts no update on a queue. So two runs of a console may differ in all of that, in any number of
sessions, cancelled or not: as long as each queue has the same updates in the same order, the
shards go through the same states and every deletion counts the same.

A listing is disturbed by other updates, of course, but not by those of other kinds.

## Main definitions

* `Writes`: The messages that may change a shard, and where they come from.

## Theorems

* `Run.begun_cases`: A call is made by a command of a session, or from elsewhere.
* `Run.writes_of_update`: What comes to a queue as an update comes from a producer or a deletion.
* `Run.reading_leaves_no_trace`: Reading does not interfere.
-/

namespace ShardConsole

namespace Console

open Pool (CallId WorkerId Work enqueued invocations received transitions before Begun AlikeFor
  SameUpdates)

/-- The messages that may change a shard: metrics, the work of the commands that delete, and what
    somebody other than a session asks for. -/
inductive Writes (h : List Moment) : Pool.Message → Prop
  | metric (m : Metric) : Writes h (.metric m)
  | command {s : SessionId} {i : Nat} {kind : Kind} {names : List String} {call : CallId}
      (begun : Begins h s i (.delete kind names) (.called call)) :
      Writes h (.work call (Work.delete kind names))
  | elsewhere {m : Moment} {request : Pool.Action} {made : Pool.Call} (hm : m ∈ h)
      (asked : m.action = .pool request) (begins : request.Begins made) :
      Writes h (.work m.before.pool.calls.size made.work)

section Reading

variable {start start' c c' : Console} {h h' : List Moment} {w : WorkerId} {call : CallId}
  {request : Pool.Action} {message : Pool.Message}

-- Whoever cancels a session makes no call.
theorem not_begins_of_cancelling {s : SessionId} {made : Pool.Call}
    (mem : request ∈ c.askedByCancelling s) : ¬ request.Begins made := by
  rw [askedByCancelling, Option.mem_toList, Option.map_eq_some_iff] at mem
  rcases mem with ⟨call, _, rfl⟩
  rintro ⟨⟩

/-- A call of the pool is made from elsewhere, or by the command of a session. -/
theorem Run.begun_cases (run : Run start h c) (begun : Begun (poolHistory h) call request) :
    (∃ m ∈ h, m.action = .pool request ∧ m.before.pool.calls.size = call) ∨
      ∃ s i command d cancelled, Begins h s i command (.called call) ∧
        requestOf d command cancelled = some request := by
  rcases begun with ⟨m', mem, rfl, rfl, made, begins⟩
  rcases List.mem_flatMap.mp mem with ⟨⟨before, action⟩, hm, now⟩
  rcases List.append_of_mem hm with ⟨h₁, h₂, split⟩
  have whole := run
  rw [split] at whole
  rcases whole.split with ⟨_, next, act, _⟩
  have wanted := List.mem_map_of_mem (f := Trace.Moment.action) now
  rw [poolHistoryAt, Pool.actions_through] at wanted
  cases change_of_react? act with
  | pool =>
      cases List.mem_singleton.mp now
      exact Or.inl ⟨_, hm, rfl, rfl⟩
  | poolStep =>
      cases List.mem_singleton.mp now
      cases begins
  | @called s seat command request pool hs free stage asks act execution =>
      rw [poolHistoryAt, asked_of_called hs stage asks execution] at now
      cases List.mem_singleton.mp now
      exact Or.inr ⟨s, _, command, before, _, .begin split rfl rfl hs free stage
        (by rw [execution]), asks⟩
  | done hs _ stage execution =>
      rw [asked_of_no_call hs stage execution (by simp)] at wanted
      cases wanted
  | broken hs _ stage execution =>
      rw [asked_of_no_call hs stage execution (by simp)] at wanted
      cases wanted
  | cancelled => exact absurd begins (not_begins_of_cancelling wanted)
  | shutDown =>
      rcases List.mem_flatMap.mp wanted with ⟨s, _, wanted⟩
      exact absurd begins (not_begins_of_cancelling wanted)
  | _ => cases wanted

/-- What comes to a queue as an update is a metric, or the work of a command that deletes, or what
    somebody other than a session asks for. -/
theorem Run.writes_of_update (run : Run start h c) (fresh : start.IsFresh)
    (mem : message ∈ c.pool.updates (enqueued start.pool w (poolHistory h))) :
    Writes h message := by
  rcases run.pool.update_cases fresh.pool mem with
    ⟨metric, rfl⟩ | ⟨call, kind, names, cancelled, rfl, begun⟩ | ⟨call, job, rfl, begun⟩
  · exact .metric metric
  · rcases run.begun_cases begun with
      ⟨m, hm, asks, rfl⟩ | ⟨s, i, command, d, flag, begins, asks⟩
    · exact .elsewhere hm asks .delete
    · cases command <;> cases asks
      exact .command begins
  · rcases run.begun_cases begun with
      ⟨m, hm, asks, rfl⟩ | ⟨s, i, command, d, flag, begins, asks⟩
    · exact .elsewhere hm asks .process
    · cases command <;> cases asks

/-- Reading does not interfere. Only metrics and deletions are updates, whatever the operators do
    besides. If two runs among living workers start with the same pool and have the same updates
    in the same order on every queue, then every shard goes through the same states, as far as
    its worker has come, and every deletion that nobody cancels meets the same shards and counts
    the same in both. A listing that nobody cancels has the same parts in both, in some order, as
    long as the queues before it are the same but for messages that are foreign to its kind.
    Calls that nobody abandons do return: they have results when nothing more can happen and
    nobody is held at a gate. -/
theorem Run.reading_leaves_no_trace (run : Run start h c) (run' : Run start' h' c')
    (fresh : start.IsFresh) (same : start'.pool = start.pool) (alive : c.pool.AllAlive)
    (alive' : c'.pool.AllAlive) :
    (∀ w, ∀ message ∈ c.pool.updates (enqueued start.pool w (poolHistory h)), Writes h message) ∧
    (∀ twin, SameUpdates twin start.pool (poolHistory h) c.pool (poolHistory h') c'.pool →
      (∀ w < start.pool.size,
        (transitions w (poolHistory h) <+: transitions w (poolHistory h') ∨
          transitions w (poolHistory h') <+: transitions w (poolHistory h)) ∧
        (c.pool.updates (c.pool.queueOf w) = [] → c'.pool.updates (c'.pool.queueOf w) = [] →
          transitions w (poolHistory h) = transitions w (poolHistory h'))) ∧
      ∀ call kind names flag flag' result result',
        Begun (poolHistory h) call (.delete kind names flag) →
        Begun (poolHistory h') (twin call) (.delete kind names flag') →
        c.pool.Answered call result → c'.pool.Answered (twin call) result' →
          (invocations call (poolHistory h)).Perm (invocations (twin call) (poolHistory h')) ∧
          result = result' ∧ ∃ count, result = .ok (.removed count)) ∧
    (∀ kind call call' capacity capacity' flag flag' result result',
      (∀ w < start.pool.size, AlikeFor kind (before call (enqueued start.pool w (poolHistory h)))
        (before call' (enqueued start.pool w (poolHistory h')))) →
      Begun (poolHistory h) call (.list capacity kind flag) →
      Begun (poolHistory h') call' (.list capacity' kind flag') →
      c.pool.Answered call result → c'.pool.Answered call' result' →
        (received call (poolHistory h)).Perm (received call' (poolHistory h')) ∧
        result = .ok (.listing (String.join (received call (poolHistory h)))) ∧
        result' = .ok (.listing (String.join (received call' (poolHistory h'))))) ∧
    (c.pool.Stuck → c.pool.Ungated → ∀ call it, c.pool.calls[call]? = some it →
      it.phase ≠ .dropped → ∃ result, c.pool.result? call = some result) := by
  have first := run.pool
  have last := run'.pool
  rw [same] at last
  refine ⟨fun w message mem => run.writes_of_update fresh mem, ?_, ?_, ?_⟩
  · intro twin order
    refine ⟨fun w inside => ?_, ?_⟩
    · exact first.transitions_undisturbed last fresh.pool alive alive' order inside
    · intro call kind names flag flag' result result' begun begun' answered answered'
      exact first.deletion_undisturbed last fresh.pool alive alive' order begun begun' answered
        answered'
  · intro kind call call' capacity capacity' flag flag' result result' alike begun begun' answered
      answered'
    exact first.listing_undisturbed last fresh.pool alive alive' alike begun begun' answered
      answered'
  · intro stuck ungated call it hc kept
    exact first.result_of_stuck fresh.pool stuck ungated hc kept

end Reading

/-- Steps of the pool, as actions on a console. -/
def inPool (steps : List Pool.Step) : List Action :=
  steps.map fun step => .step (.pool step)

/-- A session without a prompt takes its next line. -/
def nextLine : List Action :=
  [.step (.session 0 .begin), .step (.session 0 .prompt), .step (.session 0 .take)]

/-- A command of the session is a listing, to which the only worker has something to show. -/
def listedBy (call : CallId) : List Action :=
  [.step (.execute 0)] ++
  inPool [.submit call, .submit call, .take 0, .dropWork 0, .handOver 0, .receive call, .finish 0,
    .signal 0, .letGo call, .conclude call] ++
  [.step (.resume 0), .step (.session 0 (.write 4))]

/-- A command of the session is a deletion, which the only worker carries out. -/
def deletedBy (call : CallId) : List Action :=
  [.step (.execute 0)] ++
  inPool [.submit call, .submit call, .take 0, .dropWork 0, .finish 0, .signal 0, .conclude call]

/-- A worker has a counter and a set. An operator lists the timers, of which there are none, sends a
    blank line and a mistake, lists the counters and deletes one. -/
def curiousConversation : List Action :=
  [.pool (.dispatch 0 ⟨"a", .empty, .counter 2⟩), .pool (.dispatch 0 ⟨"b", .empty, .set "x"⟩),
    .opened "" 64 none, .sent 0 (Utf8.encode "timers\n\nbogus\ncounters\ndelcounters a\n"),
    .step (.session 0 .begin), .step (.session 0 .prompt), .step (.session 0 (.read 37)),
    .step (.session 0 .take), .step (.execute 0)] ++
  inPool [.take 0, .take 0, .submit 0, .submit 0, .take 0, .dropWork 0, .finish 0, .signal 0,
    .letGo 0, .conclude 0] ++
  [.step (.resume 0)] ++ nextLine ++ nextLine ++ [.step (.session 0 (.write 31))] ++
  nextLine ++ listedBy 1 ++ nextLine ++ deletedBy 2

/-- Another operator lists the counters before the set is there, and deletes the counter. -/
def briefConversation : List Action :=
  [.pool (.dispatch 0 ⟨"a", .empty, .counter 2⟩), .opened "" 64 none,
    .sent 0 (Utf8.encode "counters\ndelcounters a\n"), .step (.session 0 .begin),
    .step (.session 0 .prompt), .step (.session 0 (.read 23)), .step (.session 0 .take)] ++
  inPool [.take 0] ++ listedBy 0 ++ [.pool (.dispatch 0 ⟨"b", .empty, .set "x"⟩)] ++
  inPool [.take 0] ++ nextLine ++ deletedBy 1

-- A call is made where the history of the pool shows a request for one.
theorem begun_of_getElem? {h : List Moment} {k : Nat} {request : Pool.Action} {call : CallId}
    {made : Pool.Call} (begins : request.Begins made)
    (there : (poolHistory h)[k]?.map (fun m => (m.action, m.before.calls.size)) =
      some (request, call)) : Begun (poolHistory h) call request := by
  rcases Option.map_eq_some_iff.mp there with ⟨m, hm, facts⟩
  rw [Prod.mk.injEq] at facts
  exact ⟨m, List.mem_of_getElem? hm, facts.1, facts.2, made, begins⟩

-- What is put on the queue, before the listing and altogether, and where the calls are made.
set_option maxRecDepth 8000 in
theorem curiousConversation_queue :
    (Trace.perform? react? [] (start 1 16) curiousConversation).map (fun r =>
      (r.2.pool.updates (enqueued (start 1 16).pool 0 (poolHistory r.1)),
        before 1 (enqueued (start 1 16).pool 0 (poolHistory r.1)),
        r.2.pool.updates (r.2.pool.queueOf 0),
        (poolHistory r.1)[13]?.map fun m => (m.action, m.before.calls.size),
        (poolHistory r.1)[24]?.map fun m => (m.action, m.before.calls.size))) =
      some ([.metric ⟨"a", .empty, .counter 2⟩, .metric ⟨"b", .empty, .set "x"⟩,
          .work 2 (Work.delete .counter ["a"])],
        [.metric ⟨"a", .empty, .counter 2⟩, .metric ⟨"b", .empty, .set "x"⟩,
          .work 0 (Work.list .timer)], [],
        some (.list 16 .counter false, 1), some (.delete .counter ["a"] false, 2)) := by
  with_unfolding_all rfl

set_option maxRecDepth 8000 in
theorem briefConversation_queue :
    (Trace.perform? react? [] (start 1 16) briefConversation).map (fun r =>
      (r.2.pool.updates (enqueued (start 1 16).pool 0 (poolHistory r.1)),
        before 0 (enqueued (start 1 16).pool 0 (poolHistory r.1)),
        r.2.pool.updates (r.2.pool.queueOf 0),
        (poolHistory r.1)[2]?.map fun m => (m.action, m.before.calls.size),
        (poolHistory r.1)[15]?.map fun m => (m.action, m.before.calls.size))) =
      some ([.metric ⟨"a", .empty, .counter 2⟩, .metric ⟨"b", .empty, .set "x"⟩,
          .work 1 (Work.delete .counter ["a"])],
        [.metric ⟨"a", .empty, .counter 2⟩], [],
        some (.list 16 .counter false, 0), some (.delete .counter ["a"] false, 1)) := by
  with_unfolding_all rfl

theorem curiousConversation_leaves_no_trace : ∃ h c h' c', Run (start 1 16) h c ∧
    Run (start 1 16) h' c' ∧ transitions 0 (poolHistory h) = transitions 0 (poolHistory h') ∧
    (transitions 0 (poolHistory h)).length = 3 ∧ c.pool.result? 2 = some (.ok (.removed 1)) ∧
    (invocations 2 (poolHistory h)).Perm (invocations 1 (poolHistory h')) ∧
    (received 1 (poolHistory h)).Perm (received 0 (poolHistory h')) := by
  have living : (Trace.perform? react? [] (start 1 16) curiousConversation).map (fun r =>
      (r.2.pool.workers.all Pool.Worker.isAlive, (transitions 0 (poolHistory r.1)).length)) =
      some (true, 3) := by
    decide +kernel
  have done : (Trace.perform? react? [] (start 1 16) curiousConversation).map (fun r =>
      ((r.2.pool.calls[1]?.map Pool.Call.cancelled, r.2.pool.result? 1),
        (r.2.pool.calls[2]?.map Pool.Call.cancelled, r.2.pool.result? 2))) =
      some ((some false, some (.ok (.listing "a=2\n"))),
        (some false, some (.ok (.removed 1)))) := by
    decide +kernel
  have living' : (Trace.perform? react? [] (start 1 16) briefConversation).map (fun r =>
      r.2.pool.workers.all Pool.Worker.isAlive) = some true := by
    decide +kernel
  have done' : (Trace.perform? react? [] (start 1 16) briefConversation).map (fun r =>
      ((r.2.pool.calls[0]?.map Pool.Call.cancelled, r.2.pool.result? 0),
        (r.2.pool.calls[1]?.map Pool.Call.cancelled, r.2.pool.result? 1))) =
      some ((some false, some (.ok (.listing "a=2\n"))),
        (some false, some (.ok (.removed 1)))) := by
    decide +kernel
  have queue := curiousConversation_queue
  have queue' := briefConversation_queue
  rcases Option.map_eq_some_iff.mp done with ⟨⟨h, c⟩, performed, facts⟩
  rcases Option.map_eq_some_iff.mp done' with ⟨⟨h', c'⟩, performed', facts'⟩
  rw [performed, Option.map_some, Option.some.injEq] at living queue
  rw [performed', Option.map_some, Option.some.injEq] at living' queue'
  simp only [Prod.mk.injEq] at facts facts' living queue queue'
  rcases living with ⟨alive, length⟩
  rcases facts with ⟨⟨listed, listing⟩, deleted, deletion⟩
  rcases facts' with ⟨⟨listed', listing'⟩, deleted', deletion'⟩
  rcases queue with ⟨updates, earlier, none, made, removes⟩
  rcases queue' with ⟨updates', earlier', none', made', removes'⟩
  have answered {p : Pool} {call : CallId} {result : Except Unavailable Pool.Reply}
      (kept : p.calls[call]?.map Pool.Call.cancelled = some false)
      (returned : p.result? call = some result) : p.Answered call result := by
    rcases Option.map_eq_some_iff.mp kept with ⟨it, hc, uncancelled⟩
    exact ⟨it, hc, uncancelled, returned⟩
  have run : Run (start 1 16) h c := Trace.of_perform? .start performed
  have run' : Run (start 1 16) h' c' := Trace.of_perform? .start performed'
  have created : Channel.create? (max 16 1) = some ⟨16, [], [.closer], true⟩ := by decide +kernel
  rcases run.reading_leaves_no_trace run' (isFresh_start 1 16) rfl (Pool.allAlive_of_all alive)
    (Pool.allAlive_of_all living') with ⟨_, changes, listings, _⟩
  have order : SameUpdates (· - 1) (start 1 16).pool (poolHistory h) c.pool (poolHistory h')
      c'.pool := by
    intro w inside
    have only : w = 0 := Nat.lt_one_iff.mp inside
    rw [only, updates, updates']
    rfl
  have alike : AlikeFor .counter [.metric ⟨"a", .empty, .counter 2⟩,
      .metric ⟨"b", .empty, .set "x"⟩, .work 0 (Work.list .timer)]
      [.metric ⟨"a", .empty, .counter 2⟩] :=
    .metric _ (.left (.metric (by decide)) (.left .listing .nil))
  rcases changes (· - 1) order with ⟨states, counts⟩
  rcases counts 2 .counter ["a"] false false _ _ (begun_of_getElem? .delete removes)
    (begun_of_getElem? .delete removes') (answered deleted deletion)
    (answered deleted' deletion') with ⟨shards, _, _⟩
  rcases listings .counter 1 0 16 16 false false _ _ (fun w inside => by
      have only : w = 0 := Nat.lt_one_iff.mp inside
      rw [only, earlier, earlier']
      exact alike)
    (begun_of_getElem? (.list created) made) (begun_of_getElem? (.list created) made')
    (answered listed listing) (answered listed' listing') with ⟨parts, _, _⟩
  exact ⟨h, c, h', c', run, run', (states 0 Nat.one_pos).2 none none', length, deletion, shards,
    parts⟩

end Console

end ShardConsole
