import ShardConsole.Proofs.Console.Cancellation

/-!
# Shutdown

Cancelled sessions of a console come to their end, if their operators take what they write.

A session is cancelled by itself, or with all others when the console is shut down; a session
that is opened after that is cancelled from the start. Its call is cancelled with it. A caller
whose call is cancelled need not wait for the workers, so a cancelled session never waits for
them: in a console at rest it is over, whoever is held at a gate and whether or not its input
has ended.

The only one that it waits for is its operator, who may stop taking what it writes. A session
in the middle of a text does not look whether it is cancelled, and stays there until the rest
is taken or the connection fails.

The workers do not notice any of this. Work that has been put on a queue is run by whoever owns
the queue, all of it at once, and a call that has begun to put its work on queues goes on to do
so until it has come to all workers or to a dead one.

## Main definitions

* `Session.WindsDown`: What a cancelled session does until it is over.
* `Session.Event.keepsOutlet`: Whether an event leaves it as it is whether texts are taken.
* `Console.workOf`: What a command has the workers do.
* `Console.CarriedOut`: The command of a call is carried out as a whole.

## Theorems

* `Session.Run.stays_of_stalled`: A session that writes what nobody takes stays where it is.
* `Console.Run.cancelled_of_shutDown`: Shutting down cancels the sessions to come as well.
* `Console.Run.call_cancelled`: The call of a cancelled session is cancelled.
* `Console.Run.over_of_cancelled`: In a console at rest cancelled sessions are over, or they
  write what nobody takes.
* `Console.Run.carriedOut`: No command is carried out in part.
* `Console.Run.cancellation_bounds`: What cancelling a session comes to.
-/

namespace ShardConsole

namespace Session

/-- What a session does from the moment at which it is cancelled until it is over. -/
structure WindsDown (s : Session) (h : List Moment) (s' : Session) : Prop where
  lingers : Lingers s h s'
  /-- It writes what is left of the text that it was writing, the prompts that it begins, of
      which there is at most one, and the response to its line, if it has one. -/
  written : s'.written.toList <+: s.written.toList ++ s.due ++
    ((List.replicate (prompts h) (Utf8.encode s.prompt)).flatten ++
      (results h).flatMap fun result => Utf8.encode (response result))
  /-- A session that is about to look does nothing more, and ends because it is cancelled. -/
  unbegun : s.stage = .ready → taken h = [] ∧ results h = [] ∧ prompts h = 0 ∧
    s'.written = s.written ∧ ∀ how, s'.stage = .ended how → how = .error .cancelled

section Winding

variable {s s' : Session} {h : List Moment}

theorem Run.windsDown (run : Run s h s') (flag : s.cancelled = true) : WindsDown s h s' := by
  have lingers := run.lingers flag
  have said := run.said_eq flag
  have written : s'.written.toList <+: s.written.toList ++ s.due ++ Session.said h := by
    rcases run.says with same | ⟨_, upTo⟩
    · exact same ▸ List.prefix_append _ _
    · exact upTo
  rw [said] at written
  refine ⟨lingers, written, fun ready => ?_⟩
  have spends := lingers.spends
  rw [ready] at spends
  rcases lingers.ready ready with ⟨same, stage⟩
  refine ⟨List.length_eq_zero_iff.mp ?_, List.length_eq_zero_iff.mp ?_, ?_, same, ?_⟩
  · exact Nat.le_zero.mp (Nat.le_of_add_left_le spends.lines)
  · exact Nat.le_zero.mp (Nat.le_of_add_left_le spends.results)
  · exact Nat.le_zero.mp (Nat.le_of_add_left_le spends.prompts)
  · intro how ended
    rcases stage with still | past
    · cases ended.symm.trans still
    · cases ended.symm.trans past
      rfl

end Winding

/-- Whether an event leaves it as it is whether the operator takes what is written. -/
def Event.keepsOutlet : Event → Bool
  | .outletSet _ | .hungUp => false
  | _ => true

section Stalling

variable {s s' : Session} {e : Event} {h : List Moment}

-- Writing is all that a session does that has something to write.
theorem Change.stays_of_stalled (change : Change s e s') (stalled : s.isStalled = true)
    (kept : e.keepsOutlet = true) : s'.stage = s.stage ∧ s'.outlet = s.outlet := by
  rcases isStalled_iff.mp stalled with ⟨outlet, rest, next, stage⟩
  cases change with
  | delivered | inputEnded | cancelled => exact ⟨rfl, rfl⟩
  | write _ taken | wrote _ taken => cases outlet.symm.trans taken
  | failWrite _ lost => cases outlet.symm.trans lost
  | outletSet | hungUp => cases kept
  | notice other | begin other | prompt other | read other | failRead other | order other
  | remark other | overlong other | endOfInput other | leave other | expire other
  | answered other | brokeDown other => cases stage.symm.trans other

/-- A session that writes what its operator does not take stays where it is, cancelled or not,
    until that changes. -/
theorem Run.stays_of_stalled (run : Run s h s') (stalled : s.isStalled = true)
    (kept : ∀ m ∈ h, m.action.keepsOutlet = true) :
    s'.stage = s.stage ∧ s'.outlet = s.outlet := by
  induction run with
  | start => exact ⟨rfl, rfl⟩
  | @next h t t' e run act ih =>
      rcases ih fun m hm => kept m (List.mem_append_left _ hm) with ⟨stage, outlet⟩
      have still : t.isStalled = true := by rwa [isStalled, stage, outlet, ← isStalled]
      have now := kept ⟨t, e⟩ (List.mem_append_right _ List.mem_cons_self)
      rcases (change_of_react? act).stays_of_stalled still now with ⟨stage', outlet'⟩
      exact ⟨stage'.trans stage, outlet'.trans outlet⟩

end Stalling

end Session

namespace Pool

section Cancelling

variable {start p p' : Pool} {h : List Moment} {a : Action} {c : CallId} {call call' : Call}

-- A call that is cancelled stays so.
theorem CallChange.cancelled_of (change : CallChange p c call a call')
    (flag : call.cancelled = true) : call'.cancelled = true := by
  cases still : call'.cancelled with
  | true => rfl
  | false => exact absurd ((change.uncancelled still).symm.trans flag) Bool.false_ne_true

-- A call that is there stays there, and it is cancelled if it was or if somebody cancels it.
theorem Run.call_later (run : Run start h p) (hc : start.calls[c]? = some call) :
    ∃ later, p.calls[c]? = some later ∧
      (call.cancelled = true ∨ (∃ m ∈ h, m.action = .cancel c) → later.cancelled = true) := by
  induction run with
  | start =>
      refine ⟨call, hc, ?_⟩
      rintro (flag | ⟨m, hm, _⟩)
      · exact flag
      · cases hm
  | @next h p p' a run act ih =>
      rcases ih with ⟨before, hb, so⟩
      rcases (change_of_act? act).callChange_of hb with ⟨after, ha, changed⟩
      refine ⟨after, ha, ?_⟩
      rintro (flag | ⟨m, hm, cancels⟩)
      · exact changed.cancelled_of (so (Or.inl flag))
      · rcases List.mem_append.mp hm with earlier | now
        · exact changed.cancelled_of (so (Or.inr ⟨m, earlier, cancels⟩))
        · cases List.mem_singleton.mp now
          cases cancels
          cases act
          rw [Pool.cancel, getElem?_modifyCall, if_pos rfl, hb, Option.map_some] at ha
          cases ha
          rfl

end Cancelling

end Pool

namespace Console

open Pool (CallId Work WorkerId callsOf enqueued invocations)
open Session (WindsDown isStalled_iff taken prompts)

/-- What a command has the workers do, if it needs them. -/
def workOf : Command → Option Work
  | .list kind => some (Work.list kind)
  | .delete kind names => some (Work.delete kind names)
  | .help | .stats | .quit => none

/-- The command of a call is carried out as a whole, whatever becomes of the session that has
    asked for it. -/
structure CarriedOut (start : Console) (h : List Moment) (c : Console) (command : Command)
    (call : CallId) : Prop where
  /-- It comes to the workers in their order, and every living one that it is given to has run
      it once or has it on its queue. -/
  submits : Pool.Submits start.pool (poolHistory h) c.pool call
  /-- Whoever runs it does everything at once that is to be done on its shard. -/
  whole : ∃ work, workOf command = some work ∧ ∀ m ∈ poolHistory h, ∀ visit ∈ m.met call,
    m.Runs call work visit
  /-- When nobody is held at a gate and nothing more can happen, it has come to all workers, or
      to a dead one, and everybody who lives and was given it has run it. -/
  finished : c.pool.Stuck → c.pool.Ungated → c.pool.Submitted call ∧
    ∀ (w : WorkerId) (worker : Pool.Worker), c.pool.workers[w]? = some worker →
      worker.isAlive = true → call ∈ callsOf (enqueued start.pool w (poolHistory h)) →
        ((invocations call (poolHistory h)).map Prod.fst).count w = 1

section Cancelling

variable {start c c' : Console} {h : List Moment} {s : SessionId} {seat seat' : Seat} {a : Action}
  {call : CallId} {i : Nat} {command : Command}

-- Whoever cancels a session, or all of them, cancels it and does nothing else to it.
theorem SeatChange.cancels (changed : SeatChange c s seat a seat')
    (stops : a = .cancelled s ∨ a = .shutDown) :
    seat' = { seat with session := seat.session.cancel } := by
  rcases stops with rfl | rfl
  · cases changed with
    | stay silent => simp [heard] at silent
    | cancelled => rfl
  · cases changed with
    | stay silent => simp [heard] at silent
    | shutDown => rfl

theorem stops_of_heard (told : .cancelled ∈ c.heard s seat a) :
    a = .cancelled s ∨ a = .shutDown := by
  cases a with
  | cancelled t =>
      by_cases here : t = s
      · exact Or.inl (here ▸ rfl)
      · simp [heard, here] at told
  | shutDown => exact Or.inr rfl
  | step step =>
      cases step with
      | pool => simp [heard] at told
      | session t => simp [heard] at told
      | execute t =>
          rw [heard, heardOfExecution] at told
          split at told
          · split at told
            · split at told <;> simp at told
            · cases told
          · cases told
      | resume t =>
          rw [heard, heardOfResult] at told
          split at told
          · split at told <;> simp at told
          · cases told
  | sent t bytes | hungUp t bytes =>
      rw [heard, heardOfBytes] at told
      split at told
      · split at told <;> simp at told
      · cases told
  | inputEnded t | outletSet t outlet =>
      rw [heard] at told
      split at told <;> simp at told
  | pool | opened | reported | passed => cases told

-- A session is cancelled if it was, or if it is cancelled now, by itself or with all others.
theorem SeatChange.cancelled_iff (changed : SeatChange c s seat a seat') :
    seat'.session.cancelled = true ↔
      seat.session.cancelled = true ∨ a = .cancelled s ∨ a = .shutDown := by
  constructor
  · intro flag
    rcases changed.run.cancelled_iff.mp flag with was | ⟨m, hm, cancels⟩
    · exact Or.inl was
    · exact Or.inr (stops_of_heard (cancels ▸ action_of_mem_through hm))
  · rintro (was | stops)
    · exact changed.run.cancelled_iff.mpr (Or.inl was)
    · rw [changed.cancels stops]
      rfl

-- To cancel a session is to cancel its call.
theorem mem_asked (hs : c.seats[s]? = some seat) (seated : seat.call = some call)
    (stops : a = .cancelled s ∨ a = .shutDown) : .cancel call ∈ c.asked a := by
  have own : .cancel call ∈ c.askedByCancelling s := by
    simp [askedByCancelling, hs, seated]
  rcases stops with rfl | rfl
  · exact own
  · have inside := (Array.getElem?_eq_some_iff.mp hs).1
    exact List.mem_flatMap.mpr ⟨s, List.mem_range.mpr inside, own⟩

theorem Change.shutDown_eq (change : Change c a c') (other : a ≠ .shutDown) :
    c'.shutDown = c.shutDown := by
  cases change with
  | @cancelled s => exact (@foldl_cancel_same c [s]).2.1
  | shutDown => exact absurd rfl other
  | _ => rfl

/-- When a console is shut down all sessions are cancelled, those included that are opened
    later. -/
theorem Run.cancelled_of_shutDown (run : Run start h c) (fresh : start.IsFresh)
    (hs : c.seats[s]? = some seat) (down : c.shutDown = true) : seat.session.cancelled = true := by
  refine Run.seat_induction (motive := fun _ c seat => c.shutDown = true →
    seat.session.cancelled = true) ?_ ?_ run fresh hs down
  · intro h c c' prompt maxLength idleLimit run change absent down
    rw [change.shutDown_eq (by simp)] at down
    exact down
  · intro h c c' a earlier seat run change before changed ih down
    rw [changed.cancelled_iff]
    by_cases here : a = .shutDown
    · exact Or.inr (Or.inr here)
    · rw [change.shutDown_eq here] at down
      exact Or.inl (ih down)

/-- The call of a session that is cancelled is cancelled. -/
theorem Run.call_cancelled (run : Run start h c) (fresh : start.IsFresh)
    (hs : c.seats[s]? = some seat) (seated : seat.call = some call)
    (flag : seat.session.cancelled = true) :
    ∃ it, c.pool.calls[call]? = some it ∧ it.cancelled = true := by
  refine Run.seat_induction (motive := fun _ c seat => seat.call = some call →
    seat.session.cancelled = true → ∃ it, c.pool.calls[call]? = some it ∧ it.cancelled = true)
    ?_ ?_ run fresh hs seated flag
  · intro h c c' prompt maxLength idleLimit run _ absent seated
    cases seated
  · intro h c c' a earlier seat run change before changed ih seated flag
    by_cases had : earlier.call = some call
    · rcases run.kept fresh before had with ⟨it, hc, _⟩
      rcases change.pool_run.call_later hc with ⟨later, hl, so⟩
      refine ⟨later, hl, so ?_⟩
      rcases changed.cancelled_iff.mp flag with was | stops
      · rcases ih had was with ⟨same, hc', flag⟩
        cases hc.symm.trans hc'
        exact Or.inl flag
      · -- What is asked of the pool happens to it.
        have shows := mem_asked before had stops
        rw [← Pool.actions_through c.pool (c.asked a)] at shows
        exact Or.inr (List.mem_map.mp shows)
    · -- The session has got the call just now.
      rcases changed.new_call change before seated had with ⟨_, _, same, asks, moved, rfl⟩
      rw [same] at flag
      rw [flag] at asks
      rcases begins_of_requestOf asks moved with ⟨made, begins, after⟩
      rw [after]
      refine ⟨made, Array.getElem?_push_size, ?_⟩
      unfold requestOf at asks
      split at asks <;> cases asks <;> cases begins <;> rfl

-- A caller can leave early whose session waits for it.
theorem Run.soFar (run : Run start h c) (fresh : start.IsFresh) (hs : c.seats[s]? = some seat)
    (seated : seat.call = some call) {it : Pool.Call} (hc : c.pool.calls[call]? = some it) :
    ∃ reply, it.soFar? = some reply := by
  rcases run.seated fresh hs seated with ⟨command, _, begins⟩
  rcases begins.begun with ⟨m, _, cancelled, request, asks, begun⟩
  cases command with
  | help | stats | quit => cases asks
  | list kind =>
      cases asks
      rcases run.pool.listing_of_begun begun hc with ⟨_, intake, purpose⟩
      exact ⟨_, by rw [Pool.Call.soFar?, purpose]⟩
  | delete kind names =>
      cases asks
      have purpose := (run.pool.deletion_of_begun begun hc).2
      exact ⟨_, by rw [Pool.Call.soFar?, purpose]⟩

/-- In a console at rest every session that is cancelled is over, whoever is held at a gate, or it
    writes what its operator does not take. -/
theorem Run.over_of_cancelled (run : Run start h c) (fresh : start.IsFresh) (stuck : c.Stuck)
    (hs : c.seats[s]? = some seat) (flag : seat.session.cancelled = true) :
    seat.session.isOver = true ∨ seat.session.isStalled = true := by
  rcases run.over_or_waiting fresh stuck hs (Or.inr flag) with
    past | stalled | ⟨call, seated, unanswered⟩
  · exact Or.inl past
  · exact Or.inr stalled
  · exfalso
    rcases run.kept fresh hs seated with ⟨it, hc, kept⟩
    rcases run.call_cancelled fresh hs seated flag with ⟨same, hc', cancelled⟩
    cases hc.symm.trans hc'
    cases phase : it.phase with
    | submitting w => exact stuck.pool.not_submitting hc w phase
    | refused cause | returned result => simp [Pool.result?, hc, phase] at unanswered
    | dropped => exact kept phase
    | waiting =>
        -- The caller can return what it has got so far.
        rcases run.soFar fresh hs seated hc with ⟨reply, soFar⟩
        have none := stuck.pool (.desist call)
        simp [Pool.step?, Pool.desist?, hc, phase, Pool.Phase.isWaiting, cancelled, soFar] at none

-- What becomes of the call of a command is what becomes of the work that it has the workers do.
theorem Run.call_of_begins (run : Run start h c) (begins : Begins h s i command (.called call)) :
    ∃ it, c.pool.calls[call]? = some it ∧ workOf command = some it.work := by
  rcases begins.begun with ⟨m, _, cancelled, request, asks, begun⟩
  cases command with
  | help | stats | quit => cases asks
  | list kind =>
      cases asks
      rcases run.pool.of_begun begun with ⟨_, it, _, hc, _⟩
      exact ⟨it, hc, by rw [(run.pool.listing_of_begun begun hc).1, workOf]⟩
  | delete kind names =>
      cases asks
      rcases run.pool.of_begun begun with ⟨_, it, _, hc, _⟩
      exact ⟨it, hc, by rw [(run.pool.deletion_of_begun begun hc).1, workOf]⟩

-- No worker dies of what a command has it do.
theorem invoke_of_workOf {work : Work} (has : workOf command = some work) (w : WorkerId)
    (shard : Shard) : work.invoke w shard ≠ .failed := by
  unfold workOf at has
  split at has <;> cases has <;> exact fun failed => by cases failed

/-- Whatever becomes of a session, and whoever dies, no command is carried out in part. -/
theorem Run.carriedOut (run : Run start h c) (fresh : start.IsFresh)
    (begins : Begins h s i command (.called call)) : CarriedOut start h c command call := by
  rcases run.call_of_begins begins with ⟨it, hc, work⟩
  refine ⟨run.pool.submits fresh.pool hc, ⟨it.work, work, ?_⟩, ?_⟩
  · intro m hm visit met
    exact run.pool.runs_of_met fresh.pool hc hm met (invoke_of_workOf work _ _)
  · intro stuck ungated
    refine ⟨⟨it, hc, stuck.not_submitting hc⟩, ?_⟩
    intro w worker hw alive given
    exact run.pool.ran_of_stuck fresh.pool stuck ungated hw alive given

end Cancelling

/-- An operator lists the counters of two workers and sends another line. One worker has handed
    over its part, and the caller has taken it, when all sessions are cancelled. -/
def interruptedListing : List Action :=
  [.pool (.dispatch 0 ⟨"a", .empty, .counter 2⟩), .opened "> " 64 none,
    .sent 0 (Utf8.encode "counters\nhelp\n"), .step (.session 0 .begin),
    .step (.session 0 .prompt), .step (.session 0 (.write 2)), .step (.session 0 (.read 14)),
    .step (.session 0 .take), .step (.execute 0)] ++
  List.map (fun step => .step (.pool step))
    [.submit 0, .submit 0, .submit 0, .take 0, .take 0, .dropWork 0, .handOver 0, .receive 0] ++
  [.shutDown]

/-- The caller leaves with the part, the session writes it and looks whether it is cancelled, and
    the other worker runs the work all the same. -/
def afterInterruption : List Action :=
  [.step (.pool (.desist 0)), .step (.resume 0), .step (.session 0 (.write 4)),
    .step (.session 0 .begin), .step (.pool (.take 1))]

-- No other line and no prompt is left to the session of the listing, and no text was half written.
theorem interruptedListing_answered : ∃ h c seat later c' seat', Run (start 2 16) h c ∧
    c.seats[0]? = some seat ∧ seat.session.cancelled = true ∧ seat.session.due = [] ∧
    Run c later c' ∧ c'.seats[0]? = some seat' ∧ taken (history 0 later) = [] ∧
    prompts (history 0 later) = 0 ∧
    seat'.session.written.toList = seat.session.written.toList ++ Utf8.encode "a=2\n" := by
  have before : (Trace.perform? react? [] (start 2 16) interruptedListing).map (fun r =>
      r.2.seats[0]?.map fun seat => (seat.session.cancelled, seat.session.due,
        seat.session.written.toList)) = some (some (true, [], Utf8.encode "> ")) := by
    decide +kernel
  have after : (Trace.perform? react? [] (start 2 16) interruptedListing).bind (fun r =>
      (Trace.perform? react? [] r.2 afterInterruption).map fun r' =>
        (taken (history 0 r'.1), prompts (history 0 r'.1),
          r'.2.seats[0]?.map fun seat => seat.session.written.toList)) =
            some ([], 0, some (Utf8.encode "> a=2\n")) := by
    decide +kernel
  rcases Option.map_eq_some_iff.mp before with ⟨⟨h, c⟩, performed, facts⟩
  rw [performed, Option.bind_some] at after
  rcases Option.map_eq_some_iff.mp facts with ⟨seat, hs, facts⟩
  rcases Option.map_eq_some_iff.mp after with ⟨⟨later, c'⟩, performed', after⟩
  simp only [Prod.mk.injEq] at facts after
  rcases facts with ⟨flag, due, written⟩
  rcases after with ⟨lines, none, after⟩
  rcases Option.map_eq_some_iff.mp after with ⟨seat', hs', written'⟩
  refine ⟨h, c, seat, later, c', seat', Trace.of_perform? .start performed, hs, flag, due,
    Trace.of_perform? .start performed', hs', lines, none, ?_⟩
  rw [written, written', ← Utf8.encode_append]
  rfl

/-- The operator takes one byte of the prompt, and then nothing more. -/
def stalledPrompt : List Action :=
  [.opened "> " 64 none, .step (.session 0 .begin), .step (.session 0 .prompt),
    .step (.session 0 (.write 1)), .outletSet 0 .stalled, .cancelled 0]

-- The session cannot write the rest of its prompt, and does nothing else.
theorem stalledPrompt_stays : ∃ h c seat, Run (start 1 16) h c ∧ c.seats[0]? = some seat ∧
    seat.session.cancelled = true ∧
    ∀ later c', Run c later c' → (∀ m ∈ history 0 later, m.action.keepsOutlet = true) →
      ∃ seat', c'.seats[0]? = some seat' ∧ seat'.session.isOver = false := by
  have done : (Trace.perform? react? [] (start 1 16) stalledPrompt).map (fun r =>
      r.2.seats[0]?.map fun seat => (seat.session.cancelled, seat.session.isStalled)) =
        some (some (true, true)) := by
    decide +kernel
  rcases Option.map_eq_some_iff.mp done with ⟨⟨h, c⟩, performed, facts⟩
  rcases Option.map_eq_some_iff.mp facts with ⟨seat, hs, facts⟩
  rcases Prod.mk.inj facts with ⟨flag, stalled⟩
  refine ⟨h, c, seat, Trace.of_perform? .start performed, hs, flag, fun later c' goesOn kept => ?_⟩
  rcases Run.session_later goesOn hs with ⟨seat', hs', so⟩
  rcases isStalled_iff.mp stalled with ⟨_, rest, next, stage⟩
  refine ⟨seat', hs', ?_⟩
  rw [Session.isOver, (so.stays_of_stalled stalled kept).1, stage]

end Console

end ShardConsole
