import ShardConsole.Proofs.Console.Rest

/-!
# Conversations

What an operator sees of a session, whatever else happens in the console.

A session that is not cancelled, whose operator stays and which does not wait for too long
handles its lines in their order, each one after everything that comes before it has been
written, and writes the transcript of their results. A blank line gives nothing, a mistake gives
the mistake, and a command gives what its execution gives. The session ends with the first
command to leave or the first worker that cannot be reached, and otherwise with its input. No
session ever ends with a mistake of the operator.

All of this is about sessions by themselves, and holds of the sessions of a console because what
happens to them is a run of a session. That a session ends at all depends on the pool, and on
nothing else: when nothing more can happen and nobody is held at a gate, a session whose input
has ended is over.

## Main definitions

* `Session.Calm`: Nothing has cut a session short.
* `Console.Handled`: How a line comes by its result.
* `Console.Converses`: A session handles its lines one by one and writes the transcript.

## Theorems

* `Console.Executed.cases`: What the execution of a command gives.
* `Console.Handled.cases_of_ending`: Which lines end a session.
* `Console.Run.cause_of_closed`: Why the last line has ended a session.
* `Console.Run.converses`: Every session that nothing cuts short converses.
* `Console.Run.exceeds_of_broken`: Sessions do not break down.
* `Console.Run.session_transcript`: What a session writes and how it ends.
-/

namespace ShardConsole

open Framer (linesOf)

namespace Session

/-- Nothing has cut a session short: it is not cancelled, writing does not fail, and it has not
    waited for too long. -/
structure Calm (s : Session) : Prop where
  uncancelled : s.cancelled = false
  reached : s.outlet ≠ .lost
  patient : s.stage ≠ .ended (.error .deadlineExceeded)

section Endings

variable {s : Session} {h : List Moment} {e : Error}

theorem Closed.verdict_eq (closed : Closed h e) : verdict (results h) = .error e := by
  rcases closed.last with ⟨before, result, whole, going, ends⟩
  rw [whole, verdict_snoc_of_ending going ends]

-- A session that nothing cuts short, and whose lines are not too long, can only be ended by the
-- result of its last line.
theorem Stands.closed_of_calm (stands : Stands h s) (calm : s.Calm)
    (short : ∀ line ∈ linesOf (received h), line.length ≤ s.framer.maxLength)
    (stage : s.stage = .ended (.error e)) : Closed h e ∧
      s.written.toList = Utf8.encode (transcript s.prompt (results h)) := by
  rw [Stands, stage] at stands
  cases stands with
  | result closed written => exact ⟨closed, written⟩
  | cancelled _ cancelled => cases calm.uncancelled.symm.trans cancelled
  | overlong _ long =>
      rcases long with ⟨line, mem, long⟩
      exact absurd (short line mem) (Nat.not_le_of_lt long)
  | idle => exact absurd stage calm.patient
  | lost _ lost => exact absurd lost calm.reached

end Endings

end Session

namespace Console

open Session (received taken takenAt results transcript verdict ending?)

/-- How the line with a number comes by its result: a blank line gives nothing, a mistake gives
    the mistake, and a command gives what its execution gives, a text unless a worker cannot be
    reached. -/
inductive Handled (h : List Moment) (s : SessionId) (i : Nat) (line : List UInt8) :
    Except Error String → Prop
  | blank (parsed : Command.parse (Framer.text line) = .ok none) : Handled h s i line (.ok "")
  | mistaken {e : Error} (parsed : Command.parse (Framer.text line) = .error e)
      (protocol : e.isProtocol = true) : Handled h s i line (.error e)
  | quit (parsed : Command.parse (Framer.text line) = .ok (some .quit)) :
      Handled h s i line (.error .quit)
  | done {command : Command} {text : String}
      (parsed : Command.parse (Framer.text line) = .ok (some command)) (other : command ≠ .quit)
      (executed : Executed h s i command (.ok text)) : Handled h s i line (.ok text)
  | failed {command : Command} {cause : Unavailable}
      (parsed : Command.parse (Framer.text line) = .ok (some command)) (other : command ≠ .quit)
      (executed : Executed h s i command (.error (.dispatch cause))) :
      Handled h s i line (.error (.dispatch cause))

/-- A session handles its lines one by one and writes the transcript of their results. -/
structure Converses (h : List Moment) (s : SessionId) (session : Session) : Prop where
  inOrder : taken (history s h) <+: linesOf (received (history s h))
  /-- When a line is taken, the lines before it have been answered, none of them has ended the
      session, and the prompt for it has been written. -/
  oneByOne : ∀ h₁ m h₂, history s h = h₁ ++ m :: h₂ → takenAt m ≠ [] →
    (results h₁).length = (taken h₁).length ∧ verdict (results h₁) = .ok () ∧
      m.before.written.toList = Utf8.encode (transcript session.prompt (results h₁))
  handled : ∀ (i : Nat) (line : List UInt8) (result : Except Error String),
    (taken (history s h))[i]? = some line → (results (history s h))[i]? = some result →
      Handled h s i line result
  /-- A line that ends the session is the last one that is taken. -/
  last : ∀ (i : Nat) (result : Except Error String), (results (history s h))[i]? = some result →
    ending? result ≠ none → (taken (history s h)).length = i + 1
  /-- At no time has anything else been written. -/
  written : session.written.toList <+:
    Utf8.encode (transcript session.prompt (results (history s h)))
  /-- A session that has ended has written all of it. It ends by itself when all lines of its
      input have been handled. -/
  ended : ∀ how, session.stage = .ended how → how = verdict (results (history s h)) ∧
    (results (history s h)).length = (taken (history s h)).length ∧
    session.written.toList = Utf8.encode (transcript session.prompt (results (history s h))) ∧
    (how = .ok () → session.inputEnded = true ∧
      taken (history s h) = linesOf (received (history s h)))
  /-- Otherwise the last line has ended it: a command to leave, or one for which a worker could
      not be reached. -/
  reason : ∀ e, session.stage = .ended (.error e) → ∃ line,
    (taken (history s h)).getLast? = some line ∧
    (results (history s h)).getLast? = some (.error e) ∧
    (e = .quit ∧ Command.parse (Framer.text line) = .ok (some .quit) ∨ ∃ cause, e = .dispatch cause)

section Results

variable {h : List Moment} {s : SessionId} {i : Nat} {line : List UInt8} {command : Command}
  {result : Except Error String} {e : Error}

-- A call that has its answer gives a text.
theorem outcome_of_ok (command : Command) (reply : Pool.Reply) :
    ∃ text, command.outcome (.ok reply) = .ok text := by
  cases reply with
  | listing text => exact ⟨text, rfl⟩
  | removed count => cases command <;> exact ⟨_, rfl⟩
  | completed => exact ⟨"", rfl⟩

-- The call of a command gives a text, unless a worker cannot be reached.
theorem outcome_cases (command : Command) (result : Except Unavailable Pool.Reply) :
    (∃ text, command.outcome result = .ok text) ∨
      ∃ cause, command.outcome result = .error (.dispatch cause) := by
  cases result with
  | error cause => exact Or.inr ⟨cause, rfl⟩
  | ok reply => exact Or.inl (outcome_of_ok command reply)

-- Only commands that need the pool make a call.
theorem Begins.ne_quit {call : Pool.CallId} (begins : Begins h s i command (.called call)) :
    command ≠ .quit := by
  rcases begins with ⟨_, _, _, _, _, _, came⟩
  rintro rfl
  cases came

/-- The execution of a command gives a text, unless the operator asks to leave or a worker cannot
    be reached. -/
theorem Executed.cases (executed : Executed h s i command result) :
    command = .quit ∧ result = .error .quit ∨ command ≠ .quit ∧
      ((∃ text, result = .ok text) ∨ ∃ cause, result = .error (.dispatch cause)) := by
  cases executed with
  | called begun =>
      exact Or.inr ⟨begun.ne_quit, outcome_cases _ _⟩
  | atOnce begun =>
      rcases begun with ⟨_, _, _, _, _, _, came⟩
      cases command with
      | quit =>
          cases came
          exact Or.inl ⟨rfl, rfl⟩
      | help | stats =>
          cases came
          exact Or.inr ⟨by simp, Or.inl ⟨_, rfl⟩⟩
      | delete kind names => cases came
      | list kind =>
          rw [execute] at came
          split at came <;> cases came

/-- A line whose result ends a session asks to leave, or a worker could not be reached. -/
theorem Handled.cases_of_ending (handled : Handled h s i line result)
    (ends : ending? result = some e) : result = .error e ∧
      (e = .quit ∧ Command.parse (Framer.text line) = .ok (some .quit) ∨
        ∃ cause, e = .dispatch cause) := by
  cases handled with
  | blank | done => cases ends
  | mistaken _ protocol => simp [ending?, protocol] at ends
  | quit parsed =>
      cases ends
      exact ⟨rfl, Or.inl ⟨rfl, parsed⟩⟩
  | @failed _ cause =>
      cases ends
      exact ⟨rfl, Or.inr ⟨cause, rfl⟩⟩

end Results

section Conversations

variable {start c c' : Console} {h : List Moment} {s : SessionId} {seat : Seat} {a : Action}
  {i : Nat} {line : List UInt8} {result : Except Error String}

/-- Every line comes by its result in one of these ways. -/
theorem Run.handled (run : Run start h c) (fresh : start.IsFresh) (hs : c.seats[s]? = some seat)
    (hl : (taken (history s h))[i]? = some line) (hr : (results (history s h))[i]? = some result) :
    Handled h s i line result := by
  rcases run.session fresh hs with ⟨prompt, maxLength, idleLimit, cancelled, so⟩
  cases so.handles hl hr with
  | immediate immediate =>
      rw [Session.immediate?] at immediate
      split at immediate
      · cases immediate
      · rename_i parsed
        cases immediate
        exact .blank parsed
      · rename_i parsed
        cases immediate
        exact .mistaken parsed (Command.isProtocol_of_parse parsed)
  | executed parsed split turn stage answered =>
      have executed := run.executed fresh split stage answered
      rw [turn] at executed
      rcases executed.cases with ⟨rfl, rfl⟩ | ⟨other, ⟨text, rfl⟩ | ⟨cause, rfl⟩⟩
      · exact .quit parsed
      · exact .done parsed other executed
      · exact .failed parsed other executed

/-- The line that has ended a session asked to leave, or a worker could not be reached. -/
theorem Run.cause_of_closed (run : Run start h c) (fresh : start.IsFresh)
    (hs : c.seats[s]? = some seat) {e : Error} (closed : Session.Closed (history s h) e) :
    ∃ line, (taken (history s h)).getLast? = some line ∧
      (results (history s h)).getLast? = some (.error e) ∧
      (e = .quit ∧ Command.parse (Framer.text line) = .ok (some .quit) ∨
        ∃ cause, e = .dispatch cause) := by
  rcases closed.last with ⟨before, result, whole, going, ends⟩
  have size : (taken (history s h)).length = before.length + 1 := by
    rw [← closed.answered, whole, List.length_append, List.length_singleton]
  have inside : before.length < (taken (history s h)).length := size ▸ Nat.lt_succ_self _
  have hl := List.getElem?_eq_getElem inside
  have hr : (results (history s h))[before.length]? = some result := by
    rw [whole, List.getElem?_concat_length]
  rcases (run.handled fresh hs hl hr).cases_of_ending ends with ⟨rfl, cause⟩
  refine ⟨_, ?_, by rw [whole, List.getLast?_concat], cause⟩
  rw [List.getLast?_eq_getElem?, size]
  exact hl

/-- Every session that nothing has cut short converses, if no line is too long. -/
theorem Run.converses (run : Run start h c) (fresh : start.IsFresh) (hs : c.seats[s]? = some seat)
    (calm : seat.session.Calm)
    (short : ∀ line ∈ linesOf (received (history s h)),
      line.length ≤ seat.session.framer.maxLength) : Converses h s seat.session := by
  rcases run.session fresh hs with ⟨prompt, maxLength, idleLimit, cancelled, so⟩
  have stands := so.stands
  have same : seat.session.prompt = prompt := so.prompt_eq
  refine ⟨so.taken_prefix, ?_, fun i line result hl hr => run.handled fresh hs hl hr,
    fun i result hr ends => stands.last hr ends, so.written_prefix, ?_, ?_⟩
  · intro h₁ m h₂ split takes
    rw [split] at so
    rcases so.level_of_taken takes with ⟨level, written⟩
    rw [same]
    exact ⟨level.answered, level.going, written⟩
  · intro how stage
    cases how with
    | ok =>
        rw [Session.Stands, stage] at stands
        cases stands with
        | input level ended all written =>
            exact ⟨level.going.symm, level.answered, written, fun _ => ⟨ended, all⟩⟩
    | error e =>
        rcases stands.closed_of_calm calm short stage with ⟨closed, written⟩
        refine ⟨closed.verdict_eq.symm, closed.answered, written, fun none => ?_⟩
        cases none
  · intro e stage
    exact run.cause_of_closed fresh hs (stands.closed_of_calm calm short stage).1

theorem Change.resultBuffer_eq (change : Change c a c') : c'.resultBuffer = c.resultBuffer := by
  cases change with
  | @cancelled s => exact (@foldl_cancel_same c [s]).1
  | shutDown => exact (foldl_cancel_same _).1
  | _ => rfl

/-- A session breaks down only if the result buffer is too large for a channel. -/
theorem Run.exceeds_of_broken (run : Run start h c) (fresh : start.IsFresh)
    (hs : c.seats[s]? = some seat) (broken : seat.session.stage = .broken) :
    Channel.maxCapacity < c.resultBuffer := by
  refine Run.seat_induction (motive := fun _ c seat => seat.session.stage = .broken →
    Channel.maxCapacity < c.resultBuffer) ?_ ?_ run fresh hs broken
  · intro h c c' prompt maxLength idleLimit run _ absent broken
    cases broken
  · intro h c c' a earlier seat run change before changed ih broken
    rw [change.resultBuffer_eq]
    cases changed with
    | stay | sent | inputEnded | outletSet | hungUp | left | cancelled | shutDown => exact ih broken
    | step moved =>
        rcases (Session.change_of_step? moved).of_broken broken with no | already
        · cases no
        · exact ih already
    | done | resumed => exact absurd broken Session.answer_ne_broken
    | called _ stage => cases stage.symm.trans broken
    | broken _ _ _ exceeds => exact exceeds

/-- No session ever ends with a mistake of the operator. -/
theorem Run.isProtocol_of_ended (run : Run start h c) (fresh : start.IsFresh)
    (hs : c.seats[s]? = some seat) {e : Error} (stage : seat.session.stage = .ended (.error e)) :
    e.isProtocol = false := by
  rcases run.session fresh hs with ⟨prompt, maxLength, idleLimit, cancelled, so⟩
  have stands := so.stands
  rw [Session.Stands, stage] at stands
  cases stands with
  | result closed =>
      rcases closed.last with ⟨_, _, _, _, ends⟩
      exact Session.isProtocol_of_ending ends
  | cancelled | overlong | idle | lost => rfl

/-- Whatever happens to a console, a session that is over stays as it has ended. -/
theorem Run.over_later (later : Run c h c') (hs : c.seats[s]? = some seat)
    (past : seat.session.isOver = true) : ∃ seat', c'.seats[s]? = some seat' ∧
      seat'.session.stage = seat.session.stage ∧
      seat'.session.written = seat.session.written := by
  rcases later.session_later hs with ⟨seat', hs', so⟩
  exact ⟨seat', hs', so.stays_of_isOver past⟩

/-- What a session writes and how it ends, whatever else happens in the console.

    No session ever ends with a mistake of the operator. A session that nothing cuts short, and
    whose lines are not too long, handles them one by one and writes the transcript of their
    results. Once it is over, nothing changes that any more, and it does not break down unless
    the result buffer is too large for a channel. It ends when its input has ended, its operator
    takes what it writes and nobody is held at a gate: the steps come to an end, and a session
    that is not over then waits for more input. -/
theorem Run.session_transcript (run : Run start h c) (fresh : start.IsFresh)
    (hs : c.seats[s]? = some seat) :
    (∀ e, seat.session.stage = .ended (.error e) → e.isProtocol = false) ∧
    (seat.session.Calm → (∀ line ∈ linesOf (received (history s h)),
        line.length ≤ seat.session.framer.maxLength) → Converses h s seat.session) ∧
    (seat.session.isOver = true → ∀ later c', Run c later c' → ∃ seat', c'.seats[s]? = some seat' ∧
      seat'.session.stage = seat.session.stage ∧ seat'.session.written = seat.session.written) ∧
    (seat.session.stage = .broken → Channel.maxCapacity < c.resultBuffer) ∧
    (Acc (fun after before : Console => ∃ step, before.step? step = some after) c) ∧
    (seat.session.inputEnded = true → seat.session.isStalled = false → c.pool.Ungated →
      c.Stuck → seat.session.isOver = true) := by
  refine ⟨fun e stage => run.isProtocol_of_ended fresh hs stage, run.converses fresh hs, ?_,
    run.exceeds_of_broken fresh hs, wellFounded_step.apply c, ?_⟩
  · intro past later c' goesOn
    exact goesOn.over_later hs past
  · intro ended taken ungated stuck
    exact run.over_of_stuck fresh stuck ungated hs ended taken

end Conversations

/-- The steps in which a session writes a prompt. -/
def prompted (prompt : String) : List Action :=
  [.step (.session 0 .begin), .step (.session 0 .prompt),
    .step (.session 0 (.write (Utf8.encode prompt).length))]

/-- An operator sends a blank line, a mistake, a deletion, the wish to leave, and one more line. -/
def shortConversation : List Action :=
  [.pool (.dispatch 0 ⟨"a", .empty, .counter 2⟩), .opened "> " 64 none,
    .sent 0 (Utf8.encode "\nbogus\ndelcounters a\nquit\nhelp\n"), .inputEnded 0] ++
  prompted "> " ++ [.step (.session 0 (.read 31)), .step (.session 0 .take)] ++
  prompted "> " ++ [.step (.session 0 .take), .step (.session 0 (.write 31))] ++
  prompted "> " ++ [.step (.session 0 .take), .step (.execute 0)] ++
  List.map (fun step => .step (.pool step))
    [.submit 0, .submit 0, .submit 0, .take 0, .take 0, .dropWork 0, .finish 0, .signal 0, .take 1,
      .dropWork 1, .finish 1, .signal 1, .conclude 0] ++
  [.step (.resume 0), .step (.session 0 (.write 19))] ++
  prompted "> " ++ [.step (.session 0 .take), .step (.execute 0),
    .step (.session 0 (.write (Utf8.encode Command.farewell).length))]

theorem shortConversation_transcribed : ∃ h c seat, Run (start 2 16) h c ∧
    c.seats[0]? = some seat ∧ Converses h 0 seat.session ∧
    seat.session.stage = .ended (.error .quit) ∧ (taken (history 0 h)).length = 4 ∧
    seat.session.written.toList = Utf8.encode
      ("> > error: unknown command \"bogus\"\n> deleted 1 counters\n> " ++ Command.farewell) ∧
    ∀ later c', Run c later c' → ∃ seat', c'.seats[0]? = some seat' ∧
      seat'.session.written = seat.session.written := by
  have done : (Trace.perform? react? [] (start 2 16) shortConversation).map (fun r =>
      r.2.seats[0]?.map fun seat => (seat.session.stage, seat.session.cancelled,
        seat.session.outlet)) = some (some (.ended (.error .quit), false, .free)) := by
    decide +kernel
  have gave : (Trace.perform? react? [] (start 2 16) shortConversation).map (fun r =>
      results (history 0 r.1)) = some [.ok "", .error (.unknownCommand "bogus"),
        .ok "deleted 1 counters\n", .error .quit] := by
    decide +kernel
  have lines : (Trace.perform? react? [] (start 2 16) shortConversation).map (fun r =>
      (linesOf (received (history 0 r.1))).all (·.length ≤ 64)) = some true := by
    decide +kernel
  have limits : (Trace.perform? react? [] (start 2 16) shortConversation).map (fun r =>
      r.2.seats[0]?.map fun seat => (seat.session.framer.maxLength, seat.session.prompt)) =
        some (some (64, "> ")) := by
    decide +kernel
  rcases Option.map_eq_some_iff.mp done with ⟨⟨h, c⟩, performed, facts⟩
  rw [performed, Option.map_some, Option.some.injEq] at gave lines limits
  rcases Option.map_eq_some_iff.mp facts with ⟨seat, hs, facts⟩
  rw [hs, Option.map_some, Option.some.injEq] at limits
  simp only [Prod.mk.injEq] at facts limits
  rcases facts with ⟨stage, uncancelled, taken⟩
  rcases limits with ⟨longest, prompt⟩
  have run : Run (start 2 16) h c := Trace.of_perform? .start performed
  have short : ∀ line ∈ linesOf (received (history 0 h)),
      line.length ≤ seat.session.framer.maxLength := by
    intro line mem
    rw [longest]
    simpa using List.all_eq_true.mp lines line mem
  rcases run.session_transcript (isFresh_start 2 16) hs with ⟨_, converses, still, _⟩
  have converses := converses ⟨uncancelled, by simp [taken], by simp [stage]⟩ short
  rcases converses.ended _ stage with ⟨_, answered, written, _⟩
  refine ⟨h, c, seat, run, hs, converses, stage, ?_, ?_, fun later c' goesOn => ?_⟩
  · rw [← answered, gave]
    rfl
  · rw [written, gave, prompt]
    decide +kernel
  · rcases still (by rw [Session.isOver, stage]) later c' goesOn with ⟨seat', hs', _, written⟩
    exact ⟨seat', hs', written⟩

end Console

end ShardConsole
