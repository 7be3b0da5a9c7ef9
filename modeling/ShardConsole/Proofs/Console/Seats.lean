import ShardConsole.Proofs.Console.Action
import ShardConsole.Proofs.Console.SessionRun
import ShardConsole.Proofs.Pool.Run

/-!
# Seats

What the actions on a console are to one of its sessions.

`heard` gives the events that happen to a session at an action, and `history` collects them
over a run of the console. `Run.session` is the projection: whatever happens elsewhere, what
happens to a session is a run of that session. So everything that holds in all runs of sessions
holds of every session of every console, with any number of other sessions, and with a pool in
any state.

A session that has a call is executing the command that the call was made for.

## Main definitions

* `Console.Moment`, `Console.Run`: Histories of possible actions.
* `Console.IsFresh`: A console without sessions whose pool is fresh.
* `Console.heard`: The events that an action means for a session.
* `Console.history`: The history of a session.
* `Console.SeatChange`: What an action does to a seat.
* `Console.Begins`, `Console.Executed`: The execution of a command.

## Theorems

* `Console.Change.seatChange`: Every seat changes in one of these ways.
* `Console.Run.seat_induction`: What is kept by all changes of a seat holds of every seat.
* `Console.Run.session`: The history of a session is a run of the session.
* `Console.Run.seated`: The call of a session was made for the command that it executes.
* `Console.Run.executed`: Every result that a session is given comes from an execution.
-/

namespace ShardConsole

deriving instance DecidableEq for Session.Stage

-- The moments of a session at which given events happen one after the other.
def Session.through (s : Session) : List Session.Event → List Session.Moment
  | [] => []
  | e :: rest => ⟨s, e⟩ :: ((s.react? e).getD s).through rest

namespace Console

open Pool (CallId)
open Session (results)

/-- An action with the state in which it happened. -/
abbrev Moment := Trace.Moment Console Action

/-- A history of possible actions, from a state to a state. -/
abbrev Run (start : Console) : List Moment → Console → Prop :=
  Trace react? start

/-- A console without sessions, in whose pool no call has been made. -/
structure IsFresh (c : Console) : Prop where
  pool : c.pool.IsFresh
  seats : c.seats = #[]

/-- What a session hears when its command is begun. -/
def heardOfExecution (c : Console) (seat : Seat) : List Session.Event :=
  match seat.session.stage with
  | .executing command =>
    match (c.execute command seat.session.cancelled).2 with
    | .done result => [.answered c.now result]
    | .called _ => []
    | .broken => [.brokeDown]
  | _ => []

/-- What a session hears when it gets the result of its call. -/
def heardOfResult (c : Console) (seat : Seat) : List Session.Event :=
  match seat.session.stage, seat.call.bind c.pool.result? with
  | .executing command, some result => [.answered c.now (command.outcome result)]
  | _, _ => []

/-- The bytes that a session hears of, if it still takes any. -/
def heardOfBytes (seat : Seat) (bytes : List UInt8) : List Session.Event :=
  if seat.session.accepts bytes then [.delivered bytes] else []

/-- The events that an action means for a session. -/
def heard (c : Console) (s : SessionId) (seat : Seat) : Action → List Session.Event
  | .step (.session t step) => if t = s then [.step c.now step] else []
  | .step (.execute t) => if t = s then c.heardOfExecution seat else []
  | .step (.resume t) => if t = s then c.heardOfResult seat else []
  | .sent t bytes => if t = s then heardOfBytes seat bytes else []
  | .inputEnded t => if t = s then [.inputEnded] else []
  | .outletSet t outlet => if t = s then [.outletSet outlet] else []
  | .hungUp t bytes => if t = s then heardOfBytes seat bytes ++ [.hungUp] else []
  | .cancelled t => if t = s then [.cancelled] else []
  | .shutDown => [.cancelled]
  | .step (.pool _) | .pool _ | .opened _ _ _ | .reported _ | .passed _ => []

/-- What happens to a session at a moment. -/
def historyAt (s : SessionId) (m : Moment) : List Session.Moment :=
  match m.before.seats[s]? with
  | some seat => seat.session.through (m.before.heard s seat m.action)
  | none => []

/-- The history of a session. -/
def history (s : SessionId) (h : List Moment) : List Session.Moment :=
  h.flatMap (historyAt s)

/-- What an action does to a seat. -/
inductive SeatChange (c : Console) (s : SessionId) (seat : Seat) : Action → Seat → Prop
  | stay {a : Action} (silent : c.heard s seat a = []) : SeatChange c s seat a seat
  | step {step : Session.Step} {session : Session}
      (act : seat.session.step? c.now step = some session) :
      SeatChange c s seat (.step (.session s step)) { seat with session := session }
  | done {command : Command} {result : Except Error String} (free : seat.call = none)
      (stage : seat.session.stage = .executing command)
      (execution : (c.execute command seat.session.cancelled).2 = .done result) :
      SeatChange c s seat (.step (.execute s))
        { seat with session := seat.session.answer c.now result }
  | called {command : Command} {call : CallId} (free : seat.call = none)
      (stage : seat.session.stage = .executing command)
      (execution : (c.execute command seat.session.cancelled).2 = .called call) :
      SeatChange c s seat (.step (.execute s)) { seat with call := some call }
  | broken {command : Command} (free : seat.call = none)
      (stage : seat.session.stage = .executing command)
      (execution : (c.execute command seat.session.cancelled).2 = .broken)
      (exceeds : Channel.maxCapacity < c.resultBuffer) :
      SeatChange c s seat (.step (.execute s))
        { seat with session := { seat.session with stage := .broken } }
  | resumed {command : Command} {call : CallId} {result : Except Unavailable Pool.Reply}
      (seated : seat.call = some call) (returned : c.pool.result? call = some result)
      (stage : seat.session.stage = .executing command) :
      SeatChange c s seat (.step (.resume s))
        ⟨seat.session.answer c.now (command.outcome result), none⟩
  | sent {bytes : List UInt8} (accepted : seat.session.accepts bytes = true) :
      SeatChange c s seat (.sent s bytes) { seat with session := seat.session.deliver bytes }
  | inputEnded : SeatChange c s seat (.inputEnded s) { seat with session := seat.session.endInput }
  | outletSet {outlet : Session.Outlet} : SeatChange c s seat (.outletSet s outlet)
      { seat with session := seat.session.setOutlet outlet }
  | hungUp {bytes : List UInt8} (accepted : seat.session.accepts bytes = true) :
      SeatChange c s seat (.hungUp s bytes)
        { seat with session := (seat.session.deliver bytes).hangUp }
  | left {bytes : List UInt8} (refused : seat.session.accepts bytes = false) :
      SeatChange c s seat (.hungUp s bytes) { seat with session := seat.session.hangUp }
  | cancelled : SeatChange c s seat (.cancelled s) { seat with session := seat.session.cancel }
  | shutDown : SeatChange c s seat .shutDown { seat with session := seat.session.cancel }

/-- At a moment of a history the command of a line of a session was begun, and this came of it.
    Lines are numbered by how many of them have had their results before. -/
inductive Begins (h : List Moment) (s : SessionId) (i : Nat) (command : Command)
    (execution : Execution) : Prop
  | begin {h₁ h₂ : List Moment} {m : Moment} {seat : Seat} (split : h = h₁ ++ m :: h₂)
      (turn : (results (history s h₁)).length = i) (begun : m.action = .step (.execute s))
      (hs : m.before.seats[s]? = some seat) (free : seat.call = none)
      (stage : seat.session.stage = .executing command)
      (came : (m.before.execute command seat.session.cancelled).2 = execution)

/-- In a history the execution of the command of a line gave a session a result, at once or when
    the call that was made for the command had one. -/
inductive Executed (h : List Moment) (s : SessionId) (i : Nat) (command : Command) :
    Except Error String → Prop
  | atOnce {result : Except Error String} (begun : Begins h s i command (.done result)) :
      Executed h s i command result
  | called {call : CallId} {result : Except Unavailable Pool.Reply} {m : Moment} {seat : Seat}
      (begun : Begins h s i command (.called call)) (hm : m ∈ h)
      (resumed : m.action = .step (.resume s)) (hs : m.before.seats[s]? = some seat)
      (seated : seat.call = some call) (returned : m.before.pool.result? call = some result) :
      Executed h s i command (command.outcome result)

section Seats

variable {c c' : Console} {s t : SessionId} {seat seat' : Seat} {a : Action}

theorem isFresh_start (workers resultBuffer : Nat) : (start workers resultBuffer).IsFresh :=
  ⟨Pool.isFresh_start workers, rfl⟩

-- What is done to one session is nothing to another one.
theorem seatChange_of_ne {change : Seat → Seat} (hs : c.seats[s]? = some seat) (other : t ≠ s)
    (silent : c.heard s seat a = []) : ∃ seat', (c.modifySeat t change).seats[s]? = some seat' ∧
      SeatChange c s seat a seat' :=
  ⟨seat, by rw [getElem?_modifySeat, if_neg other, hs], .stay silent⟩

-- What is done to a session is what becomes of it.
theorem seatChange_of_eq {change : Seat → Seat} (hs : c.seats[s]? = some seat)
    (changed : SeatChange c s seat a (change seat)) :
    ∃ seat', (c.modifySeat s change).seats[s]? = some seat' ∧ SeatChange c s seat a seat' :=
  ⟨change seat, by rw [getElem?_modifySeat, if_pos rfl, hs, Option.map_some], changed⟩

theorem seats_cancel : (c.cancel t).seats = (c.modifySession t Session.cancel).seats := by
  rw [cancel]
  split <;> rfl

-- All sessions that are to be cancelled are, and nothing else happens to a session.
theorem getElem?_foldl_cancel (sessions : List SessionId) (hs : c.seats[s]? = some seat) :
    (sessions.foldl cancel c).seats[s]? = some
      (if s ∈ sessions then { seat with session := seat.session.cancel } else seat) := by
  induction sessions generalizing c seat with
  | nil => simp [hs]
  | cons t rest ih =>
      rw [List.foldl_cons]
      by_cases here : t = s
      · subst here
        have next : (c.cancel t).seats[t]? =
            some { seat with session := seat.session.cancel } := by
          rw [seats_cancel, getElem?_modifySession, if_pos rfl, hs, Option.map_some]
        rw [ih next, if_pos List.mem_cons_self]
        split <;> rfl
      · have next : (c.cancel t).seats[s]? = some seat := by
          rw [seats_cancel, getElem?_modifySession, if_neg here, hs]
        rw [ih next]
        simp [Ne.symm here]

-- To cancel sessions changes nothing but the pool and the seats.
theorem foldl_cancel_same (sessions : List SessionId) :
    (sessions.foldl cancel c).resultBuffer = c.resultBuffer ∧
      (sessions.foldl cancel c).shutDown = c.shutDown ∧
      (sessions.foldl cancel c).now = c.now := by
  induction sessions generalizing c with
  | nil => exact ⟨rfl, rfl, rfl⟩
  | cons t rest ih =>
      rcases @ih (c.cancel t) with ⟨buffer, down, now⟩
      rw [List.foldl_cons, buffer, down, now, cancel]
      split <;> exact ⟨rfl, rfl, rfl⟩

theorem size_foldl_cancel (sessions : List SessionId) :
    (sessions.foldl cancel c).seats.size = c.seats.size := by
  induction sessions generalizing c with
  | nil => rfl
  | cons t rest ih => rw [List.foldl_cons, ih, seats_cancel, size_modifySession]

/-- Every seat changes in one of these ways. -/
theorem Change.seatChange (change : Change c a c') (hs : c.seats[s]? = some seat) :
    ∃ seat', c'.seats[s]? = some seat' ∧ SeatChange c s seat a seat' := by
  cases change with
  | poolStep | pool | reported | passed => exact ⟨seat, hs, .stay rfl⟩
  | opened =>
      refine ⟨seat, ?_, .stay rfl⟩
      have inside := (Array.getElem?_eq_some_iff.mp hs).1
      rw [openSession, Array.getElem?_push_lt inside]
      exact Array.getElem?_eq_getElem inside ▸ hs
  | @session t _ step session ht act =>
      by_cases here : t = s
      · subst here
        cases hs.symm.trans ht
        exact seatChange_of_eq hs (.step act)
      · exact seatChange_of_ne hs here (if_neg here)
  | @done t _ command result ht free stage execution =>
      by_cases here : t = s
      · subst here
        cases hs.symm.trans ht
        exact seatChange_of_eq hs (.done free stage (by rw [execution]))
      · exact seatChange_of_ne hs here (if_neg here)
  | @called t _ command request pool ht free stage asks act execution =>
      by_cases here : t = s
      · subst here
        cases hs.symm.trans ht
        refine ⟨{ seat with call := some c.pool.calls.size }, ?_,
          .called free stage (by rw [execution])⟩
        rw [getElem?_modifySeat, if_pos rfl]
        exact congrArg (Option.map _) hs
      · refine ⟨seat, ?_, .stay (if_neg here)⟩
        rw [getElem?_modifySeat, if_neg here]
        exact hs
  | @broken t _ command ht free stage execution exceeds =>
      by_cases here : t = s
      · subst here
        cases hs.symm.trans ht
        exact seatChange_of_eq hs (.broken free stage (by rw [execution]) exceeds)
      · exact seatChange_of_ne hs here (if_neg here)
  | @resumed t _ command call result ht seated returned stage =>
      by_cases here : t = s
      · subst here
        cases hs.symm.trans ht
        exact seatChange_of_eq hs (.resumed seated returned stage)
      · exact seatChange_of_ne hs here (if_neg here)
  | @sent t bytes =>
      by_cases here : t = s
      · subst here
        refine seatChange_of_eq hs ?_
        by_cases accepted : seat.session.accepts bytes = true
        · simp only [if_pos accepted]
          exact .sent accepted
        · simp only [if_neg accepted]
          exact .stay (by rw [heard, if_pos rfl, heardOfBytes, if_neg accepted])
      · exact seatChange_of_ne hs here (if_neg here)
  | @inputEnded t =>
      by_cases here : t = s
      · subst here
        exact seatChange_of_eq hs .inputEnded
      · exact seatChange_of_ne hs here (if_neg here)
  | @outletSet t outlet =>
      by_cases here : t = s
      · subst here
        exact seatChange_of_eq hs .outletSet
      · exact seatChange_of_ne hs here (if_neg here)
  | @hungUp t bytes =>
      by_cases here : t = s
      · subst here
        have sent : (c.send t bytes).seats[t]? = some { seat with
            session := if seat.session.accepts bytes then seat.session.deliver bytes
              else seat.session } := by
          rw [send, getElem?_modifySession, if_pos rfl, hs, Option.map_some]
        by_cases accepted : seat.session.accepts bytes = true
        · rw [if_pos accepted] at sent
          refine ⟨_, ?_, .hungUp accepted⟩
          rw [hangUp, getElem?_modifySession, if_pos rfl, sent, Option.map_some]
        · rw [if_neg accepted] at sent
          refine ⟨_, ?_, .left (by simpa using accepted)⟩
          rw [hangUp, getElem?_modifySession, if_pos rfl, sent, Option.map_some]
      · refine ⟨seat, ?_, .stay (if_neg here)⟩
        rw [hangUp, getElem?_modifySession, if_neg here, send, getElem?_modifySession,
          if_neg here, hs]
  | @cancelled t =>
      by_cases here : t = s
      · subst here
        refine ⟨_, ?_, .cancelled⟩
        rw [seats_cancel, getElem?_modifySession, if_pos rfl, hs, Option.map_some]
      · refine ⟨seat, ?_, .stay (if_neg here)⟩
        rw [seats_cancel, getElem?_modifySession, if_neg here, hs]
  | shutDown =>
      refine ⟨_, ?_, .shutDown⟩
      have inside := (Array.getElem?_eq_some_iff.mp hs).1
      have seats : ({ c with shutDown := true } : Console).seats[s]? = some seat := hs
      have all := getElem?_foldl_cancel (List.range c.seats.size) seats
      rw [if_pos (List.mem_range.mpr inside)] at all
      exact all

-- Only opening a session adds a seat, and nobody takes one away.
theorem Change.seat_of_new (change : Change c a c') (absent : c.seats[s]? = none)
    (hs : c'.seats[s]? = some seat') : ∃ prompt maxLength idleLimit,
      a = .opened prompt maxLength idleLimit ∧ c.seats.size = s ∧
        seat' = ⟨Session.start prompt maxLength idleLimit c.shutDown, none⟩ := by
  have outside := Array.getElem?_eq_none_iff.mp absent
  -- Otherwise there are as many seats as before.
  have same (size : c'.seats.size = c.seats.size) : False := by
    have inside := (Array.getElem?_eq_some_iff.mp hs).1
    rw [size] at inside
    exact Nat.not_lt.mpr outside inside
  cases change with
  | @opened prompt maxLength idleLimit =>
      have inside := (Array.getElem?_eq_some_iff.mp hs).1
      rw [openSession, Array.size_push] at inside
      have last : c.seats.size = s := Nat.le_antisymm outside (Nat.le_of_lt_succ inside)
      refine ⟨prompt, maxLength, idleLimit, rfl, last, ?_⟩
      subst last
      rw [openSession, Array.getElem?_push_size] at hs
      exact (Option.some.inj hs).symm
  | poolStep | pool | reported | passed => exact (same rfl).elim
  | session | done | broken | sent | inputEnded | outletSet =>
      exact (same (size_modifySession _ _ _)).elim
  | called => exact (same (size_modifySeat _ _ _)).elim
  | resumed => exact (same (size_modifySeat _ _ _)).elim
  | hungUp => exact (same (by rw [hangUp, size_modifySession, send, size_modifySession])).elim
  | cancelled => exact (same (by rw [seats_cancel, size_modifySession])).elim
  | shutDown => exact (same (size_foldl_cancel _)).elim

end Seats

section Projection

variable {start c c' : Console} {h h' : List Moment} {s : SessionId} {seat seat' : Seat}
  {a : Action} {command : Command} {result : Except Error String}

@[simp] theorem history_snoc (m : Moment) :
    history s (h ++ [m]) = history s h ++ historyAt s m := by
  simp only [history, List.flatMap_append, List.flatMap_singleton]

theorem history_append : history s (h ++ h') = history s h ++ history s h' :=
  List.flatMap_append

-- Events that are possible one after the other make a run of the session.
theorem through_run {session next : Session} {e : Session.Event}
    (act : session.react? e = some next) : Session.Run session (session.through [e]) next :=
  Trace.single act

theorem SeatChange.run (change : SeatChange c s seat a seat') :
    Session.Run seat.session (seat.session.through (c.heard s seat a)) seat'.session := by
  cases change with
  | stay silent =>
      rw [silent]
      exact .start
  | step act =>
      rw [heard, if_pos rfl]
      exact through_run act
  | @done command result free stage execution =>
      simp only [heard, if_pos, heardOfExecution, stage, execution]
      exact through_run (by simp [Session.react?, Session.isExecuting, stage])
  | @called command call free stage execution =>
      simp only [heard, if_pos, heardOfExecution, stage, execution]
      exact .start
  | @broken command free stage execution =>
      simp only [heard, if_pos, heardOfExecution, stage, execution]
      exact through_run (by simp [Session.react?, Session.isExecuting, stage])
  | @resumed command call result seated returned stage =>
      simp only [heard, if_pos, heardOfResult, stage, seated, Option.bind_some, returned]
      exact through_run (by simp [Session.react?, Session.isExecuting, stage])
  | sent accepted =>
      rw [heard, if_pos rfl, heardOfBytes, if_pos accepted]
      exact through_run (if_pos accepted)
  | inputEnded | outletSet | cancelled =>
      rw [heard, if_pos rfl]
      exact through_run rfl
  | @hungUp bytes accepted =>
      rw [heard, if_pos rfl, heardOfBytes, if_pos accepted]
      have first : seat.session.react? (.delivered bytes) = some (seat.session.deliver bytes) :=
        if_pos accepted
      have second : (seat.session.deliver bytes).react? .hungUp =
          some (seat.session.deliver bytes).hangUp := rfl
      simpa [Session.through, first] using (through_run first).trans (through_run second)
  | left refused =>
      rw [heard, if_pos rfl, heardOfBytes, refused]
      exact through_run rfl
  | shutDown => exact through_run rfl

-- Nothing has happened to a session that is not there.
theorem Run.history_eq_nil (run : Run start h c) (absent : c.seats[s]? = none) :
    history s h = [] := by
  induction run with
  | start => rfl
  | @next h c c' a run act ih =>
      have before : c.seats[s]? = none := by
        cases hs : c.seats[s]? with
        | none => rfl
        | some seat =>
            rcases (change_of_react? act).seatChange hs with ⟨now, there, _⟩
            cases absent.symm.trans there
      rw [history_snoc, ih before, historyAt, before]
      rfl

/-- What holds of a seat when its session is opened, and is kept by whatever happens to it, holds
    of every seat at any time. -/
theorem Run.seat_induction {motive : List Moment → Console → Seat → Prop}
    (opened : ∀ {h c c' prompt maxLength idleLimit}, Run start h c →
      Change c (.opened prompt maxLength idleLimit) c' → c.seats[s]? = none →
      motive (h ++ [⟨c, .opened prompt maxLength idleLimit⟩]) c'
        ⟨Session.start prompt maxLength idleLimit c.shutDown, none⟩)
    (changed : ∀ {h c c' a seat seat'}, Run start h c → Change c a c' → c.seats[s]? = some seat →
      SeatChange c s seat a seat' → motive h c seat → motive (h ++ [⟨c, a⟩]) c' seat')
    (run : Run start h c) (fresh : start.IsFresh) (hs : c.seats[s]? = some seat) :
    motive h c seat := by
  induction run generalizing seat with
  | start => simp [fresh.seats] at hs
  | @next h c c' a run act ih =>
      have change := change_of_react? act
      cases before : c.seats[s]? with
      | none =>
          rcases change.seat_of_new before hs with ⟨prompt, maxLength, idleLimit, rfl, _, rfl⟩
          exact opened run change before
      | some earlier =>
          rcases change.seatChange before with ⟨now, hn, seatChange⟩
          cases hs.symm.trans hn
          exact changed run change before seatChange (ih before)

/-- Whatever happens to a console, what happens to a session is a run of that session, from
    where it was opened. -/
theorem Run.session (run : Run start h c) (fresh : start.IsFresh) (hs : c.seats[s]? = some seat) :
    ∃ prompt maxLength idleLimit cancelled,
      Session.Run (.start prompt maxLength idleLimit cancelled) (history s h) seat.session := by
  refine Run.seat_induction (motive := fun h _ seat => ∃ prompt maxLength idleLimit cancelled,
    Session.Run (.start prompt maxLength idleLimit cancelled) (history s h) seat.session)
    ?_ ?_ run fresh hs
  · intro h c c' prompt maxLength idleLimit run _ absent
    refine ⟨prompt, maxLength, idleLimit, c.shutDown, ?_⟩
    rw [history_snoc, historyAt, absent, run.history_eq_nil absent]
    exact .start
  · rintro h c c' a seat seat' run _ hs changed ⟨prompt, maxLength, idleLimit, cancelled, so⟩
    refine ⟨prompt, maxLength, idleLimit, cancelled, ?_⟩
    rw [history_snoc, historyAt, hs]
    exact so.trans changed.run

/-- A session stays where it is, and what happens to it later is a run that goes on. -/
theorem Run.session_later (later : Run c h c') (hs : c.seats[s]? = some seat) :
    ∃ seat', c'.seats[s]? = some seat' ∧
      Session.Run seat.session (history s h) seat'.session := by
  induction later with
  | start => exact ⟨seat, hs, .start⟩
  | next run act ih =>
      rcases ih with ⟨now, hn, so⟩
      rcases (change_of_react? act).seatChange hn with ⟨after, ha, changed⟩
      refine ⟨after, ha, ?_⟩
      rw [history_snoc, historyAt, hn]
      exact so.trans changed.run

-- Every moment of the history of a session is in a moment of the console.
theorem history_split {g₁ g₂ : List Session.Moment} {m : Session.Moment}
    (split : history s h = g₁ ++ m :: g₂) : ∃ h₁ moment h₂ a b, h = h₁ ++ moment :: h₂ ∧
      historyAt s moment = a ++ m :: b ∧ g₁ = history s h₁ ++ a := by
  induction h generalizing g₁ with
  | nil => simp [history] at split
  | cons first rest ih =>
      rw [history, List.flatMap_cons] at split
      have later {g : List Session.Moment} (there : history s rest = g ++ m :: g₂)
          (same : g₁ = historyAt s first ++ g) : ∃ h₁ moment h₂ a b,
          first :: rest = h₁ ++ moment :: h₂ ∧ historyAt s moment = a ++ m :: b ∧
            g₁ = history s h₁ ++ a := by
        rcases ih there with ⟨h₁, moment, h₂, a, b, rfl, here, rfl⟩
        refine ⟨first :: h₁, moment, h₂, a, b, rfl, here, ?_⟩
        rw [same, history, history, List.flatMap_cons, List.append_assoc]
      rcases List.append_eq_append_iff.mp split with ⟨g, same, there⟩ | ⟨b, here, there⟩
      · exact later there same
      · cases b with
        | nil =>
            rw [List.append_nil] at here
            exact later (g := []) there.symm (by rw [here, List.append_nil])
        | cons m' b =>
            cases there
            exact ⟨[], first, rest, g₁, b, rfl, here, rfl⟩

theorem Begins.append {i : Nat} {execution : Execution}
    (begins : Begins h s i command execution) : Begins (h ++ h') s i command execution := by
  rcases begins with ⟨split, turn, begun, hs, free, stage, came⟩
  rw [split, List.append_assoc, List.cons_append]
  exact .begin rfl turn begun hs free stage came

-- A session whose command is being executed takes no steps by itself.
theorem step?_of_executing {session next : Session} {now : Nat} {step : Session.Step}
    (stage : session.stage = .executing command) : session.step? now step ≠ some next := by
  intro act
  cases Session.change_of_step? act <;> simp_all

/-- A session that has a call executes the command of the line whose turn it is, and the call was
    made for this. -/
theorem Run.seated (run : Run start h c) (fresh : start.IsFresh) (hs : c.seats[s]? = some seat)
    {call : CallId} (seated : seat.call = some call) : ∃ command,
      seat.session.stage = .executing command ∧
        Begins h s (results (history s h)).length command (.called call) := by
  refine Run.seat_induction (motive := fun h _ seat => seat.call = some call → ∃ command,
    seat.session.stage = .executing command ∧
      Begins h s (results (history s h)).length command (.called call)) ?_ ?_ run fresh hs seated
  · intro h c c' prompt maxLength idleLimit run _ absent seated
    cases seated
  · intro h c c' a earlier seat run _ before changed ih seated
    -- What comes from outside leaves the stage as it is and gives no result.
    have still (same : seat.session.stage = earlier.session.stage)
        (kept : earlier.call = some call)
        (quiet : results (earlier.session.through (c.heard s earlier a)) = []) :
        ∃ command, seat.session.stage = .executing command ∧
          Begins (h ++ [⟨c, a⟩]) s (results (history s (h ++ [⟨c, a⟩]))).length command
            (.called call) := by
      rcases ih kept with ⟨command, stage, begins⟩
      refine ⟨command, same.trans stage, ?_⟩
      rw [history_snoc, historyAt, before, Session.results_append, quiet, List.append_nil]
      exact begins.append
    cases changed with
    | stay silent => exact still rfl seated (by rw [silent]; rfl)
    | sent accepted | hungUp accepted =>
        exact still rfl seated (by rw [heard, if_pos rfl, heardOfBytes, if_pos accepted]; rfl)
    | left refused =>
        exact still rfl seated (by rw [heard, if_pos rfl, heardOfBytes, refused]; rfl)
    | inputEnded | outletSet | cancelled =>
        exact still rfl seated (by simp only [heard, if_pos]; rfl)
    | shutDown => exact still rfl seated rfl
    | step moved =>
        rcases ih seated with ⟨command, stage, _⟩
        exact absurd moved (step?_of_executing stage)
    | done free | broken free => cases free.symm.trans seated
    | @called command call' free stage execution =>
        cases seated
        have quiet : c.heard s earlier (.step (.execute s)) = [] := by
          simp only [heard, if_pos, heardOfExecution, stage, execution]
        refine ⟨command, stage, ?_⟩
        rw [history_snoc, historyAt, before]
        simp only [quiet, Session.through, List.append_nil]
        exact .begin rfl rfl rfl before free stage execution
    | resumed => cases seated

-- Whatever happens to a session one after the other was to happen.
theorem action_of_mem_through {session : Session} {m : Session.Moment}
    {events : List Session.Event} (mem : m ∈ session.through events) : m.action ∈ events := by
  induction events generalizing session with
  | nil => cases mem
  | cons e rest ih =>
      rcases List.mem_cons.mp mem with rfl | later
      · exact List.mem_cons_self
      · exact List.mem_cons_of_mem _ (ih later)

-- A history of one moment has only that one.
theorem eq_of_singleton {m m' : Session.Moment} {a b : List Session.Moment}
    (same : [m'] = a ++ m :: b) : a = [] ∧ m' = m := by
  cases a with
  | nil => exact ⟨rfl, (List.cons.inj same).1⟩
  | cons first rest => simp at same

/-- Every result that a session is given comes from the execution of the command of the line
    whose turn it is. -/
theorem Run.executed (run : Run start h c) (fresh : start.IsFresh) {g₁ g₂ : List Session.Moment}
    {m : Session.Moment} {now : Nat} (split : history s h = g₁ ++ m :: g₂)
    (stage : m.before.stage = .executing command) (answered : m.action = .answered now result) :
    Executed h s (results g₁).length command result := by
  rcases history_split split with ⟨h₁, moment, h₂, a, b, rfl, here, rfl⟩
  rcases run.split with ⟨run₁, next, act, _⟩
  rw [historyAt] at here
  cases hs : moment.before.seats[s]? with
  | none => simp [hs] at here
  | some seat =>
      rw [hs] at here
      rcases (change_of_react? act).seatChange hs with ⟨after, _, changed⟩
      generalize action : moment.action = did at changed
      rw [action] at here
      -- Nothing but an execution gives a session a result.
      have given : Session.Event.answered now result ∈ moment.before.heard s seat did := by
        rw [← answered]
        exact action_of_mem_through (here ▸ List.mem_append_right a List.mem_cons_self)
      cases changed with
      | stay silent => simp [silent] at given
      | step | inputEnded | outletSet | cancelled | shutDown => simp [heard] at given
      | sent accepted | hungUp accepted => simp [heard, heardOfBytes, accepted] at given
      | left refused => simp [heard, heardOfBytes, refused] at given
      | called free working execution | broken free working execution =>
          simp [heard, heardOfExecution, working, execution] at given
      | @done command' result' free working execution =>
          simp only [heard, if_pos, heardOfExecution, working, execution, Session.through] at here
          rcases eq_of_singleton here with ⟨rfl, rfl⟩
          cases working.symm.trans stage
          cases answered
          rw [List.append_nil]
          exact .atOnce (.begin rfl rfl action hs free working execution)
      | @resumed command' call reply seated returned working =>
          simp only [heard, if_pos, heardOfResult, working, seated, Option.bind_some, returned,
            Session.through] at here
          rcases eq_of_singleton here with ⟨rfl, rfl⟩
          cases working.symm.trans stage
          cases answered
          rcases Run.seated run₁ fresh hs seated with ⟨_, same, begins⟩
          cases working.symm.trans same
          rw [List.append_nil]
          exact .called begins.append (List.mem_append_right _ List.mem_cons_self) action hs
            seated returned

end Projection

end Console

end ShardConsole
