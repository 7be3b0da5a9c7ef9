import ShardConsole.Proofs.Console.Seats

/-!
# The Pool of a Console

What the actions on a console are to its pool.

`asked` gives what an action asks of the pool: a step of the pool is itself, a command that is
begun is the call that it makes, and whoever cancels a session cancels the call that the session
waits for. `poolHistory` collects these over a run of the console. `Run.pool` is the projection:
what happens to the pool of a console is a run of the pool, so everything that holds in all runs
of pools holds of the pool of every console.

## Main definitions

* `Pool.through`: The moments of a pool at which given actions happen one after the other.
* `Console.asked`: What an action asks of the pool.
* `Console.poolHistory`: The history of the pool of a console.

## Theorems

* `Console.Run.pool`: The history of the pool is a run of the pool.
* `Console.Begins.begun`: The call of a command is made in the history of the pool.
-/

namespace ShardConsole

/-- The moments of a pool at which given actions happen one after the other. -/
def Pool.through (p : Pool) : List Pool.Action → List Pool.Moment
  | [] => []
  | a :: rest => ⟨p, a⟩ :: ((p.act? a).getD p).through rest

-- All of these actions happen, and nothing else.
theorem Pool.actions_through (p : Pool) (actions : List Pool.Action) :
    (p.through actions).map Trace.Moment.action = actions := by
  induction actions generalizing p with
  | nil => rfl
  | cons a rest ih => rw [through, List.map_cons, ih]

namespace Console

open Pool (CallId)

/-- What the beginning of a command asks of the pool. -/
def askedByExecution (c : Console) (seat : Seat) : List Pool.Action :=
  match seat.session.stage with
  | .executing command =>
    match (c.execute command seat.session.cancelled).2 with
    | .called _ => (c.requestOf command seat.session.cancelled).toList
    | .done _ | .broken => []
  | _ => []

/-- What the cancellation of a session asks of the pool. -/
def askedByCancelling (c : Console) (s : SessionId) : List Pool.Action :=
  ((c.seats[s]?.bind Seat.call).map .cancel).toList

/-- What an action asks of the pool. -/
def asked (c : Console) : Action → List Pool.Action
  | .step (.pool step) => [.step step]
  | .pool request => [request]
  | .step (.execute s) => (c.seats[s]?.map c.askedByExecution).getD []
  | .cancelled s => c.askedByCancelling s
  | .shutDown => (List.range c.seats.size).flatMap c.askedByCancelling
  | .step (.session _ _) | .step (.resume _) | .opened _ _ _ | .sent _ _ | .inputEnded _
  | .outletSet _ _ | .hungUp _ _ | .reported _ | .passed _ => []

/-- What happens to the pool at a moment. -/
def poolHistoryAt (m : Moment) : List Pool.Moment :=
  m.before.pool.through (m.before.asked m.action)

/-- The history of the pool of a console. -/
def poolHistory (h : List Moment) : List Pool.Moment :=
  h.flatMap poolHistoryAt

@[simp] theorem poolHistory_snoc (h : List Moment) (m : Moment) :
    poolHistory (h ++ [m]) = poolHistory h ++ poolHistoryAt m := by
  simp only [poolHistory, List.flatMap_append, List.flatMap_singleton]

section Projection

variable {start c c' : Console} {h : List Moment} {s : SessionId} {a : Action}
  {command : Command} {call : CallId}

-- A single action that is possible is a run.
theorem run_through {p p' : Pool} {request : Pool.Action} (act : p.act? request = some p') :
    Pool.Run p (p.through [request]) p' :=
  Trace.single act

-- A command asks for the call that it makes, and if it makes none it asks for nothing.
theorem asked_of_called {seat : Seat} {request : Pool.Action} {pool : Pool}
    (hs : c.seats[s]? = some seat) (stage : seat.session.stage = .executing command)
    (asks : c.requestOf command seat.session.cancelled = some request)
    (execution : c.execute command seat.session.cancelled =
      ({ c with pool := pool }, .called call)) : c.asked (.step (.execute s)) = [request] := by
  simp only [asked, hs, Option.map_some, Option.getD_some, askedByExecution, stage, execution,
    asks, Option.toList_some]

theorem asked_of_no_call {seat : Seat} {execution : Execution} (hs : c.seats[s]? = some seat)
    (stage : seat.session.stage = .executing command)
    (same : c.execute command seat.session.cancelled = (c, execution))
    (none : ∀ call, execution ≠ .called call) : c.asked (.step (.execute s)) = [] := by
  simp only [asked, hs, Option.map_some, Option.getD_some, askedByExecution, stage, same]
  cases execution with
  | called call => exact absurd rfl (none call)
  | done | broken => rfl

-- To cancel a session does not change who waits for which call.
theorem call_cancel (t : SessionId) :
    (c.cancel t).seats[s]?.bind Seat.call = c.seats[s]?.bind Seat.call := by
  rw [seats_cancel, getElem?_modifySession]
  split
  · cases c.seats[s]? <;> rfl
  · rfl

-- Nothing happens to the pool but that the call of the session is cancelled, if it has one.
theorem pool_cancel (t : SessionId) : (c.cancel t).pool =
    match c.seats[t]?.bind Seat.call with
    | some call => c.pool.cancel call
    | none => c.pool := by
  have kept := @call_cancel c t t
  rw [seats_cancel] at kept
  rw [cancel, kept]
  cases c.seats[t]?.bind Seat.call <;> rfl

theorem pool_foldl_cancel (sessions : List SessionId) :
    Pool.Run c.pool (c.pool.through (sessions.flatMap c.askedByCancelling))
      (sessions.foldl cancel c).pool := by
  induction sessions generalizing c with
  | nil => exact .start
  | cons t rest ih =>
      have later := @ih (c.cancel t)
      have same : (c.cancel t).askedByCancelling = c.askedByCancelling := by
        funext s
        rw [askedByCancelling, askedByCancelling, call_cancel]
      rw [same, pool_cancel] at later
      rw [List.flatMap_cons, List.foldl_cons]
      cases call : c.seats[t]?.bind Seat.call with
      | none =>
          rw [call] at later
          rwa [askedByCancelling, call]
      | some call' =>
          rw [call] at later
          have first : Pool.Run c.pool [⟨c.pool, .cancel call'⟩] (c.pool.cancel call') :=
            run_through rfl
          have both := first.trans later
          rwa [askedByCancelling, call]

/-- What an action asks of the pool is possible one after the other, and leads to the pool that
    there is then. -/
theorem Change.pool_run (change : Change c a c') :
    Pool.Run c.pool (poolHistoryAt ⟨c, a⟩) c'.pool := by
  have still {later : Console} (same : later.pool = c.pool) (none : c.asked a = []) :
      Pool.Run c.pool (poolHistoryAt ⟨c, a⟩) later.pool := by
    rw [poolHistoryAt, none, same]
    exact .start
  cases change with
  | @poolStep step pool act => exact @run_through _ _ (.step step) act
  | pool spares act => exact run_through act
  | called hs _ stage asks act execution =>
      rw [poolHistoryAt, asked_of_called hs stage asks execution]
      exact run_through act
  | done hs _ stage execution => exact still rfl (asked_of_no_call hs stage execution (by simp))
  | broken hs _ stage execution => exact still rfl (asked_of_no_call hs stage execution (by simp))
  | @cancelled s =>
      have all := @pool_foldl_cancel c [s]
      rwa [List.flatMap_singleton] at all
  | shutDown => exact @pool_foldl_cancel { c with shutDown := true } _
  | _ => exact still rfl rfl

/-- What happens to the pool of a console is a run of the pool. -/
theorem Run.pool (run : Run start h c) : Pool.Run start.pool (poolHistory h) c.pool := by
  induction run with
  | start => exact .start
  | next run act ih =>
      rw [poolHistory_snoc]
      exact ih.trans (change_of_react? act).pool_run

-- What a command asks of the pool is a call that it makes.
theorem begins_of_requestOf {cancelled : Bool} {request : Pool.Action} {pool : Pool}
    (asks : c.requestOf command cancelled = some request)
    (act : c.pool.act? request = some pool) : ∃ made, request.Begins made ∧
      pool = (c.pool.begin made).1 := by
  unfold requestOf at asks
  split at asks <;> cases asks
  · cases Pool.change_of_act? act with
    | begin begins => exact ⟨_, begins, rfl⟩
  · cases Pool.change_of_act? act with
    | begin begins => exact ⟨_, begins, rfl⟩

-- A session that has got a call just now has begun its command.
theorem SeatChange.new_call {seat seat' : Seat} (changed : SeatChange c s seat a seat')
    (change : Change c a c') (hs : c.seats[s]? = some seat) (seated : seat'.call = some call)
    (new : seat.call ≠ some call) : ∃ command request, seat'.session = seat.session ∧
      c.requestOf command seat.session.cancelled = some request ∧
      c.pool.act? request = some c'.pool ∧ call = c.pool.calls.size := by
  cases changed with
  | @called command _ free stage execution =>
      cases seated
      cases change with
      | done hs' _ stage' execution' | broken hs' _ stage' execution' =>
          cases hs.symm.trans hs'
          cases stage.symm.trans stage'
          rw [execution'] at execution
          cases execution
      | called hs' _ stage' asks moved execution' =>
          cases hs.symm.trans hs'
          cases stage.symm.trans stage'
          rw [execution'] at execution
          cases execution
          exact ⟨command, _, rfl, asks, moved, rfl⟩
  | resumed => cases seated
  | _ => exact absurd seated new

/-- The call of a command of a session is made in the history of the pool, as the command asks
    for it. -/
theorem Begins.begun {i : Nat} (begins : Begins h s i command (.called call)) :
    ∃ m ∈ h, ∃ cancelled request, m.before.requestOf command cancelled = some request ∧
      Pool.Begun (poolHistory h) call request := by
  rcases begins with @⟨h₁, h₂, ⟨before, action⟩, seat, split, _, begun, hs, _, stage, came⟩
  cases begun
  rcases before.execute_cases command seat.session.cancelled with
    ⟨result, execution⟩ | ⟨request, pool, asks, act, execution⟩ | ⟨execution, _⟩
  · rw [execution] at came
    cases came
  · rw [execution] at came
    cases came
    rcases begins_of_requestOf asks act with ⟨made, begins, _⟩
    have mem : ⟨before, .step (.execute s)⟩ ∈ h := by
      rw [split]
      exact List.mem_append_right _ List.mem_cons_self
    refine ⟨_, mem, _, request, asks, ⟨before.pool, request⟩, ?_, rfl, rfl, made, begins⟩
    refine List.mem_flatMap.mpr ⟨_, mem, ?_⟩
    rw [poolHistoryAt, asked_of_called hs stage asks execution]
    exact List.mem_cons_self
  · rw [execution] at came
    cases came

end Projection

end Console

end ShardConsole
