import ShardConsole.Console.Request
import ShardConsole.Console.Step
import ShardConsole.Proofs.Pool.Action

/-!
# Actions on a Console

Everything that can happen to a console, and what it does.

A console changes by its own steps, by requests to its pool, and by what operators and the rest
of the program do: sessions are opened, bytes are sent to them, operators take what is written or
do not, and go away, sessions are cancelled, statistics are reported and time passes. The calls
that sessions wait for belong to them, so nobody else can cancel or abandon these.

`Change` says once what an action can do, one constructor for each way in which it is possible,
and `change_of_react?` is the inversion. What happens to the pool and what happens to a single
seat are both read off it.

## Main definitions

* `Console.Action`: Something that happens to a console.
* `Console.react?`: The console after an action, if the action is possible.
* `Console.requestOf`: What a command asks of the pool.
* `Console.Change`: What an action does to a console.

## Theorems

* `Console.execute_cases`: What the execution of a command leads to.
* `Console.change_of_react?`: A possible action is one of the changes.
-/

namespace ShardConsole

namespace Console

open Pool (CallId)

/-- Something that happens to a console. -/
inductive Action
  | step (step : Step)
  /-- Something is asked of the pool from elsewhere. -/
  | pool (request : Pool.Action)
  | opened (prompt : String) (maxLength : Nat) (idleLimit : Option Nat)
  | sent (s : SessionId) (bytes : List UInt8)
  | inputEnded (s : SessionId)
  | outletSet (s : SessionId) (outlet : Session.Outlet)
  | hungUp (s : SessionId) (bytes : List UInt8)
  | cancelled (s : SessionId)
  | shutDown
  | reported (stats : Stats)
  | passed (ms : Nat)

/-- Whether a session waits for a call. -/
def isSeated (c : Console) (call : CallId) : Bool :=
  c.seats.any fun seat => seat.call == some call

/-- Whether a request neither cancels nor abandons a call that a session waits for. -/
def spares (c : Console) : Pool.Action → Bool
  | .cancel call | .drop call => !c.isSeated call
  | _ => true

/-- The console after an action, if the action is possible. -/
def react? (c : Console) : Action → Option Console
  | .step step => c.step? step
  | .pool request =>
    if c.spares request then (c.pool.act? request).map fun pool => { c with pool := pool }
    else none
  | .opened prompt maxLength idleLimit => some (c.openSession prompt maxLength idleLimit).1
  | .sent s bytes => some (c.send s bytes)
  | .inputEnded s => some (c.endInput s)
  | .outletSet s outlet => some (c.setOutlet s outlet)
  | .hungUp s bytes => some (c.hangUp s bytes)
  | .cancelled s => some (c.cancel s)
  | .shutDown => some c.shutdown
  | .reported stats => some { c with stats := stats }
  | .passed ms => some { c with now := c.now + ms }

/-- What a command asks of the pool, if it asks anything. -/
def requestOf (c : Console) (command : Command) (cancelled : Bool) : Option Pool.Action :=
  match command with
  | .list kind => some (.list c.resultBuffer kind cancelled)
  | .delete kind names => some (.delete kind names cancelled)
  | .help | .stats | .quit => none

/-- What an action does to a console. -/
inductive Change (c : Console) : Action → Console → Prop
  | poolStep {step : Pool.Step} {pool : Pool} (act : c.pool.step? step = some pool) :
      Change c (.step (.pool step)) { c with pool := pool }
  | pool {request : Pool.Action} {pool : Pool} (spares : c.spares request = true)
      (act : c.pool.act? request = some pool) : Change c (.pool request) { c with pool := pool }
  | session {s : SessionId} {seat : Seat} {step : Session.Step} {session : Session}
      (hs : c.seats[s]? = some seat) (act : seat.session.step? c.now step = some session) :
      Change c (.step (.session s step)) (c.modifySession s fun _ => session)
  | done {s : SessionId} {seat : Seat} {command : Command} {result : Except Error String}
      (hs : c.seats[s]? = some seat) (free : seat.call = none)
      (stage : seat.session.stage = .executing command)
      (execution : c.execute command seat.session.cancelled = (c, .done result)) :
      Change c (.step (.execute s)) (c.modifySession s (·.answer c.now result))
  | called {s : SessionId} {seat : Seat} {command : Command} {request : Pool.Action} {pool : Pool}
      (hs : c.seats[s]? = some seat) (free : seat.call = none)
      (stage : seat.session.stage = .executing command)
      (asks : c.requestOf command seat.session.cancelled = some request)
      (act : c.pool.act? request = some pool)
      (execution : c.execute command seat.session.cancelled =
        ({ c with pool := pool }, .called c.pool.calls.size)) :
      Change c (.step (.execute s))
        ({ c with pool := pool }.modifySeat s fun seat =>
          { seat with call := some c.pool.calls.size })
  | broken {s : SessionId} {seat : Seat} {command : Command} (hs : c.seats[s]? = some seat)
      (free : seat.call = none) (stage : seat.session.stage = .executing command)
      (execution : c.execute command seat.session.cancelled = (c, .broken))
      (exceeds : Channel.maxCapacity < c.resultBuffer) :
      Change c (.step (.execute s)) (c.modifySession s fun session =>
        { session with stage := .broken })
  | resumed {s : SessionId} {seat : Seat} {command : Command} {call : CallId}
      {result : Except Unavailable Pool.Reply} (hs : c.seats[s]? = some seat)
      (seated : seat.call = some call) (returned : c.pool.result? call = some result)
      (stage : seat.session.stage = .executing command) :
      Change c (.step (.resume s)) (c.modifySeat s fun seat =>
        ⟨seat.session.answer c.now (command.outcome result), none⟩)
  | opened {prompt : String} {maxLength : Nat} {idleLimit : Option Nat} :
      Change c (.opened prompt maxLength idleLimit) (c.openSession prompt maxLength idleLimit).1
  | sent {s : SessionId} {bytes : List UInt8} : Change c (.sent s bytes) (c.send s bytes)
  | inputEnded {s : SessionId} : Change c (.inputEnded s) (c.endInput s)
  | outletSet {s : SessionId} {outlet : Session.Outlet} :
      Change c (.outletSet s outlet) (c.setOutlet s outlet)
  | hungUp {s : SessionId} {bytes : List UInt8} : Change c (.hungUp s bytes) (c.hangUp s bytes)
  | cancelled {s : SessionId} : Change c (.cancelled s) (c.cancel s)
  | shutDown : Change c .shutDown c.shutdown
  | reported {stats : Stats} : Change c (.reported stats) { c with stats := stats }
  | passed {ms : Nat} : Change c (.passed ms) { c with now := c.now + ms }

section Fields

variable (c : Console) (s t : SessionId)

/-- Only the seat that is changed is another one afterwards. -/
theorem getElem?_modifySeat (change : Seat → Seat) : (c.modifySeat s change).seats[t]? =
    if s = t then c.seats[t]?.map change else c.seats[t]? := by
  rw [modifySeat, Array.getElem?_modify]

theorem getElem?_modifySession (change : Session → Session) :
    (c.modifySession s change).seats[t]? =
      if s = t then c.seats[t]?.map fun seat => { seat with session := change seat.session }
      else c.seats[t]? :=
  c.getElem?_modifySeat s t _

@[simp] theorem size_modifySeat (change : Seat → Seat) :
    (c.modifySeat s change).seats.size = c.seats.size := by
  rw [modifySeat, Array.size_modify]

@[simp] theorem size_modifySession (change : Session → Session) :
    (c.modifySession s change).seats.size = c.seats.size :=
  c.size_modifySeat s _

end Fields

section Inversion

variable {c c' : Console} {s : SessionId} {a : Action}

/-- What the execution of a command leads to: the command has its result at once, or what it
    asks of the pool is the next call there, or it breaks down. -/
theorem execute_cases (command : Command) (cancelled : Bool) :
    (∃ result, c.execute command cancelled = (c, .done result)) ∨
    (∃ request pool, c.requestOf command cancelled = some request ∧
      c.pool.act? request = some pool ∧ c.execute command cancelled =
        ({ c with pool := pool }, .called c.pool.calls.size)) ∨
    (c.execute command cancelled = (c, .broken) ∧ Channel.maxCapacity < c.resultBuffer) := by
  cases command with
  | help | stats | quit => exact Or.inl ⟨_, rfl⟩
  | delete kind names => exact Or.inr (Or.inl ⟨_, _, rfl, rfl, rfl⟩)
  | list kind =>
      cases created : Channel.create? (max c.resultBuffer 1) with
      | some channel =>
          have begun : c.pool.beginList? c.resultBuffer kind cancelled =
              some (c.pool.begin (.start (.list kind) (.listing (.start channel)) cancelled)) := by
            rw [Pool.beginList?, created, Option.map_some]
          refine Or.inr (Or.inl ⟨_, _, rfl, congrArg (Option.map Prod.fst) begun, ?_⟩)
          simp only [execute, begun]
          rfl
      | none =>
          refine Or.inr (Or.inr ⟨?_, ?_⟩)
          · simp only [execute, Pool.beginList?, created, Option.map_none]
          · rw [Channel.create?] at created
            split at created
            · cases created
            · have pos : 1 ≤ Channel.maxCapacity := by decide
              omega

theorem change_of_execute? (h : c.execute? s = some c') : Change c (.step (.execute s)) c' := by
  simp only [execute?, Option.bind_eq_bind, Option.bind_eq_some_iff] at h
  rcases h with ⟨seat, hs, h⟩
  split at h
  · rename_i command free stage
    rcases c.execute_cases command seat.session.cancelled with
      ⟨result, execution⟩ | ⟨request, pool, asks, act, execution⟩ | ⟨execution, exceeds⟩
    · rw [execution] at h
      cases h
      exact .done hs free stage execution
    · rw [execution] at h
      cases h
      exact .called hs free stage asks act execution
    · rw [execution] at h
      cases h
      exact .broken hs free stage execution exceeds
  · cases h

theorem change_of_resume? (h : c.resume? s = some c') : Change c (.step (.resume s)) c' := by
  simp only [resume?, Option.bind_eq_bind, Option.bind_eq_some_iff] at h
  rcases h with ⟨seat, hs, call, seated, result, returned, h⟩
  split at h
  · rename_i command stage
    cases h
    exact .resumed hs seated returned stage
  · cases h

/-- A possible action is one of the changes. -/
theorem change_of_react? (h : c.react? a = some c') : Change c a c' := by
  cases a with
  | step step =>
      cases step with
      | pool step =>
          rcases Option.map_eq_some_iff.mp h with ⟨pool, act, rfl⟩
          exact .poolStep act
      | session s step =>
          simp only [react?, step?, Option.bind_eq_bind, Option.bind_eq_some_iff] at h
          rcases h with ⟨seat, hs, session, act, same⟩
          cases same
          exact .session hs act
      | execute s => exact change_of_execute? h
      | resume s => exact change_of_resume? h
  | pool request =>
      rcases Option.ite_none_right_eq_some.mp h with ⟨spares, h⟩
      rcases Option.map_eq_some_iff.mp h with ⟨pool, act, rfl⟩
      exact .pool spares act
  | opened prompt maxLength idleLimit =>
      cases h
      exact .opened
  | sent s bytes =>
      cases h
      exact .sent
  | inputEnded s =>
      cases h
      exact .inputEnded
  | outletSet s outlet =>
      cases h
      exact .outletSet
  | hungUp s bytes =>
      cases h
      exact .hungUp
  | cancelled s =>
      cases h
      exact .cancelled
  | shutDown =>
      cases h
      exact .shutDown
  | reported stats =>
      cases h
      exact .reported
  | passed ms =>
      cases h
      exact .passed

end Inversion

end Console

end ShardConsole
