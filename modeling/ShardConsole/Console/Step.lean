import ShardConsole.Console.Basic
import ShardConsole.Pool.Step

/-!
# Steps of the Console

What can happen next in a console by itself, one indivisible action at a time: a step
of the pool, a step of a session, or one of the two by which they meet.

## Main definitions

* `Console.Step`: Who acts and how.
* `Console.step?`: The console after a step, if the step is possible.
-/

namespace ShardConsole

namespace Console

/-- An action in a console. -/
inductive Step
  | pool (step : Pool.Step)
  | session (s : SessionId) (step : Session.Step)
  /-- The command of a session is begun. -/
  | execute (s : SessionId)
  /-- A session gets the result of its call. -/
  | resume (s : SessionId)
deriving DecidableEq

/-- The console after the command of a session has been begun. -/
def execute? (c : Console) (s : SessionId) : Option Console := do
  let seat ← c.seats[s]?
  match seat.call, seat.session.stage with
  | none, .executing command =>
    let (c, execution) := c.execute command seat.session.cancelled
    match execution with
    | .done result => return c.modifySession s (·.answer c.now result)
    | .called call => return c.modifySeat s fun seat => { seat with call := some call }
    | .broken => return c.modifySession s fun session => { session with stage := .broken }
  | _, _ => none

/-- The console after a session has got the result of its call. -/
def resume? (c : Console) (s : SessionId) : Option Console := do
  let seat ← c.seats[s]?
  let call ← seat.call
  let result ← c.pool.result? call
  match seat.session.stage with
  | .executing command =>
    return c.modifySeat s fun seat =>
      { session := seat.session.answer c.now (command.outcome result), call := none }
  | _ => none

/-- The console after a step, if the step is possible. -/
def step? (c : Console) : Step → Option Console
  | .pool step => (c.pool.step? step).map fun pool => { c with pool := pool }
  | .session s step => do
    let seat ← c.seats[s]?
    let session ← seat.session.step? c.now step
    return c.modifySession s fun _ => session
  | .execute s => c.execute? s
  | .resume s => c.resume? s

end Console

end ShardConsole
