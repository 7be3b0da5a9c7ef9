import ShardConsole.Console.Session
import ShardConsole.Pool.Request
import ShardConsole.Stats.Basic

/-!
# The Console

A pool of workers with the sessions of the operators.

Most commands are executed at once. A listing and a delete are calls on the pool,
and their result comes later; a session that has such a command executed is *seated*
with its call.

## Main definitions

* `Console`: The pool, the sessions, the statistics and the time.
* `Console.execute`: Begins a command.
* `Command.outcome`: What a command gives when its call has a result.
-/

namespace ShardConsole

/-- What a command gives when its call has a result. -/
def Command.outcome (command : Command) (result : Except Unavailable Pool.Reply) :
    Except Error String :=
  match result with
  | .error cause => .error (.dispatch cause)
  | .ok (.listing text) => .ok text
  | .ok (.removed count) =>
    match command with
    | .delete kind _ => .ok (deletedText count kind)
    | _ => .ok ""
  | .ok .completed => .ok ""

namespace Console

/-- Sessions are numbered in the order in which they are opened. -/
abbrev SessionId := Nat

/-- A session, with the call whose result it waits for, if it does. -/
structure Seat where
  session : Session
  call : Option Pool.CallId

end Console

/-- The pool, the sessions, the statistics and the time. -/
structure Console where
  pool : Pool
  /-- How many parts of a listing may wait to be taken. -/
  resultBuffer : Nat
  stats : Stats
  seats : Array Console.Seat
  /-- Whether all sessions are cancelled, those to come included. -/
  shutDown : Bool
  /-- The milliseconds that have passed. -/
  now : Nat

namespace Console

/-- The size of the result buffer if none is given. -/
def standardBuffer : Nat := 16

/-- A console without sessions whose workers have not been given anything. -/
def start (workers resultBuffer : Nat) : Console :=
  ⟨Pool.start workers, resultBuffer, Stats.none, #[], false, 0⟩

/-- Changes one seat. -/
def modifySeat (c : Console) (s : SessionId) (change : Seat → Seat) : Console :=
  { c with seats := c.seats.modify s change }

/-- Changes one session. -/
def modifySession (c : Console) (s : SessionId) (change : Session → Session) : Console :=
  c.modifySeat s fun seat => { seat with session := change seat.session }

/-- What the execution of a command leads to. -/
inductive Execution
  /-- The command has its result. -/
  | done (result : Except Error String)
  /-- The command has a result when the call has one. -/
  | called (call : Pool.CallId)
  /-- The command broke down: the result buffer is too large for a channel. -/
  | broken

/-- Begins a command. -/
def execute (c : Console) (command : Command) (cancelled : Bool) : Console × Execution :=
  match command with
  | .help => (c, .done (.ok Command.helpText))
  | .stats => (c, .done (.ok c.stats.text))
  | .quit => (c, .done (.error .quit))
  | .list kind =>
    match c.pool.beginList? c.resultBuffer kind cancelled with
    | some (pool, call) => ({ c with pool := pool }, .called call)
    | none => (c, .broken)
  | .delete kind names =>
    let (pool, call) := c.pool.beginDelete kind names cancelled
    ({ c with pool := pool }, .called call)

end Console

end ShardConsole
