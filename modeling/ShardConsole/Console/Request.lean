import ShardConsole.Console.Basic

/-!
# Requests to the Console

What can be done to a console from outside: sessions are opened, bytes are sent to
them, operators go away, and sessions are cancelled.

Cancelling a session also cancels the call that it waits for.

## Main definitions

* `Console.openSession`: A new session.
* `Console.send`, `Console.endInput`, `Console.setOutlet`, `Console.hangUp`: What the
  operator does.
* `Console.cancel`, `Console.shutdown`: Cancel one session, or all.
* `Console.openGate`, `Console.cancelCall`: Requests to the pool.
-/

namespace ShardConsole

namespace Console

/-- A new session; it is cancelled from the start if all sessions are. -/
def openSession (c : Console) (prompt : String) (maxLength : Nat) (idleLimit : Option Nat) :
    Console × SessionId :=
  let session := Session.start prompt maxLength idleLimit c.shutDown
  ({ c with seats := c.seats.push ⟨session, none⟩ }, c.seats.size)

/-- Bytes arrive at a session, if it still takes any. -/
def send (c : Console) (s : SessionId) (bytes : List UInt8) : Console :=
  c.modifySession s fun session =>
    if session.accepts bytes then session.deliver bytes else session

/-- The operator of a session sends nothing more. -/
def endInput (c : Console) (s : SessionId) : Console :=
  c.modifySession s Session.endInput

/-- The operator of a session takes what it writes, or does not. -/
def setOutlet (c : Console) (s : SessionId) (outlet : Session.Outlet) : Console :=
  c.modifySession s (·.setOutlet outlet)

/-- The operator of a session sends some last bytes and goes away. -/
def hangUp (c : Console) (s : SessionId) (bytes : List UInt8) : Console :=
  (c.send s bytes).modifySession s Session.hangUp

/-- Cancels a call. -/
def cancelCall (c : Console) (call : Pool.CallId) : Console :=
  { c with pool := c.pool.cancel call }

/-- Cancels a session and the call that it waits for. -/
def cancel (c : Console) (s : SessionId) : Console :=
  let c := c.modifySession s Session.cancel
  match c.seats[s]?.bind Seat.call with
  | some call => c.cancelCall call
  | none => c

/-- Cancels all sessions, those to come included. -/
def shutdown (c : Console) : Console :=
  (List.range c.seats.size).foldl cancel { c with shutDown := true }

/-- Opens the gate that a name stands for. -/
def openGate (c : Console) (name : String) : Console :=
  { c with pool := c.pool.openGate name }

end Console

end ShardConsole
