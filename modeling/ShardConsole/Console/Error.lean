import ShardConsole.Text.Quoted

/-!
# Console Errors

Everything that can interrupt a command or end a session.

Two of them are *protocol errors*: the operator mistyped, is told so, and the
session goes on. Three are *normal endings*: the operator left, the session was
cancelled, or it was idle for too long. All others are failures.

## Main definitions

* `Unavailable`: A worker that cannot be reached.
* `Error`: The errors of the console.
* `Error.message`: The text of an error.
* `Error.isProtocol`, `Error.isNormal`: The two classes that are no failures.
-/

namespace ShardConsole

/-- A worker that cannot be reached, or that died before it was done. -/
structure Unavailable where
  worker : Nat
deriving DecidableEq

/-- The text that reports an unreachable worker. -/
def Unavailable.message (u : Unavailable) : String :=
  "aggregator " ++ toString u.worker ++ " is unavailable"

/-- Everything that can interrupt a command or end a session. -/
inductive Error
  /-- Reading from or writing to the connection failed. -/
  | io (cause : String)
  /-- More bytes came without a line end than a line may have. -/
  | lineTooLong
  /-- A worker could not be reached. -/
  | dispatch (cause : Unavailable)
  /-- The first word of a line is not the name of a command. -/
  | unknownCommand (name : String)
  /-- The command exists, but not with these arguments. -/
  | invalidArguments (command reason : String)
  /-- The operator asked to leave. -/
  | quit
  /-- The session or the whole server was cancelled. -/
  | cancelled
  /-- No line came in time. -/
  | deadlineExceeded
deriving DecidableEq

namespace Error

/-- The text of an error. -/
def message : Error → String
  | io cause => "I/O error: " ++ cause
  | lineTooLong => "line too long"
  | dispatch cause => "dispatch failed: " ++ cause.message
  | unknownCommand name => "unknown command " ++ Text.quote name
  | invalidArguments command reason => command ++ ": " ++ reason
  | quit => "client quit"
  | cancelled => "session cancelled"
  | deadlineExceeded => "session idle deadline exceeded"

/-- Whether the error is reported to the operator while the session goes on. -/
def isProtocol : Error → Bool
  | unknownCommand _ | invalidArguments _ _ => true
  | _ => false

/-- Whether the error is an ending that is no failure. -/
def isNormal : Error → Bool
  | quit | cancelled | deadlineExceeded => true
  | _ => false

/-- The text of the underlying cause, for the errors that wrap another one. -/
def cause? : Error → Option String
  | io cause => some cause
  | dispatch cause => some cause.message
  | _ => none

/-- The line that tells the operator of a protocol error. -/
def reply (e : Error) : String :=
  "error: " ++ e.message ++ "\n"

end Error

end ShardConsole
