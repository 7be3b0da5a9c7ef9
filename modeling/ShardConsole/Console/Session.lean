import ShardConsole.Console.Command
import ShardConsole.Console.Framing

/-!
# Sessions

One operator's connection: the session prompts, waits for a line, has the command on
it executed, writes the answer and begins again.

A session is a machine that moves in indivisible steps. It never looks at a line
before the answer to the one before and the prompt have been written. A text that is
empty needs no writing. Cancellation is noticed before a prompt and while the
session waits for a line; a command that is being executed is always answered. A
session that waits for a line gives up when its idle limit has passed since it began
to wait and no line, no end of input and no overlong line is there.

The time and the result of a command come from outside, and so does what becomes of the
texts: the operator takes them, takes nothing for a while, or cannot be reached any more.
A session that writes what nobody takes waits, and does not look whether it is cancelled.

## Main definitions

* `Session`: A connection.
* `Session.Stage`: What a session is doing.
* `Session.Outlet`: What becomes of the texts that a session writes.
* `Session.limitOfSeconds?`: The idle limit that a number of seconds sets.
* `Session.arrival?`: What a waiting session finds in its input.
* `Session.step?`: The session after a step, if the step is possible.
* `Session.answer`: The session once its command has a result.
-/

namespace ShardConsole

namespace Session

/-- What a session goes on to do when a text has been written. -/
inductive Next
  /-- It waits for a line. -/
  | await
  /-- It begins again. -/
  | again
  /-- It ends, because the operator asked to leave. -/
  | leave
deriving DecidableEq

/-- What a session is doing. -/
inductive Stage
  /-- It is about to look whether it is cancelled. -/
  | ready
  /-- It was not cancelled when it looked and is about to write the prompt. -/
  | prompting
  /-- It is writing a text, the rest of which is given. -/
  | writing (rest : List UInt8) (next : Next)
  /-- It has been waiting for a line since the given time. -/
  | awaiting (since : Nat)
  /-- A command is being executed for it. -/
  | executing (command : Command)
  /-- It has ended; without an error if the input ended. -/
  | ended (how : Except Error Unit)
  /-- It broke down without an ending of its own. -/
  | broken

/-- What becomes of the texts that a session writes. -/
inductive Outlet
  /-- The operator takes them. -/
  | free
  /-- The operator takes nothing for now. -/
  | stalled
  /-- Writing fails. -/
  | lost
deriving DecidableEq

end Session

/-- One operator's connection. -/
structure Session where
  prompt : String
  /-- How many milliseconds a session waits for a line, if there is a limit. -/
  idleLimit : Option Nat
  framer : Framer
  /-- The bytes that have arrived and have not been read. -/
  inbox : List UInt8
  /-- Whether no more bytes will arrive. -/
  inputEnded : Bool
  outlet : Session.Outlet
  cancelled : Bool
  /-- The bytes that have been written. -/
  written : Array UInt8
  stage : Session.Stage

namespace Session

/-- The idle limit in milliseconds that a number of seconds sets. Seconds that do not fit
    in 32 bits set none: such a limit is never reached. -/
def limitOfSeconds? (seconds : Nat) : Option Nat :=
  if seconds < UInt32.size then some (1000 * seconds) else none

/-- A session that has not done anything yet. -/
def start (prompt : String) (maxLength : Nat) (idleLimit : Option Nat) (cancelled : Bool) :
    Session :=
  ⟨prompt, idleLimit, Framer.start maxLength, [], false, .free, cancelled, #[], .ready⟩

/-- Whether a session has come to an end. -/
def isOver (s : Session) : Bool :=
  match s.stage with
  | .ended _ | .broken => true
  | _ => false

/-- Whether a session is writing what the operator does not take. -/
def isStalled (s : Session) : Bool :=
  match s.stage with
  | .writing _ _ => s.outlet = .stalled
  | _ => false

/-- Whether the operator is gone, so that nothing arrives any more and writing fails. -/
def isGone (s : Session) : Bool :=
  s.inputEnded && s.outlet = .lost

/-- Goes on after a text has been written. -/
def goOn (s : Session) (now : Nat) (next : Next) : Session :=
  { s with stage :=
      match next with
      | .await => .awaiting now
      | .again => .ready
      | .leave => .ended (.error .quit) }

/-- Goes on to write a text, if there is anything to write. -/
def write (s : Session) (now : Nat) (text : String) (next : Next) : Session :=
  if text.isEmpty then s.goOn now next
  else { s with stage := .writing (Utf8.encode text) next }

/-- The session once the line it took has a result. Protocol errors are answered; the
    other errors end the session, leaving with a farewell. -/
def answer (s : Session) (now : Nat) (result : Except Error String) : Session :=
  match result with
  | .ok text => s.write now text .again
  | .error .quit => s.write now Command.farewell .leave
  | .error e =>
    if e.isProtocol then s.write now e.reply .again
    else { s with stage := .ended (.error e) }

/-- Takes a line: its command is executed, and a line without a command or with a
    mistake is answered at once. -/
def takeLine (s : Session) (now : Nat) (line : List UInt8) : Session :=
  match Command.parse (Framer.text line) with
  | .ok (some command) => { s with stage := .executing command }
  | .ok none => s.answer now (.ok "")
  | .error e => s.answer now (.error e)

/-- What a waiting session finds in its input. -/
inductive Arrival
  /-- A line, and what is left of the input that has been read. -/
  | line (bytes : List UInt8) (rest : Framer)
  | overlong
  | endOfInput
deriving DecidableEq

/-- What a waiting session finds in its input. The end of the input is found once
    everything before it has been read. -/
def arrival? (s : Session) : Option Arrival :=
  match if s.inbox.isEmpty && s.inputEnded then s.framer.finish else s.framer.next with
  | .line bytes rest => some (.line bytes rest)
  | .overlong => some .overlong
  | .exhausted => some .endOfInput
  | .unfinished _ => none

/-- The session after it has taken what it found. -/
def take (s : Session) (now : Nat) : Arrival → Session
  | .line bytes rest => { s with framer := rest }.takeLine now bytes
  | .overlong => { s with stage := .ended (.error .lineTooLong) }
  | .endOfInput => { s with stage := .ended (.ok ()) }

/-- What a session can do by itself. -/
inductive Step
  /-- It looks whether it is cancelled. -/
  | begin
  /-- It begins to write the prompt. -/
  | prompt
  /-- It writes some bytes. -/
  | write (count : Nat)
  /-- It fails to write. -/
  | failWrite
  /-- It reads some bytes. -/
  | read (count : Nat)
  /-- It fails to read. -/
  | failRead
  /-- It takes what it finds in its input. -/
  | take
  /-- It ends, because it is cancelled while it waits. -/
  | leave
  /-- It ends, because its idle limit has passed. -/
  | expire
deriving DecidableEq

/-- The session after it has looked whether it is cancelled. -/
def begin? (s : Session) : Option Session :=
  match s.stage with
  | .ready =>
    if s.cancelled then some { s with stage := .ended (.error .cancelled) }
    else some { s with stage := .prompting }
  | _ => none

/-- The session after it has begun to write the prompt. -/
def prompt? (s : Session) (now : Nat) : Option Session :=
  match s.stage with
  | .prompting => some (s.write now s.prompt .await)
  | _ => none

/-- The session after it has written some bytes, at least one, which the operator takes. -/
def write? (s : Session) (now count : Nat) : Option Session :=
  match s.stage with
  | .writing rest next =>
    if s.outlet ≠ .free ∨ count = 0 ∨ rest.length < count then none
    else
      let s := { s with written := s.written ++ rest.take count }
      if count = rest.length then some (s.goOn now next)
      else some { s with stage := .writing (rest.drop count) next }
  | _ => none

/-- The session after it has failed to write. -/
def failWrite? (s : Session) : Option Session :=
  match s.stage with
  | .writing _ _ =>
    if s.outlet = .lost then some { s with stage := .ended (.error (.io "broken pipe")) }
    else none
  | _ => none

/-- The session after it has read some bytes, at least one, because those that it had
    read before hold no line. -/
def read? (s : Session) (count : Nat) : Option Session :=
  match s.stage, s.framer.next with
  | .awaiting _, .unfinished framer =>
    if count = 0 ∨ s.inbox.length < count then none
    else some { s with framer := framer.add (s.inbox.take count), inbox := s.inbox.drop count }
  | _, _ => none

/-- The session after it has failed to read, because the operator is gone, when what it had
    read before holds no line. -/
def failRead? (s : Session) : Option Session :=
  match s.stage, s.framer.next with
  | .awaiting _, .unfinished _ =>
    if s.isGone then some { s with stage := .ended (.error (.io "connection reset")) } else none
  | _, _ => none

/-- The session after it has taken what it found in its input. -/
def take? (s : Session) (now : Nat) : Option Session :=
  match s.stage with
  | .awaiting _ => s.arrival?.map (s.take now)
  | _ => none

/-- The session after it has ended because it is cancelled while it waits. -/
def leave? (s : Session) : Option Session :=
  match s.stage with
  | .awaiting _ =>
    if s.cancelled then some { s with stage := .ended (.error .cancelled) } else none
  | _ => none

/-- When a waiting session gives up, if it has an idle limit. -/
def deadline? (s : Session) : Option Nat :=
  match s.stage, s.idleLimit with
  | .awaiting since, some limit => some (since + limit)
  | _, _ => none

/-- The session after it has given up. Input that is there comes first. -/
def expire? (s : Session) (now : Nat) : Option Session :=
  match s.deadline? with
  | some deadline =>
    if deadline ≤ now ∧ s.inbox = [] ∧ s.arrival? = none then
      some { s with stage := .ended (.error .deadlineExceeded) }
    else none
  | none => none

/-- The session after a step, if the step is possible. -/
def step? (s : Session) (now : Nat) : Step → Option Session
  | .begin => s.begin?
  | .prompt => s.prompt? now
  | .write count => s.write? now count
  | .failWrite => s.failWrite?
  | .read count => s.read? count
  | .failRead => s.failRead?
  | .take => s.take? now
  | .leave => s.leave?
  | .expire => s.expire? now

/-- Whether bytes can be sent to a session. Nothing at all can be sent by an operator
    who is still there, even when nothing else can. -/
def accepts (s : Session) (bytes : List UInt8) : Bool :=
  !s.isGone && (bytes.isEmpty || (!s.isOver && !s.inputEnded))

/-- Bytes arrive. -/
def deliver (s : Session) (bytes : List UInt8) : Session :=
  { s with inbox := s.inbox ++ bytes }

/-- The operator sends nothing more. -/
def endInput (s : Session) : Session :=
  { s with inputEnded := true }

/-- The operator begins to take what is written, or stops taking it, or cannot be reached any
    more. What is lost stays lost. -/
def setOutlet (s : Session) (outlet : Outlet) : Session :=
  { s with outlet := if s.outlet = .lost then .lost else outlet }

/-- The operator goes away. -/
def hangUp (s : Session) : Session :=
  { s with inputEnded := true, outlet := .lost }

/-- The session is to end as soon as it can. -/
def cancel (s : Session) : Session :=
  { s with cancelled := true }

end Session

end ShardConsole
