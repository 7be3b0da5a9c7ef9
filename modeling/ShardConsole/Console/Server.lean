import ShardConsole.Config.Basic
import ShardConsole.Console.Settling

/-!
# The Server

A console with the configuration that it was started with. Every connection that is
accepted gets a session with the configured prompt and limits. A stopped server
cancels all its sessions.

What happens outside comes in as events; after each of them the console settles.

## Main definitions

* `Server`: A console with its configuration.
* `Server.accept`: A session for a new connection.
* `Server.handle`: The server after an event.
* `Server.takeOutput`: What a session has written.
-/

namespace ShardConsole

/-- A console with its configuration. -/
structure Server where
  config : Config
  console : Console

namespace Server

/-- A server without connections. -/
def start (config : Config) : Server :=
  ⟨config, Console.start config.workerCount config.resultBuffer.toNat⟩

/-- A session for a new connection. -/
def accept (server : Server) : Server × Console.SessionId :=
  let config := server.config
  let (console, s) := server.console.openSession config.prompt config.maxLineLength.toNat
    (config.idleTimeoutSecs.bind fun secs => Session.limitOfSeconds? secs.toNat)
  ({ server with console := console.settle [.session s] }, s)

/-- What happens outside. -/
inductive Event
  /-- Bytes have come from an operator. -/
  | received (s : Console.SessionId) (bytes : List UInt8)
  /-- An operator sends nothing more. -/
  | inputEnded (s : Console.SessionId)
  /-- An operator is gone. -/
  | lost (s : Console.SessionId)
  /-- Some milliseconds have passed. -/
  | elapsed (ms : Nat)
  /-- The server is to stop. -/
  | stopped

/-- The server after an event. -/
def handle (server : Server) (event : Event) : Server :=
  let console := server.console
  { server with console :=
      match event with
      | .received s bytes => (console.send s bytes).settle [.session s]
      | .inputEnded s => (console.endInput s).settle [.session s]
      | .lost s => (console.hangUp s []).settle [.session s]
      | .elapsed ms => console.elapse ms
      | .stopped => console.shutdown.settle [] }

/-- What a session has written since it was last asked, which is then forgotten. -/
def takeOutput (server : Server) (s : Console.SessionId) : Array UInt8 × Server :=
  match server.console.seats[s]? with
  | some seat =>
    (seat.session.written,
      { server with console :=
          server.console.modifySession s fun session => { session with written := #[] } })
  | none => (#[], server)

/-- Whether a session has come to an end. -/
def isOver (server : Server) (s : Console.SessionId) : Bool :=
  match server.console.seats[s]? with
  | some seat => seat.session.isOver
  | none => true

end Server

end ShardConsole
