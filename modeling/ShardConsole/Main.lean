import ShardConsole.Config.Loading
import ShardConsole.Console.Endpoint
import ShardConsole.Console.Server
import Std.Async.DNS
import Std.Async.Signal
import Std.Async.TCP
import Std.Async.Timer
import Std.Sync.Channel

/-!
# The Program

`shard-console [config.toml]` listens at the configured address and serves a console
to every connection until it is interrupted.

All decisions are the server's. This module only moves bytes, time and signals: every
connection has a task that reads from it, all tasks report to one channel of events,
and one loop feeds the events to the server and writes what its sessions have
written.
-/

namespace ShardConsole

namespace Program

open Std.Async (Async background)
open Std.Async.TCP.Socket (Client)

/-- What the tasks report. -/
inductive Report
  | connected (client : Client)
  | happened (event : Server.Event)
  /-- Time may have passed. -/
  | tick
deriving Inhabited

/-- The channel on which the tasks report. -/
abbrev Reports := Std.Channel Report

/-- Reports something. -/
def tell (reports : Reports) (report : Report) : BaseIO Unit := do
  let _ ← reports.send report

/-- Reads from a connection until it ends. -/
partial def listenTo (reports : Reports) (client : Client) (s : Console.SessionId) :
    Async Unit := do
  match ← try client.recv? 4096 catch _ => pure none with
  | some bytes =>
    tell reports (.happened (.received s bytes.toList))
    listenTo reports client s
  | none => tell reports (.happened (.inputEnded s))

/-- Accepts connections. -/
partial def acceptAll (reports : Reports) (socket : Std.Async.TCP.Socket.Server) :
    Async Unit := do
  tell reports (.connected (← socket.accept))
  acceptAll reports socket

/-- Reports ten times a second that time may have passed. -/
partial def tickAll (reports : Reports) : Async Unit := do
  Std.Async.sleep 100
  tell reports .tick
  tickAll reports

/-- Reports an interrupt as the end of the server. -/
def awaitInterrupt (reports : Reports) : Async Unit := do
  let waiter ← Std.Async.Signal.Waiter.mk .sigint false
  let _ ← Std.Async.await (← waiter.wait)
  tell reports (.happened .stopped)

/-- Writes what the sessions have written, and closes the connections of those that
    are over. -/
def flush (reports : Reports) (clients : List (Console.SessionId × Client)) (server : Server) :
    Async (List (Console.SessionId × Client) × Server) := do
  let mut left := []
  let mut server := server
  for (s, client) in clients do
    let (output, rest) := server.takeOutput s
    server := rest
    let isOver := server.isOver s
    if !output.isEmpty || isOver then
      background do
        try
          unless output.isEmpty do client.send ⟨output⟩
          if isOver then client.shutdown
        catch _ => tell reports (.happened (.lost s))
    unless isOver do left := (s, client) :: left
  return (left.reverse, server)

/-- Serves until the server is stopped. -/
partial def serve (reports : Reports) (clients : List (Console.SessionId × Client))
    (server : Server) (start : Nat) : Async Unit := do
  let report ← Std.Async.await (← reports.recv)
  let now ← IO.monoMsNow
  let server := server.handle (.elapsed (now - start - server.console.now))
  match report with
  | .connected client =>
    let (server, s) := server.accept
    background (listenTo reports client s)
    let (clients, server) ← flush reports (clients ++ [(s, client)]) server
    serve reports clients server start
  | .happened event =>
    let (clients, server) ← flush reports clients (server.handle event)
    unless server.console.shutDown do serve reports clients server start
  | .tick =>
    let (clients, server) ← flush reports clients server
    serve reports clients server start

/-- The addresses of a host. -/
def addressesOf (host : Host) : Async (Array Std.Net.IPAddr) :=
  match host with
  | .address address => pure #[address]
  | .named name => Std.Async.DNS.getAddrInfo name ""

/-- A socket that listens at an address. -/
def listenAt (address : Std.Net.IPAddr) (port : UInt16) :
    Async Std.Async.TCP.Socket.Server := do
  let socket ← Std.Async.TCP.Socket.Server.mk
  match address with
  | .v4 a => socket.bind (.v4 ⟨a, port⟩)
  | .v6 a => socket.bind (.v6 ⟨a, port⟩)
  socket.listen 128
  return socket

/-- A socket that listens at the first address of an endpoint where one can. -/
def listenAtAny (endpoint : Endpoint) : Async Std.Async.TCP.Socket.Server := do
  let mut reason := IO.userError "no such host"
  for address in ← addressesOf endpoint.host do
    try return ← listenAt address endpoint.port
    catch e => reason := e
  throw reason

/-- Listens and serves with a configuration. -/
def run (config : Config) : Async Unit := do
  match Endpoint.parse? config.address with
  | none => throw (IO.userError "invalid address")
  | some endpoint =>
    let socket ← listenAtAny endpoint
    let reports : Reports ← Std.Channel.new
    background (acceptAll reports socket)
    background (tickAll reports)
    background (awaitInterrupt reports)
    serve reports [] (Server.start config) (← IO.monoMsNow)

/-- The source of the configuration that the arguments name. -/
def sourceOf (args : List String) : IO Config.Source := do
  match args with
  | [] => return .absent
  | path :: _ =>
    try return .file (← IO.FS.readBinFile path).toList
    catch _ => return .missing

/-- The values of the variables that the program looks at. -/
def environment : IO (String → Option (List UInt8)) := do
  let values ← Config.variableNames.mapM fun name => do return (name, ← IO.getEnv name)
  return fun name => ((values.lookup name).bind id).map Utf8.encode

/-- Runs the program and returns its exit code. -/
def exitCode (args : List String) : IO UInt32 := do
  match Config.load (← sourceOf args) (← environment) with
  | .error fault =>
    IO.eprintln fault.report
    return 1
  | .ok config =>
    try
      (run config).block
      return 0
    catch e =>
      IO.eprintln ("Error: Io(" ++ toString e ++ ")")
      return 1

end Program

end ShardConsole

/-- The entry of the program. -/
def main (args : List String) : IO UInt32 :=
  ShardConsole.Program.exitCode args
