import ShardConsole.Stats.Timestamp

/-!
# Statistics

What the console reports of the parts of the program that receive metrics and flush
them.

## Main definitions

* `Stats.Received`: What has been received.
* `Stats.Flushed`: How the last flush went.
* `Stats`: Both of them.
* `Stats.text`: The answer to the stats command.
-/

namespace ShardConsole

namespace Stats

/-- What has been received. -/
structure Received where
  badLines : UInt64
  metrics : UInt64
  packets : UInt64
  /-- When the last packet came, if one came. -/
  lastPacket : Option Timestamp
deriving DecidableEq

/-- How the last flush went. -/
structure Flushed where
  /-- When it was, if there was one. -/
  last : Option Timestamp
  /-- Why it failed, if it failed. -/
  error : Option String
deriving DecidableEq

/-- Before anything has been received. -/
def Received.none : Received :=
  ⟨0, 0, 0, Option.none⟩

/-- Before anything has been flushed. -/
def Flushed.none : Flushed :=
  ⟨Option.none, Option.none⟩

/-- The text of a time that may be missing. -/
def timeText : Option Timestamp → String
  | some t => t.text "+00:00"
  | Option.none => "never"

end Stats

/-- What has been received and how the last flush went. -/
structure Stats where
  received : Stats.Received
  flushed : Stats.Flushed
deriving DecidableEq

namespace Stats

/-- Before anything has happened. -/
def none : Stats :=
  ⟨Received.none, Flushed.none⟩

/-- The answer to the stats command. -/
def text (s : Stats) : String :=
  "Invalid messages received: " ++ toString s.received.badLines.toNat ++ "\n" ++
  "Metrics received: " ++ toString s.received.metrics.toNat ++ "\n" ++
  "Packets received: " ++ toString s.received.packets.toNat ++ "\n" ++
  "Last packet received: " ++ timeText s.received.lastPacket ++ "\n" ++
  "Last flush to backends: " ++ timeText s.flushed.last ++ "\n" ++
  "Last error from backends: " ++ s.flushed.error.getD "none" ++ "\n"

end Stats

end ShardConsole
