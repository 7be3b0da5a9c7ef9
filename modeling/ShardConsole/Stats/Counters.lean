import ShardConsole.Stats.Basic

/-!
# Shared Counters

The counters that many receivers write and many sessions read at the same time.

Nobody holds a lock: a counter is changed or read in one indivisible step, but what
is done for one packet takes three such steps and a snapshot takes four. A packet is
counted first, then its metrics, then its time is stored. A snapshot reads in the
opposite order, so that what it shows of a packet is never ahead of the number of
packets. Counters wrap around at 2^64.

## Main definitions

* `Counters`: The shared counters.
* `Counters.Write`: One indivisible change.
* `Counters.packet`, `Counters.badLine`: The changes for a packet and for a line that
  is no metric.
* `Counters.Reading`: How far a snapshot is.
* `Counters.snapshot`: A snapshot that nothing comes between.
* `Stats.Flushed.record`: The outcome of a flush.
-/

namespace ShardConsole

namespace Stats

/-- The shared counters. -/
structure Counters where
  packets : UInt64
  metrics : UInt64
  badLines : UInt64
  /-- The milliseconds from the start of 1970 to the last packet; zero stands for
      never. -/
  lastPacket : Int64
deriving DecidableEq

namespace Counters

/-- Before anything has been received. -/
def start : Counters :=
  ⟨0, 0, 0, 0⟩

/-- One indivisible change. -/
inductive Write
  | addPacket
  | addMetrics (n : UInt64)
  | storeTime (ms : Int64)
  | addBadLine
deriving DecidableEq

/-- The counters after one change. -/
def write (c : Counters) : Write → Counters
  | .addPacket => { c with packets := c.packets + 1 }
  | .addMetrics n => { c with metrics := c.metrics + n }
  | .storeTime ms => { c with lastPacket := ms }
  | .addBadLine => { c with badLines := c.badLines + 1 }

/-- The counters after changes that are made one after the other. -/
def writeAll (c : Counters) (writes : List Write) : Counters :=
  writes.foldl write c

/-- The changes for a packet of some metrics that comes at a time. -/
def packet (metrics : UInt64) (ms : Int64) : List Write :=
  [.addPacket, .addMetrics metrics, .storeTime ms]

/-- The changes for a line that is no metric. -/
def badLine : List Write :=
  [.addBadLine]

/-- How far a snapshot is, with what has been read so far. -/
inductive Reading
  | begun
  | time (lastPacket : Int64)
  | timeAndLines (lastPacket : Int64) (badLines : UInt64)
  | allButPackets (lastPacket : Int64) (badLines metrics : UInt64)
  | complete (received : Received)
deriving DecidableEq

/-- The time of the last packet as a snapshot shows it. -/
def timeOf (lastPacket : Int64) : Option Timestamp :=
  if lastPacket = 0 then Option.none else some (Timestamp.ofMillis lastPacket.toInt)

/-- A snapshot after one more counter has been read. -/
def read (c : Counters) : Reading → Reading
  | .begun => .time c.lastPacket
  | .time t => .timeAndLines t c.badLines
  | .timeAndLines t b => .allButPackets t b c.metrics
  | .allButPackets t b m => .complete ⟨b, m, c.packets, timeOf t⟩
  | .complete received => .complete received

/-- A snapshot that nothing comes between. -/
def snapshot (c : Counters) : Received :=
  ⟨c.badLines, c.metrics, c.packets, timeOf c.lastPacket⟩

/-- Four reads in a row make a snapshot. -/
theorem read_read_read_read (c : Counters) :
    c.read (c.read (c.read (c.read .begun))) = .complete c.snapshot :=
  rfl

end Counters

/-- The outcome of a flush replaces that of the one before: its time and its error
    change together, and a success leaves no error. -/
def Flushed.record (time : Timestamp) (error : Option String) : Flushed :=
  ⟨some time, error⟩

end Stats

end ShardConsole
