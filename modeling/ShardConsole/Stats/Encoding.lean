import ShardConsole.Json.Value
import ShardConsole.Stats.Basic

/-!
# JSON Form of Statistics

Statistics as JSON records. A time is a text that ends in the letter for the
universal time zone, and what is missing is null.

## Main definitions

* `Stats.Received.encode`, `Stats.Flushed.encode`: The JSON forms.
-/

namespace ShardConsole

namespace Stats

/-- The JSON form of a text that may be missing. -/
def encodeText? (text : Option String) : Json.Value :=
  (text.map Json.Value.ofText).getD .null

/-- The JSON form of a time that may be missing. -/
def encodeTime? (time : Option Timestamp) : Json.Value :=
  encodeText? (time.map (·.text "Z"))

/-- The JSON form of what has been received. -/
def Received.encode (r : Received) : Json.Value :=
  .ofMembers
    [("bad_lines", .ofInt r.badLines.toNat), ("metrics_received", .ofInt r.metrics.toNat),
      ("packets_received", .ofInt r.packets.toNat), ("last_packet", encodeTime? r.lastPacket)]

/-- The JSON form of how the last flush went. -/
def Flushed.encode (f : Flushed) : Json.Value :=
  .ofMembers [("last_flush", encodeTime? f.last), ("last_flush_error", encodeText? f.error)]

end Stats

end ShardConsole
