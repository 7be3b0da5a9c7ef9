import ShardConsole.Decimal.Double
import ShardConsole.Metric.Kind
import ShardConsole.Metric.Tags

/-!
# Metrics

A single metric as it is received: a name, tags and a value of some kind.

## Main definitions

* `Value`: What a metric carries.
* `Metric`: A named and tagged value.
-/

namespace ShardConsole

/-- What a metric carries: an amount to add, a sample, a level or a member. -/
inductive Value
  | counter (amount : Int64)
  | timer (sample : Double)
  | gauge (level : Double)
  | set (member : String)
deriving Inhabited

/-- The kind of a value. -/
def Value.kind : Value → Kind
  | .counter _ => .counter
  | .timer _ => .timer
  | .gauge _ => .gauge
  | .set _ => .set

/-- A named and tagged value. -/
structure Metric where
  name : String
  tags : Tags
  value : Value
deriving Inhabited

/-- The kind of a metric is that of its value. -/
def Metric.kind (m : Metric) : Kind :=
  m.value.kind

end ShardConsole
