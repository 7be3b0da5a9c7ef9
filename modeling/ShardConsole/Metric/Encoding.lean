import ShardConsole.Json.Record
import ShardConsole.Metric.Basic

/-!
# JSON Form of Metrics

Metrics and their parts as JSON values.

A kind is a string, or an object with the kind as its only member and null under
it. A value is an object with its kind as the only member. Tags and metrics are
records. Encoding gives the first of these forms with fields in declared order and
tags in ascending order.

## Main definitions

* `Kind.encode`, `Kind.decode?`: The form of a kind.
* `Value.encode`, `Value.decode?`: The form of a value.
* `Tags.encode`, `Tags.decode?`: The form of tags.
* `Metric.encode`, `Metric.decode?`: The form of a metric.
-/

namespace ShardConsole

namespace Kind

/-- The singular name of a kind, by which it goes in JSON. -/
def singular : Kind → String
  | .counter => "Counter"
  | .timer => "Timer"
  | .gauge => "Gauge"
  | .set => "Set"

/-- The kind with a singular name. -/
def ofSingular? (name : String) : Option Kind :=
  all.find? (·.singular == name)

/-- The JSON form of a kind. -/
def encode (k : Kind) : Json.Value :=
  .ofText k.singular

/-- The kind of a JSON form. -/
def decode? : Json.Value → Option Kind
  | .string (some name) => ofSingular? name
  | .object [(some name, .null)] => ofSingular? name
  | _ => none

end Kind

namespace Value

/-- What a value carries as JSON; an infinity and a NaN become null. -/
def payload : Value → Json.Value
  | .counter amount => .ofInt amount.toInt
  | .timer x | .gauge x =>
    match Json.Numeral.ofDouble? x with
    | some n => .number n
    | none => .null
  | .set member => .ofText member

/-- The JSON form of a value. -/
def encode (v : Value) : Json.Value :=
  .ofMembers [(v.kind.singular, v.payload)]

/-- The value of a kind that carries what a JSON value stands for. -/
def ofPayload? (kind : Kind) (payload : Json.Value) : Option Value :=
  match kind with
  | .counter => payload.toInt64?.map .counter
  | .timer => payload.toDouble?.map .timer
  | .gauge => payload.toDouble?.map .gauge
  | .set => payload.toText?.map .set

/-- The value of a JSON form. -/
def decode? : Json.Value → Option Value
  | .object [(some name, payload)] =>
    (Kind.ofSingular? name).bind fun kind => ofPayload? kind payload
  | _ => none

end Value

namespace Tags

/-- The JSON form of tags. -/
def encode (t : Tags) : Json.Value :=
  .ofMembers [("tags", .ofMembers (t.toList.map fun (k, v) => (k, .ofText v)))]

/-- The pair that a member of an object is. -/
def pairOf? : Option String × Json.Value → Option (String × String)
  | (some k, .string (some v)) => some (k, v)
  | _ => none

/-- The tags of a JSON object of strings; of two members with one name the later one
    counts. -/
def ofObject? : Json.Value → Option Tags
  | .object members => (members.mapM pairOf?).map ofPairs
  | _ => none

/-- The tags of a JSON form. -/
def decode? (v : Json.Value) : Option Tags := do
  match ← v.fields? ["tags"] with
  | [some tags] => ofObject? tags
  | _ => none

end Tags

namespace Metric

/-- The JSON form of a metric. -/
def encode (m : Metric) : Json.Value :=
  .ofMembers [("name", .ofText m.name), ("tags", m.tags.encode), ("value", m.value.encode)]

/-- The metric of a JSON form. -/
def decode? (v : Json.Value) : Option Metric := do
  match ← v.fields? ["name", "tags", "value"] with
  | [some name, some tags, some value] =>
    return ⟨← name.toText?, ← Tags.decode? tags, ← Value.decode? value⟩
  | _ => none

end Metric

end ShardConsole
