/-!
# Metric Kinds

The four kinds of metric and their plural names, which are also the words that
operators use for them.

## Main definitions

* `Kind`: Counter, timer, gauge or set.
* `Kind.plural`: The plural name of a kind.
* `Kind.ofPlural?`: The kind with a given plural name.

## Theorems

* `Kind.ofPlural?_eq_some_iff`: A text names a kind exactly if it is its plural.
-/

namespace ShardConsole

/-- The kinds of metric: counters add up, timers collect samples, gauges keep the
    last level and sets keep their distinct members. -/
inductive Kind
  | counter
  | timer
  | gauge
  | set
deriving DecidableEq, Inhabited

namespace Kind

/-- Every kind, in the order in which they are listed. -/
def all : List Kind :=
  [.counter, .timer, .gauge, .set]

/-- The plural name of a kind. -/
def plural : Kind → String
  | .counter => "counters"
  | .timer => "timers"
  | .gauge => "gauges"
  | .set => "sets"

/-- The kind with a given plural name. -/
def ofPlural? (name : String) : Option Kind :=
  all.find? (·.plural == name)

/-- A text names a kind exactly if it is its plural. -/
theorem ofPlural?_eq_some_iff {name : String} {kind : Kind} :
    ofPlural? name = some kind ↔ name = kind.plural := by
  constructor
  · intro h
    have := List.find?_some h
    exact (eq_of_beq this).symm
  · rintro rfl
    cases kind <;> rfl

end Kind

end ShardConsole
