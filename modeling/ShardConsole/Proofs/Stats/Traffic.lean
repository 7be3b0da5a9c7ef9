import Mathlib.Algebra.Order.BigOperators.Group.List
import Mathlib.Algebra.Order.Group.Nat
import ShardConsole.Proofs.Sums
import ShardConsole.Proofs.Trace
import ShardConsole.Stats.Counters

/-!
# Traffic on Shared Counters

Any number of packets and bad lines that are recorded, and any number of snapshots that are taken,
all at the same time.

A recording makes its changes one after the other, and a snapshot reads one counter after the other.
Each change and each read is an action of its own, so that a run is one sequence of actions and
every interleaving is such a sequence. Nobody waits for anybody. The time that a packet stores is
given with the packet, which leaves it open when the clock is read.

How far everything is can be seen in a state: a recorder knows how many of its changes it has made.
The counters that add up are, up to wrapping around, what the changes made so far come to, and none
of this is ever undone.

## Main definitions

* `Recording`, `Recorder`: What is recorded, and how far that is.
* `Traffic`: The counters with all recorders and snapshots.
* `Traffic.act?`: The state after an action, if the action is possible.
* `Traffic.Change`: What an action does.
* `Tally`: The counters that add up.
* `Traffic.Made`: A recorder has made a change.
* `Traffic.recorded`, `Traffic.total`: What the changes come to, so far and in the end.
* `Traffic.Later`: One state comes after another one.

## Theorems

* `Traffic.change_of_act?`: A possible action is one of the changes.
* `Traffic.Run.value_eq`: The counters that add up are what has been recorded.
* `Traffic.Run.lastPacket_eq`: The stored time is that of a packet.
* `Traffic.Run.later`: What has been made at a moment of a run stays made.
-/

namespace ShardConsole

namespace Stats

namespace Counters

/-- What is recorded. -/
inductive Recording
  /-- A packet of some metrics that comes at a time. -/
  | packet (metrics : UInt64) (ms : Int64)
  /-- A line that is no metric. -/
  | badLine
deriving DecidableEq

/-- The changes that a recording makes, in this order. -/
def Recording.writes : Recording → List Write
  | packet metrics ms => Counters.packet metrics ms
  | badLine => Counters.badLine

/-- A recording with the number of changes that it has made. -/
structure Recorder where
  recording : Recording
  made : Nat
deriving DecidableEq

namespace Recorder

/-- The changes that a recorder has made. -/
def done (r : Recorder) : List Write :=
  r.recording.writes.take r.made

/-- The change that a recorder makes next. -/
def next? (r : Recorder) : Option Write :=
  r.recording.writes[r.made]?

/-- A recorder after its next change. -/
def advance (r : Recorder) : Recorder :=
  { r with made := r.made + 1 }

end Recorder

/-- Whether a snapshot has read all counters. -/
def Reading.isComplete : Reading → Bool
  | .complete _ => true
  | _ => false

/-- The counters with all recorders and snapshots that there have been. -/
structure Traffic where
  counters : Counters
  recorders : List Recorder
  snapshots : List Reading
deriving DecidableEq

namespace Traffic

/-- Before anything has been recorded. -/
def start : Traffic :=
  ⟨Counters.start, [], []⟩

/-- Something that happens. -/
inductive Action
  /-- A recording begins. -/
  | begin (recording : Recording)
  /-- A recorder makes its next change. -/
  | write (i : Nat)
  /-- A snapshot begins. -/
  | ask
  /-- A snapshot reads its next counter. -/
  | read (j : Nat)
deriving DecidableEq

/-- The state after an action, if the action is possible. -/
def act? (s : Traffic) : Action → Option Traffic
  | .begin recording => some { s with recorders := s.recorders ++ [⟨recording, 0⟩] }
  | .write i => do
    let recorder ← s.recorders[i]?
    let change ← recorder.next?
    return { s with
      counters := s.counters.write change, recorders := s.recorders.modify i Recorder.advance }
  | .ask => some { s with snapshots := s.snapshots ++ [.begun] }
  | .read j => do
    let reading ← s.snapshots[j]?
    if reading.isComplete then .none
    else return { s with snapshots := s.snapshots.modify j s.counters.read }

/-- An action with the state in which it happened. -/
abbrev Moment := Trace.Moment Traffic Action

/-- A run from the beginning. -/
abbrev Run : List Moment → Traffic → Prop :=
  Trace act? start

/-- What an action does. -/
inductive Change (s : Traffic) : Action → Traffic → Prop
  | begin (recording : Recording) :
      Change s (.begin recording) { s with recorders := s.recorders ++ [⟨recording, 0⟩] }
  | write {i : Nat} {r : Recorder} {w : Write} (there : s.recorders[i]? = some r)
      (next : r.next? = some w) :
      Change s (.write i)
        { s with
          counters := s.counters.write w
          recorders := s.recorders.modify i Recorder.advance }
  | ask : Change s .ask { s with snapshots := s.snapshots ++ [.begun] }
  | read {j : Nat} {reading : Reading} (there : s.snapshots[j]? = some reading)
      (going : reading.isComplete = false) :
      Change s (.read j) { s with snapshots := s.snapshots.modify j s.counters.read }

/-- A possible action is one of the changes. -/
theorem change_of_act? {s t : Traffic} {a : Action} (act : s.act? a = some t) : Change s a t := by
  cases a with
  | begin recording =>
      cases act
      exact .begin recording
  | write i =>
      simp only [act?, Option.bind_eq_bind, Option.bind_eq_some_iff] at act
      rcases act with ⟨r, there, w, next, same⟩
      cases same
      exact .write there next
  | ask =>
      cases act
      exact .ask
  | read j =>
      simp only [act?, Option.bind_eq_bind, Option.bind_eq_some_iff] at act
      rcases act with ⟨reading, there, act⟩
      cases going : reading.isComplete with
      | true =>
          rw [going, if_pos rfl] at act
          cases act
      | false =>
          rw [going, if_neg Bool.false_ne_true] at act
          cases act
          exact .read there going

end Traffic

section Amounts

/-- The counters that add up. -/
inductive Tally
  | packets
  | metrics
  | badLines
deriving DecidableEq

/-- The counter of a tally. -/
def value (c : Counters) : Tally → UInt64
  | .packets => c.packets
  | .metrics => c.metrics
  | .badLines => c.badLines

/-- What a change adds to a tally. -/
def Write.amount : Tally → Write → Nat
  | .packets, .addPacket => 1
  | .metrics, .addMetrics n => n.toNat
  | .badLines, .addBadLine => 1
  | _, _ => 0

/-- What a recording adds to a tally. -/
def Recording.amount : Tally → Recording → Nat
  | .packets, .packet _ _ => 1
  | .metrics, .packet metrics _ => metrics.toNat
  | .badLines, .badLine => 1
  | _, _ => 0

/-- What a recorder has added to a tally so far. -/
def Recorder.amount (t : Tally) (r : Recorder) : Nat :=
  (r.done.map (Write.amount t)).sum

/-- What has been added to a tally so far. -/
def Traffic.recorded (s : Traffic) (t : Tally) : Nat :=
  (s.recorders.map (Recorder.amount t)).sum

/-- What all recordings that have begun add to a tally. -/
def Traffic.total (s : Traffic) (t : Tally) : Nat :=
  (s.recorders.map fun r => r.recording.amount t).sum

variable {c : Counters} {w : Write} {t : Tally} {r : Recorder}

theorem value_write (c : Counters) (w : Write) (t : Tally) :
    (c.write w).value t = c.value t + UInt64.ofNat (w.amount t) := by
  cases t with
  | packets =>
      cases w with
      | addPacket => rfl
      | _ => exact (UInt64.add_zero _).symm
  | metrics =>
      cases w with
      | addMetrics n => exact congrArg (c.metrics + ·) UInt64.ofNat_toNat.symm
      | _ => exact (UInt64.add_zero _).symm
  | badLines =>
      cases w with
      | addBadLine => rfl
      | _ => exact (UInt64.add_zero _).symm

namespace Recorder

theorem done_advance (next : r.next? = some w) : r.advance.done = r.done ++ [w] := by
  rw [next?] at next
  rw [done, advance, List.take_add_one, next, Option.toList_some, done]

theorem amount_advance (next : r.next? = some w) :
    r.advance.amount t = r.amount t + w.amount t := by
  rw [amount, done_advance next, List.map_append, List.sum_append, amount]
  rfl

/-- The changes of a recording come to what it adds. -/
theorem sum_writes (recording : Recording) (t : Tally) :
    (recording.writes.map (Write.amount t)).sum = recording.amount t := by
  cases recording with
  | packet metrics ms =>
      cases t with
      | metrics => exact Nat.zero_add metrics.toNat
      | _ => rfl
  | badLine => cases t <;> rfl

-- A recorder that is further on with the same recording has made the same changes and more.
theorem done_prefix {r' : Recorder} (same : r'.recording = r.recording)
    (le : r.made ≤ r'.made) : r.done <+: r'.done := by
  rw [done, done, same]
  exact List.take_prefix_take_left le

theorem sum_amount_le {writes writes' : List Write} (onward : writes <+: writes') (t : Tally) :
    (writes.map (Write.amount t)).sum ≤ (writes'.map (Write.amount t)).sum :=
  (onward.sublist.map _).sum_le_sum fun _ _ => Nat.zero_le _

theorem amount_le (r : Recorder) (t : Tally) : r.amount t ≤ r.recording.amount t := by
  rw [← sum_writes]
  exact sum_amount_le (List.take_prefix _ _) t

/-- A recorder that has made all its changes has added everything. -/
theorem amount_of_made (all : r.recording.writes.length ≤ r.made) :
    r.amount t = r.recording.amount t := by
  rw [amount, done, List.take_of_length_le all, sum_writes]

end Recorder

end Amounts

namespace Traffic

/-- A recorder has made a change. -/
def Made (s : Traffic) (i : Nat) (w : Write) : Prop :=
  ∃ r, s.recorders[i]? = some r ∧ w ∈ r.done

/-- Everything that has been made in one state has been made in another one. -/
structure Later (s t : Traffic) : Prop where
  /-- A recorder has gone on with what it records. -/
  recorders : ∀ (i : Nat) (r : Recorder), s.recorders[i]? = some r →
    ∃ r', t.recorders[i]? = some r' ∧ r'.recording = r.recording ∧ r.made ≤ r'.made
  /-- What a snapshot shows stays. -/
  snapshots : ∀ (j : Nat) (shown : Received), s.snapshots[j]? = some (.complete shown) →
    t.snapshots[j]? = some (.complete shown)

section Order

variable {s t u : Traffic} {a : Action} {i j : Nat} {w : Write} {tally : Tally}

theorem Later.trans (first : Later s t) (second : Later t u) : Later s u where
  recorders i r there := by
    rcases first.recorders i r there with ⟨r', there', same, le⟩
    rcases second.recorders i r' there' with ⟨r'', there'', same', le'⟩
    exact ⟨r'', there'', same'.trans same, Nat.le_trans le le'⟩
  snapshots j shown there := second.snapshots j shown (first.snapshots j shown there)

theorem Later.made (later : Later s t) (made : s.Made i w) : t.Made i w := by
  rcases made with ⟨r, there, mem⟩
  rcases later.recorders i r there with ⟨r', there', same, le⟩
  exact ⟨r', there', (Recorder.done_prefix same le).subset mem⟩

theorem Later.recorded_le (later : Later s t) : s.recorded tally ≤ t.recorded tally := by
  refine sum_map_le_of_getElem? _ _ fun i r there => ?_
  rcases later.recorders i r there with ⟨r', there', same, le⟩
  exact ⟨r', there', Recorder.sum_amount_le (Recorder.done_prefix same le) tally⟩

theorem recorded_le_total (s : Traffic) (tally : Tally) : s.recorded tally ≤ s.total tally :=
  List.sum_le_sum fun r _ => r.amount_le tally

/-- A recorder that goes on leaves everything else as it is. -/
theorem Change.later (change : Change s a t) : Later s t := by
  cases change with
  | begin recording =>
      refine ⟨fun i r there => ⟨r, ?_, rfl, Nat.le_refl _⟩, fun _ _ there => there⟩
      exact (List.getElem?_append_left (List.getElem?_eq_some_iff.mp there).1).trans there
  | @write i _ _ _ _ =>
      refine ⟨fun k r there => ?_, fun _ _ there => there⟩
      refine ⟨if i = k then r.advance else r, ?_, ?_, ?_⟩
      · rw [List.getElem?_modify, there]
        rfl
      · split <;> rfl
      · split
        · exact Nat.le_succ _
        · exact Nat.le_refl _
  | ask =>
      refine ⟨fun i r there => ⟨r, there, rfl, Nat.le_refl _⟩, fun j shown there => ?_⟩
      exact (List.getElem?_append_left (List.getElem?_eq_some_iff.mp there).1).trans there
  | @read j reading there going =>
      refine ⟨fun i r there => ⟨r, there, rfl, Nat.le_refl _⟩, fun k shown complete => ?_⟩
      -- A snapshot that reads is not complete.
      have other : j ≠ k := by
        rintro rfl
        cases there.symm.trans complete
        cases going
      rw [List.getElem?_modify, complete, Option.map_eq_map, Option.map_some, if_neg other]

/-- An action makes at most one change, and a recorder makes the change that comes next. -/
theorem Change.made_iff (change : Change s a t) : t.Made i w ↔
    s.Made i w ∨ a = .write i ∧ ∃ r, s.recorders[i]? = some r ∧ r.next? = some w := by
  constructor
  · rintro ⟨r, there, mem⟩
    cases change with
    | begin recording =>
        rw [List.getElem?_append] at there
        split at there
        · exact Or.inl ⟨r, there, mem⟩
        · -- A recorder that has just begun has made nothing.
          rcases List.mem_singleton.mp (List.mem_of_getElem? there) with rfl
          cases mem
    | @write k r' w' there' next =>
        rw [List.getElem?_modify, Option.map_eq_map, Option.map_eq_some_iff] at there
        rcases there with ⟨r₀, there, rfl⟩
        by_cases same : k = i
        · subst same
          cases there'.symm.trans there
          rw [if_pos rfl, Recorder.done_advance next] at mem
          rcases List.mem_append.mp mem with mem | last
          · exact Or.inl ⟨r', there', mem⟩
          · rw [List.mem_singleton.mp last]
            exact Or.inr ⟨rfl, r', there', next⟩
        · rw [if_neg same] at mem
          exact Or.inl ⟨r₀, there, mem⟩
    | ask => exact Or.inl ⟨r, there, mem⟩
    | read _ _ => exact Or.inl ⟨r, there, mem⟩
  · rintro (made | ⟨rfl, r, there, next⟩)
    · exact change.later.made made
    · cases change with
      | write there' next' =>
          cases there'.symm.trans there
          refine ⟨r.advance, ?_, ?_⟩
          · rw [List.getElem?_modify, there, Option.map_eq_map, Option.map_some, if_pos rfl]
          · rw [Recorder.done_advance next]
            exact List.mem_append_right _ (List.mem_singleton_self w)

end Order

section Runs

variable {h : List Moment} {s t : Traffic} {a : Action} {tally : Tally}

theorem recorded_modify {i : Nat} {r : Recorder} {w : Write} (there : s.recorders[i]? = some r)
    (next : r.next? = some w) :
    ((s.recorders.modify i Recorder.advance).map (Recorder.amount tally)).sum =
      s.recorded tally + w.amount tally := by
  have sum := sum_map_modify (Recorder.amount tally) Recorder.advance there
  rw [Recorder.amount_advance next] at sum
  rw [recorded]
  omega

/-- The counters that add up are what has been recorded, but for wrapping around. -/
theorem Run.value_eq (run : Run h s) (tally : Tally) :
    s.counters.value tally = UInt64.ofNat (s.recorded tally) := by
  induction run with
  | start => cases tally <;> rfl
  | @next h s t a run act ih =>
      cases change_of_act? act with
      | begin recording =>
          have nothing : Recorder.amount tally ⟨recording, 0⟩ = 0 := rfl
          rw [recorded, List.map_append, List.sum_append, List.map_singleton, List.sum_singleton,
            nothing, Nat.add_zero]
          exact ih
      | write there next =>
          rw [recorded, recorded_modify there next, UInt64.ofNat_add, ← ih]
          exact value_write _ _ _
      | ask => exact ih
      | read _ _ => exact ih

/-- The stored time only changes to that of a packet which stores it. -/
theorem Change.lastPacket (change : Change s a t) :
    t.counters.lastPacket = s.counters.lastPacket ∧
        (∀ i ms, t.Made i (.storeTime ms) → s.Made i (.storeTime ms)) ∨
      ∃ i, t.Made i (.storeTime t.counters.lastPacket) := by
  have made := fun i ms => change.made_iff (i := i) (w := .storeTime ms)
  cases change with
  | @write k r w there next =>
      cases w with
      | storeTime ms => exact Or.inr ⟨k, (made k ms).mpr (Or.inr ⟨rfl, r, there, next⟩)⟩
      | _ =>
          refine Or.inl ⟨rfl, fun i ms now => ((made i ms).mp now).resolve_right ?_⟩
          -- The change that was made does not store a time.
          rintro ⟨same, r', there', next'⟩
          cases same
          cases there.symm.trans there'
          cases next.symm.trans next'
  | _ =>
      refine Or.inl ⟨rfl, fun i ms now => ((made i ms).mp now).resolve_right ?_⟩
      rintro ⟨same, _⟩
      cases same

/-- The stored time is that of a packet, unless none has been stored. -/
theorem Run.lastPacket_eq (run : Run h s) :
    s.counters.lastPacket = 0 ∧ (∀ i ms, ¬ s.Made i (.storeTime ms)) ∨
      ∃ i, s.Made i (.storeTime s.counters.lastPacket) := by
  induction run with
  | start =>
      refine Or.inl ⟨rfl, ?_⟩
      rintro i ms ⟨r, there, _⟩
      cases there
  | next _ act ih =>
      have change := change_of_act? act
      rcases change.lastPacket with ⟨same, kept⟩ | stored
      · rw [same]
        rcases ih with ⟨zero, never⟩ | ⟨i, made⟩
        · exact Or.inl ⟨zero, fun i ms now => never i ms (kept i ms now)⟩
        · exact Or.inr ⟨i, change.later.made made⟩
      · exact Or.inr stored

/-- What has been made at a moment of a run stays made. -/
theorem Run.later (run : Run h s) :
    h.Pairwise (fun m m' => Later m.before m'.before) ∧ ∀ m ∈ h, Later m.before s :=
  Trace.pairwise Later.trans (fun act => (change_of_act? act).later) run

end Runs

end Traffic

end Counters

end Stats

end ShardConsole
