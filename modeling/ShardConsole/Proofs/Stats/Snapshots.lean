import ShardConsole.Proofs.Stats.Traffic

/-!
# Snapshots of Shared Counters

How far a snapshot can be trusted that is taken while packets are being recorded.

A snapshot reads four counters in four different states, and anything may happen between two of
them, so what it shows need not be what the counters were at any time. It errs on one side only,
however. A packet is counted first, then its metrics are added and then its time is stored, and a
snapshot reads the time first, then the metrics and the packets last. Whatever a snapshot has seen
of a packet, it therefore counts the packet as well: its time is the time of a packet that it
counts, and its metrics are metrics of packets that it counts.

The counters that add up never go down as long as they do not wrap around. A snapshot that begins
when another one is complete therefore shows no less, and in the end the counters are exact.

## Main definitions

* `Traffic.readsOf`: The moments at which a snapshot reads a counter.
* `Traffic.Taken`: A snapshot shows what it has read.
* `Traffic.Follows`: One snapshot begins after another one is complete.
* `Traffic.Fits`, `Traffic.Dated`: Nothing wraps around, and the clock is past the start of 1970.
* `Traffic.Finished`: All changes have been made.
* `Traffic.carried`: The metrics of the packets that have been counted.
* `Traffic.Consistent`: What a snapshot shows goes together.

## Theorems

* `Recorder.counted_of_added`, `Recorder.added_of_stored`: The order of the changes for a packet.
* `Traffic.Run.taken`: A complete snapshot shows what it has read at four moments.
* `Traffic.Taken.consistent`: What it shows goes together.
* `Traffic.Run.le_of_follows`: A later snapshot shows no less.
* `Traffic.Finished.recorded_eq`: In the end everything has been recorded.
* `Traffic.Run.snapshots_consistent`: What snapshots show while packets are being recorded, and
  what the counters are in the end.
-/

namespace ShardConsole

namespace Stats

/-- What is shown of a counter that adds up. -/
def Received.value (r : Received) : Counters.Tally → UInt64
  | .packets => r.packets
  | .metrics => r.metrics
  | .badLines => r.badLines

namespace Counters

/-- The time at which a packet comes. -/
def Recording.time? : Recording → Option Int64
  | packet _ ms => some ms
  | badLine => .none

/-- The number of counters that a snapshot has read. -/
def Reading.reads : Reading → Nat
  | .begun => 0
  | .time _ => 1
  | .timeAndLines _ _ => 2
  | .allButPackets _ _ _ => 3
  | .complete _ => 4

theorem reads_read {c : Counters} {reading : Reading} (going : reading.isComplete = false) :
    (c.read reading).reads = reading.reads + 1 := by
  cases reading with
  | complete => cases going
  | _ => rfl

namespace Recorder

variable {r : Recorder} {n : UInt64} {ms : Int64}

/-- A packet has made none of its changes, the first one, the first two or all of them. -/
theorem packet_cases (metrics : UInt64) (ms : Int64) (made : Nat) :
    (packet metrics ms).take made = [] ∨ (packet metrics ms).take made = [.addPacket] ∨
      (packet metrics ms).take made = [.addPacket, .addMetrics metrics] ∨
      (packet metrics ms).take made = packet metrics ms := by
  match made with
  | 0 => exact Or.inl rfl
  | 1 => exact Or.inr (Or.inl rfl)
  | 2 => exact Or.inr (Or.inr (Or.inl rfl))
  | made + 3 => exact Or.inr (Or.inr (Or.inr (List.take_of_length_le (Nat.le_add_left 3 made))))

theorem not_mem_badLine {w : Write} {made : Nat} (other : w ≠ .addBadLine) :
    w ∉ badLine.take made := by
  intro mem
  exact other (List.mem_singleton.mp (List.mem_of_mem_take mem))

/-- A packet is counted before its metrics are added. -/
theorem counted_of_added (added : .addMetrics n ∈ r.done) : .addPacket ∈ r.done := by
  rcases r with ⟨_ | _, made⟩
  · rename_i metrics ms
    rw [done, Recording.writes] at added ⊢
    rcases packet_cases metrics ms made with same | same | same | same <;> rw [same] at added ⊢ <;>
      simp [packet] at added ⊢
  · exact absurd added (not_mem_badLine (by simp))

/-- The metrics of a packet are added before its time is stored. -/
theorem added_of_stored (stored : .storeTime ms ∈ r.done) :
    ∃ n, r.recording = .packet n ms ∧ .addMetrics n ∈ r.done := by
  rcases r with ⟨_ | _, made⟩
  · rename_i metrics ms'
    rw [done, Recording.writes] at stored
    simp only [done, Recording.writes]
    rcases packet_cases metrics ms' made with same | same | same | same <;>
      rw [same] at stored ⊢ <;> simp [packet] at stored ⊢
    exact stored.symm
  · exact absurd stored (not_mem_badLine (by simp))

-- What has not been counted has not added any metrics.
theorem amount_of_not_counted (uncounted : .addPacket ∉ r.done) : r.amount .metrics = 0 := by
  refine List.sum_eq_zero fun amount mem => ?_
  rcases List.mem_map.mp mem with ⟨w, made, rfl⟩
  cases w with
  | addMetrics n => exact absurd (counted_of_added made) uncounted
  | _ => rfl

end Recorder

namespace Traffic

/-- The moments at which a snapshot reads a counter. -/
def readsOf (j : Nat) (h : List Moment) : List Moment :=
  h.filter fun m => m.action = .read j

/-- A snapshot is what its reads have shown. -/
structure Reads (h : List Moment) (j : Nat) (reading : Reading) : Prop where
  count : (readsOf j h).length = reading.reads
  shown : reading = (readsOf j h).foldl (fun reading m => m.before.counters.read reading) .begun

/-- A snapshot has read the counters in four states, one after the other, and shows what they
    were. -/
structure Taken (h : List Moment) (j : Nat) (r : Received)
    (atTime atLines atMetrics atPackets : Traffic) : Prop where
  states : (readsOf j h).map Trace.Moment.before = [atTime, atLines, atMetrics, atPackets]
  lastPacket : r.lastPacket = timeOf atTime.counters.lastPacket
  badLines : r.badLines = atLines.counters.badLines
  metrics : r.metrics = atMetrics.counters.metrics
  packets : r.packets = atPackets.counters.packets

/-- A snapshot begins after another one is complete. -/
def Follows (h : List Moment) (j k : Nat) : Prop :=
  ∃ m ∈ h, m.action = .ask ∧ m.before.snapshots.length = k ∧
    m.before.snapshots[j]?.any Reading.isComplete = true

/-- What is recorded does not make a counter wrap around. -/
def Fits (s : Traffic) : Prop :=
  ∀ t, s.total t < 2 ^ 64

/-- All packets come after the start of 1970. -/
def Dated (s : Traffic) : Prop :=
  ∀ r ∈ s.recorders, ∀ ms ∈ r.recording.time?, 0 < ms

/-- All changes have been made. -/
def Finished (s : Traffic) : Prop :=
  ∀ r ∈ s.recorders, r.recording.writes.length ≤ r.made

/-- The metrics of all packets that have been counted, whether these have been added or not. -/
def carried (s : Traffic) : Nat :=
  (s.recorders.map fun r => if .addPacket ∈ r.done then r.recording.amount .metrics else 0).sum

instance (h : List Moment) (j k : Nat) : Decidable (Follows h j k) :=
  inferInstanceAs (Decidable (∃ m ∈ h, _))

instance (s : Traffic) : Decidable s.Fits :=
  decidable_of_iff (s.total .packets < 2 ^ 64 ∧ s.total .metrics < 2 ^ 64 ∧
      s.total .badLines < 2 ^ 64)
    ⟨fun ⟨packets, metrics, badLines⟩ t => by cases t <;> assumption,
      fun fits => ⟨fits .packets, fits .metrics, fits .badLines⟩⟩

instance (s : Traffic) : Decidable s.Dated :=
  inferInstanceAs (Decidable (∀ r ∈ s.recorders, _))

instance (s : Traffic) : Decidable s.Finished :=
  inferInstanceAs (Decidable (∀ r ∈ s.recorders, _))

/-- What a snapshot shows goes together. -/
structure Consistent (s : Traffic) (r : Received) (atTime atLines atMetrics atPackets : Traffic) :
    Prop where
  /-- It shows what had been recorded when it read, but for wrapping around. -/
  badLines : r.badLines = UInt64.ofNat (atLines.recorded .badLines)
  metrics : r.metrics = UInt64.ofNat (atMetrics.recorded .metrics)
  packets : r.packets = UInt64.ofNat (atPackets.recorded .packets)
  /-- A packet whose metrics it includes is counted. -/
  counted : ∀ i n, atMetrics.Made i (.addMetrics n) → atPackets.Made i .addPacket
  /-- The time that it shows is that of a packet whose metrics it includes. -/
  dated : ∀ time, r.lastPacket = some time → ∃ i n ms, time = Timestamp.ofMillis ms.toInt ∧
    atTime.Made i (.storeTime ms) ∧ atMetrics.Made i (.addMetrics n)
  /-- It shows a time if there is one. -/
  present : s.Dated → (∃ i ms, atTime.Made i (.storeTime ms)) → r.lastPacket.isSome
  /-- Nothing has wrapped around. -/
  unwrapped : s.Fits → r.badLines.toNat = atLines.recorded .badLines ∧
    r.metrics.toNat = atMetrics.recorded .metrics ∧ r.packets.toNat = atPackets.recorded .packets
  /-- The packets that it counts carry all metrics that it includes. -/
  covered : s.Fits → r.metrics.toNat ≤ atPackets.carried
  /-- If it shows a time it counts a packet. -/
  positive : s.Fits → r.lastPacket.isSome → 1 ≤ r.packets.toNat

section Reads

variable {h : List Moment} {s : Traffic} {a : Action} {j : Nat} {reading : Reading}

theorem readsOf_of_ne (other : a ≠ .read j) : readsOf j (h ++ [⟨s, a⟩]) = readsOf j h := by
  simp [readsOf, other]

theorem readsOf_read : readsOf j (h ++ [⟨s, .read j⟩]) = readsOf j h ++ [⟨s, .read j⟩] := by
  simp [readsOf]

theorem Reads.of_ne (reads : Reads h j reading) (other : a ≠ .read j) :
    Reads (h ++ [⟨s, a⟩]) j reading := by
  constructor
  · rw [readsOf_of_ne other, reads.count]
  · rw [readsOf_of_ne other, ← reads.shown]

theorem Reads.read (reads : Reads h j reading) (going : reading.isComplete = false) :
    Reads (h ++ [⟨s, .read j⟩]) j (s.counters.read reading) := by
  constructor
  · rw [readsOf_read, List.length_append, reads.count, reads_read going, List.length_singleton]
  · rw [readsOf_read, List.foldl_append, ← reads.shown]
    rfl

-- A snapshot that has read nothing has just begun.
theorem Reads.of_unread (unread : readsOf j h = []) : Reads h j .begun := by
  constructor
  · rw [unread]
    rfl
  · rw [unread]
    rfl

/-- Every snapshot is what its reads have shown, and what has not begun has read nothing. -/
theorem Run.reads (run : Run h s) :
    (∀ j reading, s.snapshots[j]? = some reading → Reads h j reading) ∧
      ∀ j, s.snapshots.length ≤ j → readsOf j h = [] := by
  induction run with
  | start => exact ⟨fun _ _ there => (by cases there), fun _ _ => rfl⟩
  | @next h s t a run act ih =>
      rcases ih with ⟨begun, unread⟩
      cases change_of_act? act with
      | begin _ | write _ _ =>
          refine ⟨fun j reading there => (begun j reading there).of_ne (by simp), fun j out => ?_⟩
          rw [readsOf_of_ne (by simp), unread j out]
      | ask =>
          refine ⟨fun j reading there => Reads.of_ne ?_ (by simp), fun j out => ?_⟩
          · rw [List.getElem?_append] at there
            split at there
            · exact begun j reading there
            · rename_i out
              rcases List.mem_singleton.mp (List.mem_of_getElem? there) with rfl
              exact .of_unread (unread j (Nat.le_of_not_lt out))
          · rw [List.length_append] at out
            rw [readsOf_of_ne (by simp), unread j (Nat.le_trans (Nat.le_add_right _ _) out)]
      | @read k reading there going =>
          refine ⟨fun j reading' there' => ?_, fun j out => ?_⟩
          · rw [List.getElem?_modify, Option.map_eq_map, Option.map_eq_some_iff] at there'
            rcases there' with ⟨before, there', rfl⟩
            by_cases same : k = j
            · subst same
              cases there.symm.trans there'
              rw [if_pos rfl]
              exact (begun k reading there).read going
            · rw [if_neg same]
              exact (begun j before there').of_ne fun action => same (Action.read.inj action)
          · rw [List.length_modify] at out
            have other : k ≠ j := by
              rintro rfl
              exact absurd (List.getElem?_eq_some_iff.mp there).1 (Nat.not_lt.mpr out)
            rw [readsOf_of_ne fun action => other (Action.read.inj action), unread j out]

/-- A complete snapshot has read the counters four times and shows what they were. -/
theorem Run.taken {r : Received} (run : Run h s) (complete : s.snapshots[j]? = some (.complete r)) :
    ∃ atTime atLines atMetrics atPackets, Taken h j r atTime atLines atMetrics atPackets := by
  rcases run.reads.1 j _ complete with ⟨count, shown⟩
  match moments : readsOf j h with
  | [m₁, m₂, m₃, m₄] =>
      rw [moments] at shown
      cases shown
      exact ⟨m₁.before, m₂.before, m₃.before, m₄.before, by rw [moments]; rfl, rfl, rfl, rfl, rfl⟩
  | [] | [_] | [_, _] | [_, _, _] => simp [moments, Reading.reads] at count
  | _ :: _ :: _ :: _ :: _ :: _ => simp [moments, Reading.reads] at count

end Reads

section States

variable {h : List Moment} {s x : Traffic} {i j k : Nat} {t : Tally} {n : UInt64} {ms : Int64}
  {r r' : Received} {atTime atLines atMetrics atPackets : Traffic}

theorem Made.counted (made : s.Made i (.addMetrics n)) : s.Made i .addPacket := by
  rcases made with ⟨recorder, there, mem⟩
  exact ⟨recorder, there, Recorder.counted_of_added mem⟩

theorem Made.added (made : s.Made i (.storeTime ms)) : ∃ n, s.Made i (.addMetrics n) := by
  rcases made with ⟨recorder, there, mem⟩
  rcases Recorder.added_of_stored mem with ⟨n, _, added⟩
  exact ⟨n, recorder, there, added⟩

theorem Dated.pos (dated : s.Dated) (later : Later x s) (made : x.Made i (.storeTime ms)) :
    0 < ms := by
  rcases made with ⟨recorder, there, mem⟩
  rcases Recorder.added_of_stored mem with ⟨n, packet, _⟩
  rcases later.recorders i recorder there with ⟨recorder', there', same, _⟩
  refine dated recorder' (List.mem_of_getElem? there') ms ?_
  rw [same, packet]
  rfl

theorem recorded_packets_pos (made : s.Made i .addPacket) : 1 ≤ s.recorded .packets := by
  rcases made with ⟨recorder, there, mem⟩
  have counted : 1 ≤ recorder.amount .packets :=
    List.single_le_sum (fun _ _ => Nat.zero_le _) _ (List.mem_map.mpr ⟨.addPacket, mem, rfl⟩)
  exact counted.trans (List.single_le_sum (fun _ _ => Nat.zero_le _) _
    (List.mem_map.mpr ⟨recorder, List.mem_of_getElem? there, rfl⟩))

/-- The metrics that have been added are carried by packets that are counted from then on. -/
theorem Later.recorded_le_carried (later : Later s x) : s.recorded .metrics ≤ x.carried := by
  refine sum_map_le_of_getElem? _ _ fun i recorder there => ?_
  rcases later.recorders i recorder there with ⟨recorder', there', same, le⟩
  refine ⟨recorder', there', ?_⟩
  by_cases counted : .addPacket ∈ recorder'.done
  · rw [if_pos counted, same]
    exact recorder.amount_le .metrics
  · have before : .addPacket ∉ recorder.done :=
      fun mem => counted ((Recorder.done_prefix same le).subset mem)
    rw [if_neg counted, Recorder.amount_of_not_counted before]

theorem Fits.toNat_ofNat (fits : s.Fits) (later : Later x s) (t : Tally) :
    (UInt64.ofNat (x.recorded t)).toNat = x.recorded t :=
  UInt64.toNat_ofNat_of_lt' (Nat.lt_of_le_of_lt
    (Nat.le_trans later.recorded_le (s.recorded_le_total t)) (fits t))

theorem timeOf_eq_some_iff {time : Timestamp} :
    timeOf ms = some time ↔ ms ≠ 0 ∧ time = Timestamp.ofMillis ms.toInt := by
  rw [timeOf]
  by_cases zero : ms = 0 <;> simp [zero, eq_comm]

/-- The state of a moment is that of a run, and the last state comes after it. -/
theorem Run.before {m : Moment} (run : Run h s) (mem : m ∈ h) :
    Later m.before s ∧ ∃ h', Run h' m.before := by
  rcases List.append_of_mem mem with ⟨h₁, h₂, split⟩
  exact ⟨run.later.2 m mem, h₁, (Trace.split (split ▸ run)).1⟩

/-- The four states of a snapshot come one after the other. -/
theorem Taken.ordered (taken : Taken h j r atTime atLines atMetrics atPackets) (run : Run h s) :
    [atTime, atLines, atMetrics, atPackets].Pairwise Later ∧
      ∀ x ∈ [atTime, atLines, atMetrics, atPackets], Later x s ∧ ∃ h', Run h' x := by
  rw [← taken.states]
  constructor
  · exact List.pairwise_map.mpr (run.later.1.filter _)
  · intro x mem
    rcases List.mem_map.mp mem with ⟨m, read, rfl⟩
    exact run.before (List.mem_of_mem_filter read)

/-- A counter that adds up is shown as what had been recorded at one of the reads. -/
theorem Taken.value_eq (taken : Taken h j r atTime atLines atMetrics atPackets) (run : Run h s)
    (t : Tally) : ∃ m ∈ readsOf j h, r.value t = UInt64.ofNat (m.before.recorded t) := by
  have read {x : Traffic} (mem : x ∈ [atTime, atLines, atMetrics, atPackets])
      (shown : r.value t = x.counters.value t) :
      ∃ m ∈ readsOf j h, r.value t = UInt64.ofNat (m.before.recorded t) := by
    rcases List.mem_map.mp (taken.states ▸ mem) with ⟨m, there, rfl⟩
    rcases run.before (List.mem_of_mem_filter there) with ⟨_, _, reached⟩
    exact ⟨m, there, shown.trans (reached.value_eq t)⟩
  cases t with
  | packets => exact read (by simp) taken.packets
  | metrics => exact read (by simp) taken.metrics
  | badLines => exact read (by simp) taken.badLines

/-- A time that is read is that of a packet which has stored it. -/
theorem Run.stored_of_timeOf {time : Timestamp} (run : Run h s)
    (shown : timeOf s.counters.lastPacket = some time) :
    ∃ i ms, time = Timestamp.ofMillis ms.toInt ∧ s.Made i (.storeTime ms) := by
  rcases timeOf_eq_some_iff.mp shown with ⟨nonzero, same⟩
  rcases run.lastPacket_eq with ⟨zero, _⟩ | ⟨i, stored⟩
  · exact absurd zero nonzero
  · exact ⟨i, _, same, stored⟩

/-- When a time has been stored, a time is read. -/
theorem Run.isSome_timeOf (run : Run h x) (later : Later x s) (dated : s.Dated)
    (made : x.Made i (.storeTime ms)) : (timeOf x.counters.lastPacket).isSome := by
  rcases run.lastPacket_eq with ⟨_, never⟩ | ⟨i', stored⟩
  · exact absurd made (never i ms)
  · have pos := dated.pos later stored
    refine Option.isSome_iff_exists.mpr ⟨_, timeOf_eq_some_iff.mpr ⟨?_, rfl⟩⟩
    intro zero
    rw [zero] at pos
    exact absurd pos (by decide)

/-- What a snapshot shows goes together. -/
theorem Taken.consistent (taken : Taken h j r atTime atLines atMetrics atPackets)
    (run : Run h s) : Consistent s r atTime atLines atMetrics atPackets := by
  rcases taken.ordered run with ⟨order, states⟩
  simp only [List.pairwise_cons, List.mem_cons, List.not_mem_nil, or_false, forall_eq_or_imp,
    forall_eq] at order states
  rcases order with ⟨⟨_, timeMetrics, _⟩, _, metricsPackets, _⟩
  rcases states with ⟨⟨time, _, timeRun⟩, ⟨lines, _, linesRun⟩, ⟨metrics, _, metricsRun⟩,
    ⟨packets, _, packetsRun⟩⟩
  have badLines := taken.badLines.trans (linesRun.value_eq .badLines)
  have added := taken.metrics.trans (metricsRun.value_eq .metrics)
  have counted := taken.packets.trans (packetsRun.value_eq .packets)
  -- The metrics are read after the time, so those of the packet are among them.
  have dated (time : Timestamp) (shown : r.lastPacket = some time) :
      ∃ i n ms, time = Timestamp.ofMillis ms.toInt ∧ atTime.Made i (.storeTime ms) ∧
        atMetrics.Made i (.addMetrics n) := by
    rcases timeRun.stored_of_timeOf (taken.lastPacket ▸ shown) with ⟨i, ms, same, stored⟩
    rcases stored.added with ⟨n, before⟩
    exact ⟨i, n, ms, same, stored, timeMetrics.made before⟩
  have unwrapped (fits : s.Fits) : r.badLines.toNat = atLines.recorded .badLines ∧
      r.metrics.toNat = atMetrics.recorded .metrics ∧
        r.packets.toNat = atPackets.recorded .packets := by
    rw [badLines, added, counted]
    exact ⟨fits.toNat_ofNat lines _, fits.toNat_ofNat metrics _, fits.toNat_ofNat packets _⟩
  constructor
  · exact badLines
  · exact added
  · exact counted
  · intro i n made
    exact metricsPackets.made made.counted
  · exact dated
  · rintro past ⟨i, ms, stored⟩
    rw [taken.lastPacket]
    exact timeRun.isSome_timeOf time past stored
  · exact unwrapped
  · intro fits
    rw [(unwrapped fits).2.1]
    exact metricsPackets.recorded_le_carried
  · intro fits shown
    rcases Option.isSome_iff_exists.mp shown with ⟨time, shown⟩
    rcases dated time shown with ⟨i, n, _, _, _, made⟩
    rw [(unwrapped fits).2.2]
    exact recorded_packets_pos (metricsPackets.made made.counted)

theorem exists_complete (complete : s.snapshots[j]?.any Reading.isComplete = true) :
    ∃ shown, s.snapshots[j]? = some (.complete shown) := by
  rw [Option.any_eq_true] at complete
  rcases complete with ⟨reading, there, whole⟩
  cases reading with
  | complete shown => exact ⟨shown, there⟩
  | _ => cases whole

/-- A snapshot that begins when another one is complete shows no less. -/
theorem Run.le_of_follows (run : Run h s) (fits : s.Fits)
    (first : s.snapshots[j]? = some (.complete r)) (second : s.snapshots[k]? = some (.complete r'))
    (follows : Follows h j k) (t : Tally) : r.value t ≤ r'.value t := by
  rcases follows with ⟨m, there, ask, rfl, complete⟩
  rcases exists_complete complete with ⟨shown, complete⟩
  cases ((run.later.2 m there).snapshots j shown complete).symm.trans first
  rcases List.append_of_mem there with ⟨h₁, h₂, rfl⟩
  have before : Run h₁ m.before := run.split.1
  -- The first snapshot has read everything before the second one begins.
  rcases before.taken complete with ⟨_, _, _, _, taken⟩
  rcases taken.value_eq before t with ⟨m₁, read₁, value₁⟩
  have earlier := before.later.2 m₁ (List.mem_of_mem_filter read₁)
  -- The second one has read nothing until then.
  rcases run.taken second with ⟨_, _, _, _, taken'⟩
  rcases taken'.value_eq run t with ⟨m₂, read₂, value₂⟩
  rw [readsOf, List.filter_append, List.filter_cons_of_neg (by simp [ask]), ← readsOf,
    before.reads.2 _ (Nat.le_refl _), List.nil_append] at read₂
  have after : m₂ ∈ h₂ := List.mem_of_mem_filter read₂
  have later := (List.pairwise_cons.mp (List.pairwise_append.mp run.later.1).2.1).1 m₂ after
  have last := run.later.2 m₂ (List.mem_append_right _ (List.mem_cons_of_mem _ after))
  have onward : Later m₁.before m₂.before := earlier.trans later
  rw [value₁, value₂, UInt64.le_iff_toNat_le, fits.toNat_ofNat (onward.trans last),
    fits.toNat_ofNat last]
  exact onward.recorded_le

/-- When all changes have been made, everything has been recorded. -/
theorem Finished.recorded_eq (finished : s.Finished) (t : Tally) : s.recorded t = s.total t :=
  congrArg List.sum (List.map_congr_left fun r mem => Recorder.amount_of_made (finished r mem))

end States

/-- What snapshots show while packets and bad lines are being recorded, in any interleaving.

    A complete snapshot shows what the counters were in four states, one after the other. Whatever
    it includes of a packet, it counts the packet: the metrics that it includes are metrics of
    packets that it counts, and if it shows a time then it counts a packet and shows when that came.
    As long as nothing wraps around, a snapshot that begins when another one is complete shows no
    less of what adds up. When all changes have been made the counters are exact, up to wrapping
    around. -/
theorem Run.snapshots_consistent {h : List Moment} {s : Traffic} (run : Run h s) :
    (∀ j r, s.snapshots[j]? = some (.complete r) → ∃ atTime atLines atMetrics atPackets,
      Taken h j r atTime atLines atMetrics atPackets ∧
        Consistent s r atTime atLines atMetrics atPackets) ∧
    (s.Fits → ∀ j k r r', s.snapshots[j]? = some (.complete r) →
      s.snapshots[k]? = some (.complete r') → Follows h j k → ∀ t, r.value t ≤ r'.value t) ∧
    (s.Finished → ∀ t, s.counters.value t = UInt64.ofNat (s.total t) ∧
      (s.Fits → (s.counters.value t).toNat = s.total t)) := by
  refine ⟨?_, ?_, ?_⟩
  · intro j r complete
    rcases run.taken complete with ⟨_, _, _, _, taken⟩
    exact ⟨_, _, _, _, taken, taken.consistent run⟩
  · intro fits j k r r' first second follows t
    exact run.le_of_follows fits first second follows t
  · intro finished t
    rw [run.value_eq, finished.recorded_eq]
    exact ⟨rfl, fun fits => UInt64.toNat_ofNat_of_lt' (fits t)⟩

/-- A snapshot is taken while a packet is being recorded. It reads the time before that is stored
    and the packets after another packet has been counted, whose metrics it has missed. A second
    snapshot is taken when everything has been recorded. -/
def overlapping : List Action :=
  [.begin (.packet 3 1000), .ask, .write 0, .read 0, .read 0, .write 0, .read 0, .begin .badLine,
    .begin (.packet 4 2000), .write 2, .read 0, .ask, .write 2, .write 0, .write 1, .write 2,
    .read 1, .read 1, .read 1, .read 1]

theorem overlapping_consistent : ∃ h s, Run h s ∧
    s.snapshots = [.complete ⟨0, 3, 2, .none⟩, .complete ⟨1, 7, 2, some ⟨2, 0⟩⟩] ∧
    (∃ atTime atLines atMetrics atPackets,
      Taken h 0 ⟨0, 3, 2, .none⟩ atTime atLines atMetrics atPackets ∧ 3 ≤ atPackets.carried) ∧
    (∃ atTime atLines atMetrics atPackets i n,
      Taken h 1 ⟨1, 7, 2, some ⟨2, 0⟩⟩ atTime atLines atMetrics atPackets ∧
        atMetrics.Made i (.addMetrics n) ∧ atPackets.Made i .addPacket) ∧
    (∀ t, (⟨0, 3, 2, .none⟩ : Received).value t ≤
      (⟨1, 7, 2, some ⟨2, 0⟩⟩ : Received).value t) ∧
    ∀ t, (s.counters.value t).toNat = s.total t := by
  have done : (Trace.perform? act? [] start overlapping).map (fun r => (r.2.snapshots,
      decide (r.2.Fits ∧ r.2.Finished ∧ Follows r.1 0 1))) =
      some ([.complete ⟨0, 3, 2, .none⟩, .complete ⟨1, 7, 2, some ⟨2, 0⟩⟩], true) := by
    decide +kernel
  rcases Option.map_eq_some_iff.mp done with ⟨⟨h, s⟩, performed, facts⟩
  rw [Prod.mk.injEq, decide_eq_true_iff] at facts
  rcases facts with ⟨snapshots, fits, finished, follows⟩
  have run : Run h s := Trace.of_perform? .start performed
  rcases run.snapshots_consistent with ⟨shown, grow, last⟩
  have first : s.snapshots[0]? = some (.complete ⟨0, 3, 2, .none⟩) := by rw [snapshots]; rfl
  have second : s.snapshots[1]? = some (.complete ⟨1, 7, 2, some ⟨2, 0⟩⟩) := by rw [snapshots]; rfl
  rcases shown 0 _ first with ⟨_, _, _, _, taken, consistent⟩
  rcases shown 1 _ second with ⟨_, _, _, _, taken', consistent'⟩
  rcases consistent'.dated _ rfl with ⟨i, n, _, _, _, added⟩
  exact ⟨h, s, run, snapshots, ⟨_, _, _, _, taken, consistent.covered fits⟩,
    ⟨_, _, _, _, i, n, taken', added, consistent'.counted i n added⟩,
    fun t => grow fits 0 1 _ _ first second follows t, fun t => (last finished t).2 fits⟩

end Traffic

end Counters

end Stats

end ShardConsole
