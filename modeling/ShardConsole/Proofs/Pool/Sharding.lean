import ShardConsole.Proofs.Pool.Deletions
import ShardConsole.Proofs.Pool.Listings
import ShardConsole.Proofs.Pool.Serial

/-!
# Sharding is Invisible

A pool that starts with empty shards cannot be told from a single shard, as long as metrics
are routed by their names and one operation follows another.

What is compared are the results. The single shard receives the same metrics and has the
same names deleted in one go; the pool spreads them over its workers, who come to them
when they come to them. A deletion counts what it removes from each part, and a listing
strings the parts together, but every name is owned by one worker and is in no other part.
So the counts add up to the count of the single shard, and the entries listed are its
entries. What waits on the queues in the end is what the parts are still behind.

Any hash will do, since all that is asked of it is that a name always has the same owner.

## Main definitions

* `Agrees`: A run of a pool agrees with a single shard.

## Theorems

* `Run.serial_removed`: A deletion counts the names that the single shard has.
* `Run.serial_listed`: A listing lists the entries of the single shard.
* `Run.restricts_shard`: A shard is always a part of what the single shard once was.
* `Run.settled`: The parts make up the single shard once the queues are empty.
* `Run.sharding_invisible`: A serial run of a pool agrees with a single shard.
-/

namespace ShardConsole

namespace Pool

section Agreement

variable {p : Pool} {h h₁ h₂ : List Moment} {m : Moment} {c : CallId} {w : WorkerId} {n : Nat}
  {hash : String → UInt64} {result : Except Unavailable Reply}

theorem size_pos (run : Run (Pool.start n) h p) : 0 < p.size := by
  rw [run.size_eq, size, Pool.start, Array.size_replicate]
  omega

/-- What an uncancelled deletion of a serial run returns is the number of distinct names
    that the single shard has when the deletion is made. -/
theorem Run.serial_removed {kind : Kind} {names : List String}
    (run : Run (Pool.start n) h p) (alive : p.AllAlive) (serial : ∀ m ∈ h, m.IsSerial hash)
    (split : h = h₁ ++ m :: h₂) (action : m.action = .delete kind names false)
    (hr : p.result? m.before.calls.size = some result) :
    result = .ok (.removed ((single h₁).present kind names).card) := by
  have fresh := isFresh_start n
  have begun : Begun h m.before.calls.size (.delete kind names false) :=
    ⟨m, by simp [split], action, rfl, _, .delete⟩
  rcases run.of_begun begun with ⟨_, call, _, hc, _⟩
  have uncancelled := run.uncancelled fresh serial hc
  have each : ∀ visit ∈ invocations m.before.calls.size h,
      Shard.Restricts (fun name => ownerBy hash p.size name == visit.1) (single h₁) visit.2 := by
    intro visit met
    have operation : m.meant visit.1 =
        [.work m.before.calls.size (Work.delete kind names)] := by
      rw [Moment.meant, action]
    exact run.restricts_of_met alive serial split operation met
  rw [run.removed_of_result fresh alive begun hc uncancelled hr,
    Shard.sum_card_present names (ownerBy_lt (size_pos run)) _
      (run.invocations_of_result fresh alive hc uncancelled hr) each]

/-- What an uncancelled listing of a serial run returns are the records of the entries that
    the single shard has when the listing is made, in some order. -/
theorem Run.serial_listed {capacity : Nat} {kind : Kind}
    (run : Run (Pool.start n) h p) (alive : p.AllAlive) (serial : ∀ m ∈ h, m.IsSerial hash)
    (split : h = h₁ ++ m :: h₂) (action : m.action = .list capacity kind false)
    (hr : p.result? m.before.calls.size = some result) :
    ∃ entries : List (Entry kind.Total),
      entries.Perm ((single h₁).collection kind).entries ∧
        result = .ok (.listing (String.join (entries.map Entry.record))) := by
  have fresh := isFresh_start n
  have begun : Begun h m.before.calls.size (.list capacity kind false) := by
    refine ⟨m, by simp [split], action, rfl, ?_⟩
    subst split
    rcases run.split with ⟨_, q, act, _⟩
    rw [action] at act
    cases change_of_act? act with
    | begin begins => exact ⟨_, begins⟩
  rcases run.of_begun begun with ⟨_, call, _, hc, _⟩
  have uncancelled := run.uncancelled fresh serial hc
  have each : ∀ visit ∈ invocations m.before.calls.size h,
      Shard.Restricts (fun name => ownerBy hash p.size name == visit.1) (single h₁) visit.2 := by
    intro visit met
    have operation : m.meant visit.1 = [.work m.before.calls.size (Work.list kind)] := by
      rw [Moment.meant, action]
    exact run.restricts_of_met alive serial split operation met
  rcases run.complete_of_result fresh alive begun hc uncancelled hr with
    ⟨_, rfl, _, everyone, texts, perm, rfl⟩
  rcases Shard.exists_entries_of_texts _ perm with ⟨entries, listed, same⟩
  refine ⟨entries, listed.trans ?_, by rw [same]⟩
  exact Shard.entries_perm (ownerBy_lt (size_pos run)) _ everyone each

-- What a worker has been given first is what some operations, the first ones, mean for it.
theorem exists_of_meant (messages later : List Message) (eq : meant w h = messages ++ later) :
    ∃ h₁ h₂, h = h₁ ++ h₂ ∧ meant w h₁ = messages := by
  induction h using List.reverseRecOn generalizing later with
  | nil =>
      have none : messages ++ later = [] := eq.symm
      exact ⟨[], [], rfl, (List.append_eq_nil_iff.mp none).1.symm⟩
  | append_singleton h m ih =>
      rw [meant_snoc] at eq
      -- The last operation means at most one message, so it is either taken whole or not at all.
      rcases List.append_eq_append_iff.mp eq with ⟨rest, first, last⟩ | ⟨rest, first, _⟩
      · cases rest with
        | nil => exact ⟨h, [m], rfl, by rw [first, List.append_nil]⟩
        | cons message rest =>
            have one := m.length_meant_le w
            rw [last, List.cons_append, List.length_cons] at one
            have none : rest ++ later = [] := List.eq_nil_of_length_eq_zero (by omega)
            rw [List.cons_append, none] at last
            rw [(List.append_eq_nil_iff.mp none).1] at first
            exact ⟨h ++ [m], [], (List.append_nil _).symm, by rw [meant_snoc, last, first]⟩
      · rcases ih rest first with ⟨h₁, h₂, split, same⟩
        exact ⟨h₁, h₂ ++ [m], by rw [split, List.append_assoc], same⟩

/-- The shard of a worker is at any time its part of the single shard after some of the
    operations, the first ones. -/
theorem Run.restricts_shard (run : Run (Pool.start n) h p) (alive : p.AllAlive)
    (serial : ∀ m ∈ h, m.IsSerial hash) {worker : Worker} (hw : p.workers[w]? = some worker) :
    ∃ h₁ h₂, h = h₁ ++ h₂ ∧
      Shard.Restricts (fun name => ownerBy hash p.size name == w) (single h₁) worker.shard := by
  have inside : w < p.size := lt_size_of_worker hw
  rcases run.shard_eq hw (alive w worker hw) with ⟨first, hf, shard_eq⟩
  have eq := run.meant_eq (isFresh_start n) (queueOf_start n w) alive serial inside
  rw [run.enqueued_eq hw (alive w worker hw), List.append_assoc] at eq
  rcases exists_of_meant _ _ eq with ⟨h₁, h₂, split, same⟩
  refine ⟨h₁, h₂, split, ?_⟩
  rw [shard_eq, start_worker hf, ← same]
  subst split
  have earlier := fun m hm => serial m (List.mem_append_left h₂ hm)
  cases h₂ with
  | nil =>
      rw [List.append_nil] at run
      exact run.restricts_meant earlier w
  | cons m h₂ =>
      rw [run.size_eq, ← Run.size_eq run.split.1]
      exact Run.restricts_meant run.split.1 earlier w

/-- What waits on a queue of a quiet pool is what the shard of the worker is behind its part
    of the single shard. -/
theorem Run.settled (run : Run (Pool.start n) h p) (alive : p.AllAlive)
    (serial : ∀ m ∈ h, m.IsSerial hash) (quiet : p.Quiet) {worker : Worker}
    (hw : p.workers[w]? = some worker) :
    Shard.Restricts (fun name => ownerBy hash p.size name == w) (single h)
      (replay w worker.shard worker.queue) := by
  have inside : w < p.size := lt_size_of_worker hw
  rcases run.shard_eq hw (alive w worker hw) with ⟨first, hf, shard_eq⟩
  have eq := run.meant_eq (isFresh_start n) (queueOf_start n w) alive serial inside
  rw [quiet.unsent_eq w, List.append_nil, run.enqueued_eq hw (alive w worker hw)] at eq
  have parts := run.restricts_meant serial w
  rw [eq, replay, List.foldl_append] at parts
  rw [shard_eq, start_worker hf]
  exact parts

/-- A run of a pool agrees with a single shard. -/
structure Agrees (hash : String → UInt64) (h : List Moment) (p : Pool) : Prop where
  /-- A deletion returns the number of distinct names that the single shard has. -/
  removed : ∀ (h₁ h₂ : List Moment) (m : Moment) (kind : Kind) (names : List String)
    (result : Except Unavailable Reply), h = h₁ ++ m :: h₂ →
    m.action = .delete kind names false → p.result? m.before.calls.size = some result →
      result = .ok (.removed ((single h₁).present kind names).card)
  /-- A listing returns the records of the entries that the single shard has. -/
  listed : ∀ (h₁ h₂ : List Moment) (m : Moment) (capacity : Nat) (kind : Kind)
    (result : Except Unavailable Reply), h = h₁ ++ m :: h₂ →
    m.action = .list capacity kind false → p.result? m.before.calls.size = some result →
      ∃ entries : List (Entry kind.Total),
        entries.Perm ((single h₁).collection kind).entries ∧
          result = .ok (.listing (String.join (entries.map Entry.record)))
  /-- A worker never has a name that it does not own. -/
  owned : ∀ (w : WorkerId) (worker : Worker), p.workers[w]? = some worker →
    ∀ (kind : Kind) (name : String), ownerBy hash p.size name ≠ w →
      worker.shard.totals? kind name = none
  /-- When every call has returned, the shard of a worker is its part of the single shard,
      but for what is still on its queue. -/
  settled : p.Quiet → ∀ (w : WorkerId) (worker : Worker), p.workers[w]? = some worker →
    Shard.Restricts (fun name => ownerBy hash p.size name == w) (single h)
      (replay w worker.shard worker.queue)

/-- Among living workers that have started with empty shards, and with one operation after
    the other, a pool agrees with a single shard, however metrics are routed by name. -/
theorem Run.sharding_invisible (run : Run (Pool.start n) h p) (alive : p.AllAlive)
    (serial : ∀ m ∈ h, m.IsSerial hash) : Agrees hash h p where
  removed h₁ h₂ m kind names result split action hr :=
    run.serial_removed alive serial split action hr
  listed h₁ h₂ m capacity kind result split action hr :=
    run.serial_listed alive serial split action hr
  owned w worker hw kind name other := by
    rcases run.restricts_shard alive serial hw with ⟨h₁, _, _, part⟩
    rw [part kind name]
    exact if_neg fun same => other (beq_iff_eq.mp same)
  settled quiet w worker hw := run.settled alive serial quiet hw

end Agreement

/-- Two metrics go to two workers, who have not come to them when a deletion begins. A
    listing follows the deletion. -/
def serialOfTwo : List Action :=
  [.dispatch 1 ⟨"a", .empty, .counter 2⟩, .dispatch 0 ⟨"d", .empty, .counter 1⟩,
    .delete .counter ["a", "c", "a"] false] ++
  List.map Action.step
    [.submit 0, .submit 0, .submit 0, .take 0, .take 1, .take 1, .dropWork 1, .finish 1,
      .signal 1, .take 0, .dropWork 0, .finish 0, .signal 0, .conclude 0] ++
  [.list 1 .counter false] ++
  List.map Action.step
    [.submit 1, .submit 1, .submit 1, .take 0, .take 1, .dropWork 1, .finish 1, .dropWork 0,
      .handOver 0, .receive 1, .finish 0, .signal 1, .signal 0, .letGo 1, .conclude 1]

theorem serialOfTwo_agrees : ∃ h p, Run (start 2) h p ∧
    p.result? 0 = some (.ok (.removed 1)) ∧ p.result? 1 = some (.ok (.listing "d=1\n")) ∧
      Agrees Routing.hash h p := by
  have done : (Trace.perform? act? [] (start 2) serialOfTwo).map (fun r =>
      (r.2.result? 0, r.2.result? 1, r.2.workers.all Worker.isAlive, decide (∀ m ∈ r.1, Moment.IsSerial Routing.hash m))) =
      some (some (.ok (.removed 1)), some (.ok (.listing "d=1\n")), true, true) := by
    decide +kernel
  rcases Option.map_eq_some_iff.mp done with ⟨⟨h, p⟩, performed, facts⟩
  simp only [Prod.mk.injEq] at facts
  rcases facts with ⟨removed, listed, alive, serial⟩
  have run : Run (start 2) h p := Trace.of_perform? .start performed
  exact ⟨h, p, run, removed, listed,
    run.sharding_invisible (allAlive_of_all alive) (of_decide_eq_true serial)⟩

end Pool

end ShardConsole
