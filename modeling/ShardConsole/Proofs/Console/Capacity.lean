import ShardConsole.Console.Server
import ShardConsole.Proofs.Config.Loading
import ShardConsole.Proofs.Console.Conversations

/-!
# Room for Listings

With which configurations a listing can be executed at all.

A listing needs a channel, and a channel has a capacity that is neither zero nor too great. The
console asks for as much room as its configuration says. That it is not zero is seen to twice: a
configuration with an empty buffer is not valid, and the pool makes a channel of one place where
it is asked for none, which it never is. That it is not too great is not seen to at all, though
every number of 64 bits can be configured. So a valid configuration with too large a buffer gives
a server that runs well until the first listing, which breaks its session down.

## Main definitions

* `capacity`: How much room a console asks for.

## Theorems

* `Config.resultBuffer_of_load`: A configuration that is loaded has a buffer that is not empty.
* `CallChange.capacity_eq`: A channel keeps its capacity.
* `execute_eq_broken_iff`: Which commands break down.
* `Run.broken_iff`: A session has broken down if one of its listings has.
* `Run.breaks_iff_exceeds`: The listings of a server break down if its buffer is too large.
-/

namespace ShardConsole

namespace Config

variable {source : Source} {environment : String → Option (List UInt8)} {config : Config}

/-- A configuration that is loaded has a buffer that is not empty. -/
theorem resultBuffer_of_load (loaded : load source environment = .ok config) :
    1 ≤ config.resultBuffer.toNat := by
  rcases load_eq_ok_iff.mp loaded with ⟨_, _, _, valid⟩
  exact valid.resultBuffer

end Config

namespace Pool

section Capacities

variable {start p p' : Pool} {h : List Moment} {a : Action} {c : CallId} {call call' : Call}

theorem map_capacity {intake? : Option Intake} {change : Intake → Intake}
    (same : ∀ intake, (change intake).channel.capacity = intake.channel.capacity) :
    (intake?.map change).map (·.channel.capacity) = intake?.map (·.channel.capacity) := by
  cases intake? with
  | none => rfl
  | some intake => exact congrArg some (same intake)

theorem capacity_ite_release {channel : Channel} {condition : Bool} :
    (if condition then channel.release .work else channel).capacity = channel.capacity := by
  cases condition <;> rfl

/-- A channel keeps its capacity. -/
theorem CallChange.capacity_eq (change : CallChange p c call a call') :
    call'.intake?.map (·.channel.capacity) = call.intake?.map (·.channel.capacity) := by
  cases change with
  | stay | cancel | give | signal => rfl
  | drop | conclude | desist =>
      rw [Call.intake?_finishWith]
      exact map_capacity fun _ => rfl
  | refuse =>
      simp only [Call.refuse, Call.mapChannel, Call.intake?_mapIntake, Call.intake?_dropWork,
        Call.intake?_finishWith]
      refine (map_capacity ?_).trans ((map_capacity ?_).trans (map_capacity ?_))
      · exact fun _ => rfl
      · exact fun _ => capacity_ite_release
      · exact fun _ => rfl
  | await =>
      rw [Call.intake?_await]
      exact map_capacity fun _ => capacity_ite_release
  | run =>
      rw [Call.intake?_noteRun]
      exact map_capacity fun _ => rfl
  | lose =>
      rw [Call.intake?_lose]
      exact map_capacity fun _ => capacity_ite_release
  | dropWork =>
      rw [Call.intake?_dropWork]
      exact map_capacity fun _ => capacity_ite_release
  | push | finish | letGo | receive =>
      first
        | rw [Call.mapChannel, Call.intake?_mapIntake]
        | rw [Call.intake?_mapIntake]
      exact map_capacity fun _ => rfl

/-- The channel of a listing has the capacity that was asked for, but at least one. -/
theorem Run.capacity_of_begun {capacity : Nat} {kind : Kind} {cancelled : Bool}
    (run : Run start h p) (begun : Begun h c (.list capacity kind cancelled)) :
    ∃ call intake, p.calls[c]? = some call ∧ call.intake? = some intake ∧
      intake.channel.capacity = max capacity 1 := by
  induction run with
  | start => obtain ⟨_, hm, _⟩ := begun; cases hm
  | next run act ih =>
      have change := change_of_act? act
      rcases begun_snoc.mp begun with before | ⟨rfl, rfl, first, begins⟩
      · rcases ih before with ⟨call, intake, hc, hi, room⟩
        rcases change.callChange_of hc with ⟨call', hc', changed⟩
        have kept := changed.capacity_eq
        rw [hi, Option.map_some, Option.map_eq_some_iff] at kept
        rcases kept with ⟨intake', hi', same⟩
        exact ⟨call', intake', hc', hi', same.trans room⟩
      · have made := change.call_of_begins begins
        cases begins with
        | @list _ _ _ channel created =>
            refine ⟨_, Intake.start channel, made, rfl, ?_⟩
            rw [Channel.create?] at created
            split at created
            · cases created
              rfl
            · cases created

end Capacities

end Pool

namespace Console

open Session (results)

/-- How much room a console asks for when it makes a channel for a listing. -/
def capacity (c : Console) : Nat :=
  max c.resultBuffer 1

section Breaking

variable {start c c' : Console} {h : List Moment} {s : SessionId} {seat : Seat} {i : Nat}
  {command : Command} {cancelled : Bool} {execution : Execution}

theorem Run.resultBuffer_eq (run : Run start h c) : c.resultBuffer = start.resultBuffer := by
  induction run with
  | start => rfl
  | next run act ih => rw [(change_of_react? act).resultBuffer_eq, ih]

/-- A command breaks down if it is a listing for which there cannot be a channel. -/
theorem execute_eq_broken_iff : (c.execute command cancelled).2 = .broken ↔
    (∃ kind, command = .list kind) ∧ Channel.maxCapacity < c.resultBuffer := by
  constructor
  · intro broken
    rcases c.execute_cases command cancelled with
      ⟨result, execution⟩ | ⟨_, _, _, _, execution⟩ | ⟨_, exceeds⟩
    · rw [execution] at broken
      cases broken
    · rw [execution] at broken
      cases broken
    · cases command with
      | list kind => exact ⟨⟨kind, rfl⟩, exceeds⟩
      | _ => cases broken
  · rintro ⟨⟨kind, rfl⟩, exceeds⟩
    have none : Channel.create? (max c.resultBuffer 1) = none := by
      rw [Channel.create?, if_neg]
      omega
    simp only [execute, Pool.beginList?, none, Option.map_none]

/-- What comes of a command of a session does not depend on when it is begun: it breaks down if
    it is a listing and the buffer is too large. -/
theorem Run.begins_broken_iff (run : Run start h c) (begins : Begins h s i command execution) :
    execution = .broken ↔ (∃ kind, command = .list kind) ∧
      Channel.maxCapacity < start.resultBuffer := by
  rcases begins with @⟨h₁, h₂, m, seat, split, _, _, _, _, _, came⟩
  subst split
  rw [← came, execute_eq_broken_iff, Run.resultBuffer_eq run.split.1]

-- A session whose listing has broken down has broken down.
theorem Run.broken_of_begins (run : Run start h c) (hs : c.seats[s]? = some seat)
    (begins : Begins h s i command .broken) : seat.session.stage = .broken := by
  rcases begins with @⟨h₁, h₂, ⟨before, action⟩, first, split, _, begun, there, _, stage, came⟩
  cases begun
  rw [split] at run
  rcases run.after with ⟨q, act, later⟩
  cases change_of_react? act with
  | done hs' _ stage' execution | called hs' _ stage' _ _ execution =>
      cases there.symm.trans hs'
      cases stage.symm.trans stage'
      rw [execution] at came
      cases came
  | broken =>
      have after :
          (before.modifySession s fun session => { session with stage := .broken }).seats[s]? =
            some { first with session := { first.session with stage := .broken } } := by
        rw [getElem?_modifySession, if_pos rfl, there, Option.map_some]
      rcases Run.over_later later after rfl with ⟨seat', hs', same, _⟩
      cases hs.symm.trans hs'
      exact same

/-- A session has broken down if one of its listings has. -/
theorem Run.broken_iff (run : Run start h c) (fresh : start.IsFresh)
    (hs : c.seats[s]? = some seat) :
    seat.session.stage = .broken ↔ ∃ i kind, Begins h s i (.list kind) .broken := by
  constructor
  · refine Run.seat_induction (motive := fun h _ seat => seat.session.stage = .broken →
      ∃ i kind, Begins h s i (.list kind) .broken) ?_ ?_ run fresh hs
    · intro h c c' prompt maxLength idleLimit run _ absent broken
      cases broken
    · intro h c c' a earlier seat run change before changed ih broken
      have still (stage : earlier.session.stage = .broken) :
          ∃ i kind, Begins (h ++ [⟨c, a⟩]) s i (.list kind) .broken := by
        rcases ih stage with ⟨i, kind, begins⟩
        exact ⟨i, kind, begins.append⟩
      cases changed with
      | stay | sent | inputEnded | outletSet | hungUp | left | cancelled | shutDown =>
          exact still broken
      | step moved =>
          rcases (Session.change_of_step? moved).of_broken broken with no | already
          · cases no
          · exact still already
      | done | resumed => exact absurd broken Session.answer_ne_broken
      | called _ stage => cases stage.symm.trans broken
      | broken free stage execution exceeds =>
          rcases (execute_eq_broken_iff.mp execution).1 with ⟨kind, rfl⟩
          exact ⟨_, kind, .begin rfl rfl rfl before free stage execution⟩
  · rintro ⟨i, kind, begins⟩
    exact run.broken_of_begins hs begins

/-- In a server that was started with a configuration that was loaded, the channel of every listing
    has the configured capacity, which is not zero. A command of a session breaks down if it is
    a listing and that capacity is greater than any channel can have; no other command ever
    does. The session has then broken down for good, and it does not break down otherwise. -/
theorem Run.breaks_iff_exceeds {source : Config.Source}
    {environment : String → Option (List UInt8)} {config : Config}
    (loaded : Config.load source environment = .ok config)
    (run : Run (Server.start config).console h c) :
    1 ≤ config.resultBuffer.toNat ∧ c.capacity = config.resultBuffer.toNat ∧
    (∀ s i kind call, Begins h s i (.list kind) (.called call) → ∃ it intake,
      c.pool.calls[call]? = some it ∧ it.intake? = some intake ∧
      intake.channel.capacity = config.resultBuffer.toNat) ∧
    (∀ s i command execution, Begins h s i command execution → (execution = .broken ↔
      (∃ kind, command = .list kind) ∧ Channel.maxCapacity < config.resultBuffer.toNat)) ∧
    (∀ (s : SessionId) (seat : Seat), c.seats[s]? = some seat → (seat.session.stage = .broken ↔
      ∃ i kind, Begins h s i (.list kind) .broken)) := by
  have positive := Config.resultBuffer_of_load loaded
  have buffer : c.resultBuffer = config.resultBuffer.toNat := run.resultBuffer_eq
  refine ⟨positive, ?_, ?_, ?_, ?_⟩
  · rw [capacity, buffer]
    exact Nat.max_eq_left positive
  · intro s i kind call begins
    rcases begins.begun with ⟨m, hm, cancelled, request, asks, begun⟩
    cases asks
    rcases run.pool.capacity_of_begun begun with ⟨it, intake, hc, hi, room⟩
    refine ⟨it, intake, hc, hi, room.trans ?_⟩
    rcases List.append_of_mem hm with ⟨h₁, h₂, rfl⟩
    rw [Run.resultBuffer_eq run.split.1]
    exact Nat.max_eq_left positive
  · intro s i command execution begins
    exact run.begins_broken_iff begins
  · intro s seat hs
    exact run.broken_iff (isFresh_start _ _) hs

end Breaking

/-- An environment in which nothing is set but the size of the result buffer. -/
def bufferOf (size : String) (name : String) : Option (List UInt8) :=
  if name = Config.resultBufferVariable then some (Utf8.encode size) else none

/-- An operator lists the counters. -/
def firstListing : List Action :=
  [.opened "" 64 none, .sent 0 (Utf8.encode "counters\n"), .step (.session 0 .begin),
    .step (.session 0 .prompt), .step (.session 0 (.read 9)), .step (.session 0 .take),
    .step (.execute 0)]

/-- The largest buffer for which there are channels. -/
def largestBuffer : Config :=
  { Config.default with resultBuffer := 2305843009213693951 }

/-- The smallest buffer that is too large. -/
def excessiveBuffer : Config :=
  { Config.default with resultBuffer := 2305843009213693952 }

theorem largestBuffer_suffices : ∃ h c seat it intake,
    Config.load .absent (bufferOf "2305843009213693951") = .ok largestBuffer ∧
    Run (Server.start largestBuffer).console h c ∧ c.seats[0]? = some seat ∧
    c.pool.calls[0]? = some it ∧ it.intake? = some intake ∧
    intake.channel.capacity = 2305843009213693951 ∧ seat.session.stage ≠ .broken := by
  have loaded : Config.load .absent (bufferOf "2305843009213693951") = .ok largestBuffer := by
    decide +kernel
  have done : (Trace.perform? react? [] (Server.start largestBuffer).console firstListing).map
      (fun r => r.2.seats[0]?.map fun seat => (seat.call, seat.session.stage)) =
        some (some (some 0, .executing (.list .counter))) := by
    decide +kernel
  rcases Option.map_eq_some_iff.mp done with ⟨⟨h, c⟩, performed, facts⟩
  rcases Option.map_eq_some_iff.mp facts with ⟨seat, hs, facts⟩
  rw [Prod.mk.injEq] at facts
  have run : Run (Server.start largestBuffer).console h c := Trace.of_perform? .start performed
  rcases run.breaks_iff_exceeds loaded with ⟨_, _, room, _, _⟩
  rcases run.seated (isFresh_start _ _) hs facts.1 with ⟨command, executing, begins⟩
  cases facts.2.symm.trans executing
  rcases room _ _ _ _ begins with ⟨it, intake, hc, hi, capacity⟩
  refine ⟨h, c, seat, it, intake, loaded, run, hs, hc, hi, capacity, fun broken => ?_⟩
  cases facts.2.symm.trans broken

/-- A configuration that is loaded without complaint, with which the first listing of the first
    session breaks down. -/
theorem excessiveBuffer_breaks : ∃ h c seat i kind,
    Config.load .absent (bufferOf "2305843009213693952") = .ok excessiveBuffer ∧
    Run (Server.start excessiveBuffer).console h c ∧ c.seats[0]? = some seat ∧
    Begins h 0 i (.list kind) .broken ∧ seat.session.stage = .broken ∧
    Channel.create? c.capacity = none := by
  have loaded : Config.load .absent (bufferOf "2305843009213693952") = .ok excessiveBuffer := by
    decide +kernel
  have done : (Trace.perform? react? [] (Server.start excessiveBuffer).console firstListing).map
      (fun r => (r.2.seats[0]?.map fun seat => seat.session.stage, Channel.create? r.2.capacity)) =
        some (some .broken, none) := by
    decide +kernel
  rcases Option.map_eq_some_iff.mp done with ⟨⟨h, c⟩, performed, facts⟩
  rw [Prod.mk.injEq] at facts
  rcases Option.map_eq_some_iff.mp facts.1 with ⟨seat, hs, broken⟩
  have run : Run (Server.start excessiveBuffer).console h c := Trace.of_perform? .start performed
  rcases (run.broken_iff (isFresh_start _ _) hs).mp broken with ⟨i, kind, begins⟩
  exact ⟨h, c, seat, i, kind, loaded, run, hs, begins, broken, facts.2⟩

end Console

end ShardConsole
