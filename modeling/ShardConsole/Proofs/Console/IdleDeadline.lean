import ShardConsole.Proofs.Console.Conversations
import ShardConsole.Proofs.Console.Waiting

/-!
# The Idle Deadline

When a session gives up waiting for a line.

Time passes in a console as it likes, and nothing in a run makes a session act in time. What is said
here is about schedules on which it does: time does not pass while a session that waits could read
or take something, nor beyond its deadline. This is what a timer does that looks for input before it
looks at the clock, and that goes off when it has been told to. While a session writes, or while its
command is being executed, any amount of time may pass.

On such a schedule a session gives up at a time exactly if a wait began one limit earlier and what
has come by then, behind the lines that had been taken when the wait began, is less than a line. The
session itself does not occur in this condition; it is about what has been sent. Two facts about all
moments of a run carry the proof. A session that waits has not been waiting for longer than its
limit, so it gives up at its deadline and not later. And a session that has waited for any time at
all had nothing to take when it began to.

## Main definitions

* `Console.GivesUpAt`, `Console.GivesUp`: A session ends because it has waited for too long.
* `Console.Punctual`: A session that waits acts in time.
* `Console.InputFirst`: Input comes before the deadline of the same instant.
* `Console.upTo`: The part of a history up to a time.
* `Console.OnTime`: How long a session has waited.

## Theorems

* `Console.Run.givesUpAt_iff`: A session gives up by a step of its own.
* `Console.Run.onTime`: No session waits beyond its deadline.
* `Console.Run.givesUp_of_lacks`: A session that lacks a line for its limit gives up.
* `Console.Run.lacks_of_givesUp`: A session that gives up has lacked a line for its limit.
* `Console.Run.idle_deadline`: When a session gives up.
-/

namespace ShardConsole

namespace Session

instance (s : Session) : Decidable s.Waits :=
  match stage : s.stage with
  | .awaiting since => isTrue ⟨since, stage⟩
  | .ready | .prompting | .writing _ _ | .executing _ | .ended _ | .broken =>
    isFalse fun ⟨since, waits⟩ => by cases stage.symm.trans waits

/-- A session takes no more steps by itself at a time. -/
def IsStuck (s : Session) (now : Nat) : Prop :=
  ∀ step, s.step? now step = none

end Session

namespace Console

open Session (Lacks BeginsToWait WaitsSince taken results ending?)

/-- Whether an action brings input to a session or ends it. -/
def Action.feeds (s : SessionId) : Action → Bool
  | .sent t _ | .inputEnded t | .hungUp t _ => t == s
  | _ => false

/-- How much time passes at an action. -/
def Action.elapsed : Action → Nat
  | .passed ms => ms
  | _ => 0

/-- At a moment a session ends because it has waited for too long. -/
def GivesUpAt (s : SessionId) (m : Moment) : Prop :=
  ∃ seat ∈ m.before.seats[s]?, seat.session.isOver = false ∧
    ∃ next ∈ m.before.react? m.action, ∃ seat' ∈ next.seats[s]?,
      seat'.session.stage = .ended (.error .deadlineExceeded)

/-- At a time of a history a session ends because it has waited for too long. -/
def GivesUp (s : SessionId) (h : List Moment) (t : Nat) : Prop :=
  ∃ m ∈ h, m.before.now = t ∧ GivesUpAt s m

/-- Time only passes for a session that waits if it has nothing to read and nothing to take, and it
    does not pass beyond its deadline. -/
def Punctual (s : SessionId) (h : List Moment) : Prop :=
  ∀ m ∈ h, 0 < m.action.elapsed → ∀ seat ∈ m.before.seats[s]?, seat.session.Waits →
    seat.session.inbox = [] ∧ seat.session.arrival? = none ∧
      ∀ deadline ∈ seat.session.deadline?, m.before.now + m.action.elapsed ≤ deadline

/-- The input of an instant comes before a session gives up in this instant. -/
def InputFirst (s : SessionId) (h : List Moment) : Prop :=
  h.Pairwise fun m m' => GivesUpAt s m → m'.before.now = m.before.now → m'.action.feeds s = false

instance (s : SessionId) (m : Moment) : Decidable (GivesUpAt s m) :=
  inferInstanceAs (Decidable (∃ seat ∈ m.before.seats[s]?, _ ∧ _))

instance (s : SessionId) (h : List Moment) (t : Nat) : Decidable (GivesUp s h t) :=
  inferInstanceAs (Decidable (∃ m ∈ h, _ ∧ _))

instance (s : SessionId) (h : List Moment) : Decidable (Punctual s h) :=
  inferInstanceAs (Decidable (∀ m ∈ h, _ → _))

instance (s : SessionId) (h : List Moment) : Decidable (InputFirst s h) :=
  inferInstanceAs (Decidable (h.Pairwise _))

/-- The part of a history up to a time, with everything that happens at that time. -/
def upTo (t : Nat) (h : List Moment) : List Moment :=
  h.takeWhile fun m => m.before.now ≤ t

/-- A session that waits since a time has not been waiting for longer than its limit, and if it has
    been waiting for any time, it had nothing to take when it began to. -/
structure OnTime (s : SessionId) (h : List Moment) (c : Console) (session : Session)
    (since : Nat) : Prop where
  begun : since ≤ c.now
  within : ∀ limit, session.idleLimit = some limit → c.now ≤ since + limit
  empty : since < c.now → ∃ g m, WaitsSince (history s h) g m since ∧
    Lacks session.framer.maxLength (taken g) (g ++ [m])

section Clock

variable {start c c' : Console} {h h₁ h₂ : List Moment} {m : Moment} {a : Action} {t : Nat}

theorem Change.now_eq (change : Change c a c') : c'.now = c.now + a.elapsed := by
  cases change with
  | @cancelled s => exact (@foldl_cancel_same c [s]).2.2
  | shutDown => exact (foldl_cancel_same _).2.2
  | _ => rfl

theorem Run.now_le (run : Run start h c) : start.now ≤ c.now := by
  induction run with
  | start => exact Nat.le_refl _
  | next run act ih => exact ih.trans ((change_of_react? act).now_eq ▸ Nat.le_add_right _ _)

-- What comes earlier in a history comes at no later time.
theorem Run.now_le_of_mem (run : Run start (h₁ ++ m :: h₂) c) {m' : Moment} (mem : m' ∈ h₁) :
    m'.before.now ≤ m.before.now := by
  rcases run.split with ⟨before, _⟩
  rcases List.append_of_mem mem with ⟨k₁, k₂, rfl⟩
  have later : Run m'.before (m' :: k₂) m.before := Trace.onward before
  exact later.now_le

theorem Run.upTo_eq (run : Run start (h₁ ++ m :: h₂) c) (early : m.before.now ≤ t) :
    upTo t (h₁ ++ m :: h₂) = h₁ ++ m :: upTo t h₂ := by
  have all : ∀ m' ∈ h₁, decide (m'.before.now ≤ t) = true := fun m' mem =>
    decide_eq_true ((run.now_le_of_mem mem).trans early)
  rw [upTo, List.takeWhile_append_of_pos all, List.takeWhile_cons, if_pos (decide_eq_true early)]
  rfl

theorem now_le_of_mem_upTo (mem : m ∈ upTo t h) : m.before.now ≤ t :=
  of_decide_eq_true (List.all_eq_true.mp List.all_takeWhile m mem)

/-- A run goes through the end of an instant, unless it has not come to that yet. -/
theorem Run.through_instant (run : Run start h c) (t : Nat) : ∃ c₁ rest, h = upTo t h ++ rest ∧
    Run start (upTo t h) c₁ ∧ Run c₁ rest c ∧ (c₁ = c ∨ t < c₁.now) := by
  have whole : upTo t h ++ h.dropWhile (fun m => m.before.now ≤ t) = h :=
    List.takeWhile_append_dropWhile
  cases rest : h.dropWhile fun m => m.before.now ≤ t with
  | nil =>
      rw [rest, List.append_nil] at whole
      exact ⟨c, [], by rw [whole, List.append_nil], whole.symm ▸ run, .start, .inl rfl⟩
  | cons m later =>
      have late := List.head?_dropWhile_not (fun m : Moment => decide (m.before.now ≤ t)) h
      rw [rest] at whole late
      rw [← whole] at run
      refine ⟨m.before, m :: later, whole.symm, run.split.1, run.onward, .inr ?_⟩
      exact Nat.lt_of_not_le (of_decide_eq_false late)

end Clock

section Events

variable {c : Console} {s : SessionId} {seat : Seat} {a : Action} {e : Session.Event}

-- What a session hears is its own step, its input, or the result of its command, or it is told
-- of its outlet or cancelled.
theorem heard_cases (mem : e ∈ c.heard s seat a) :
    (∃ step, a = .step (.session s step) ∧ e = .step c.now step) ∨
      (a.feeds s = true ∧ e.isInput = true) ∨ (∃ result, e = .answered c.now result) ∨
        e = .brokeDown ∨ (∃ outlet, e = .outletSet outlet) ∨ e = .cancelled := by
  have bytes {bytes : List UInt8} (mem : e ∈ heardOfBytes seat bytes) : e.isInput = true := by
    rw [heardOfBytes] at mem
    split at mem
    · cases List.mem_singleton.mp mem
      rfl
    · cases mem
  cases a with
  | step step =>
      cases step with
      | pool => cases mem
      | session t step =>
          rcases List.mem_ite_nil_right.mp mem with ⟨rfl, there⟩
          exact .inl ⟨step, rfl, List.mem_singleton.mp there⟩
      | execute t =>
          rcases List.mem_ite_nil_right.mp mem with ⟨_, mem⟩
          rw [heardOfExecution] at mem
          split at mem
          · split at mem
            · exact .inr (.inr (.inl ⟨_, List.mem_singleton.mp mem⟩))
            · cases mem
            · exact .inr (.inr (.inr (.inl (List.mem_singleton.mp mem))))
          · cases mem
      | resume t =>
          rcases List.mem_ite_nil_right.mp mem with ⟨_, mem⟩
          rw [heardOfResult] at mem
          split at mem
          · exact .inr (.inr (.inl ⟨_, List.mem_singleton.mp mem⟩))
          · cases mem
  | sent t =>
      rcases List.mem_ite_nil_right.mp mem with ⟨rfl, there⟩
      exact .inr (.inl ⟨beq_self_eq_true t, bytes there⟩)
  | inputEnded t =>
      rcases List.mem_ite_nil_right.mp mem with ⟨rfl, there⟩
      cases List.mem_singleton.mp there
      exact .inr (.inl ⟨beq_self_eq_true t, rfl⟩)
  | hungUp t =>
      rcases List.mem_ite_nil_right.mp mem with ⟨rfl, there⟩
      refine .inr (.inl ⟨beq_self_eq_true t, ?_⟩)
      rcases List.mem_append.mp there with early | last
      · exact bytes early
      · cases List.mem_singleton.mp last
        rfl
  | cancelled t =>
      rcases List.mem_ite_nil_right.mp mem with ⟨_, mem⟩
      exact .inr (.inr (.inr (.inr (.inr (List.mem_singleton.mp mem)))))
  | outletSet t outlet =>
      rcases List.mem_ite_nil_right.mp mem with ⟨_, mem⟩
      exact .inr (.inr (.inr (.inr (.inl ⟨outlet, List.mem_singleton.mp mem⟩))))
  | shutDown => exact .inr (.inr (.inr (.inr (.inr (List.mem_singleton.mp mem)))))
  | pool | opened | reported | passed => cases mem

/-- A session only takes a step when it is its turn, at the time of the console. -/
theorem step_of_mem_heard {now : Nat} {step : Session.Step}
    (mem : .step now step ∈ c.heard s seat a) : a = .step (.session s step) ∧ now = c.now := by
  rcases heard_cases mem with
    ⟨step, action, same⟩ | ⟨_, input⟩ | ⟨_, same⟩ | same | ⟨_, same⟩ | same
  · cases same
    exact ⟨action, rfl⟩
  · cases input
  · cases same
  · cases same
  · cases same
  · cases same

/-- A session hears of no input but what is meant for it. -/
theorem isInput_of_mem_heard (quiet : a.feeds s = false) (mem : e ∈ c.heard s seat a) :
    e.isInput = false := by
  rcases heard_cases mem with ⟨step, _, rfl⟩ | ⟨feeds, _⟩ | ⟨_, rfl⟩ | rfl | ⟨_, rfl⟩ | rfl
  · rfl
  · cases quiet.symm.trans feeds
  · rfl
  · rfl
  · rfl
  · rfl

end Events

section Ends

variable {start c c' : Console} {h h₁ h₂ : List Moment} {m : Moment} {s : SessionId} {seat : Seat}

-- What happens to a session it hears of at a moment of the console.
theorem heard_of_mem_historyAt {m' : Session.Moment} (mem : m' ∈ historyAt s m) :
    ∃ seat, m.before.seats[s]? = some seat ∧ m'.action ∈ m.before.heard s seat m.action := by
  rw [historyAt] at mem
  split at mem
  · rename_i seat hs
    exact ⟨seat, hs, action_of_mem_through mem⟩
  · cases mem

theorem isInput_of_mem_history {m' : Session.Moment} (quiet : ∀ m ∈ h, m.action.feeds s = false)
    (mem : m' ∈ history s h) : m'.action.isInput = false := by
  rcases List.mem_flatMap.mp mem with ⟨m, mem, there⟩
  rcases heard_of_mem_historyAt there with ⟨seat, _, heard⟩
  exact isInput_of_mem_heard (quiet m mem) heard

-- No result of a session says that it has waited for too long.
theorem Run.ending?_ne_idle (run : Run start h c) (fresh : start.IsFresh)
    (hs : c.seats[s]? = some seat)
    (idle : seat.session.stage = .ended (.error .deadlineExceeded)) {result : Except Error String}
    (mem : result ∈ results (history s h)) : ending? result ≠ some .deadlineExceeded := by
  intro ends
  rcases run.session fresh hs with ⟨prompt, maxLength, idleLimit, cancelled, so⟩
  have stands := so.stands
  rw [Session.Stands, idle] at stands
  cases stands with
  | result closed =>
      rcases run.cause_of_closed fresh hs closed with ⟨_, _, _, ⟨none, _⟩ | ⟨_, none⟩⟩ <;>
        cases none
  | idle level => cases (Session.ending?_of_going level.going mem).symm.trans ends

/-- A session gives up by a step of its own. -/
theorem Run.givesUpAt_iff (run : Run start (h₁ ++ m :: h₂) c) (fresh : start.IsFresh) :
    GivesUpAt s m ↔ m.action = .step (.session s .expire) := by
  rcases run.split with ⟨before, next, act, after⟩
  constructor
  · rintro ⟨seat, hs, going, next', act', seat', hs', idle⟩
    cases act.symm.trans (Option.mem_def.mp act')
    rw [Option.mem_def] at hs hs'
    rcases (change_of_react? act).seatChange hs with ⟨now, hn, changed⟩
    cases hs'.symm.trans hn
    rcases Session.Run.expired changed.run idle with
      past | ⟨m', mem, now, gaveUp⟩ | ⟨result, mem, ends⟩
    · rw [Session.isOver, past] at going
      cases going
    · have heard := action_of_mem_through mem
      rw [gaveUp] at heard
      exact (step_of_mem_heard heard).1
    · refine absurd ends (Run.ending?_ne_idle after fresh hs' idle ?_)
      rw [history_snoc, Session.results_append, historyAt, hs]
      exact List.mem_append_right _ mem
  · intro gaveUp
    rcases m with ⟨c, a⟩
    cases gaveUp
    cases change_of_react? act with
    | @session _ seat _ session hs moved =>
        have change := Session.change_of_step? moved
        have there : (c.modifySession s fun _ => session).seats[s]? =
            some { seat with session := session } := by
          rw [getElem?_modifySession, if_pos rfl, hs, Option.map_some]
        refine ⟨seat, hs, ?_, _, act, _, there, ?_⟩
        · cases change with
          | expire stage => rw [Session.isOver, stage]
        · cases change with
          | expire => rfl

/-- A session that gives up has waited for its limit, and has nothing to read and nothing to
    take. -/
theorem Run.of_givesUpAt (run : Run start (h₁ ++ m :: h₂) c) (fresh : start.IsFresh)
    (gaveUp : GivesUpAt s m) : ∃ seat since limit, m.before.seats[s]? = some seat ∧
      seat.session.stage = .awaiting since ∧ seat.session.idleLimit = some limit ∧
      since + limit ≤ m.before.now ∧ seat.session.inbox = [] ∧ seat.session.arrival? = none := by
  have action := (run.givesUpAt_iff fresh).mp gaveUp
  rcases run.split with ⟨_, next, act, _⟩
  rw [action] at act
  cases change_of_react? act with
  | @session _ seat _ session hs moved =>
      cases Session.change_of_step? moved with
      | expire stage limited passed inbox nothing =>
          exact ⟨seat, _, _, hs, stage, limited, passed, inbox, nothing⟩

/-- A session has ended because it has waited for too long exactly if it has given up. -/
theorem Run.idle_iff (run : Run start h c) (fresh : start.IsFresh) (hs : c.seats[s]? = some seat) :
    seat.session.stage = .ended (.error .deadlineExceeded) ↔ ∃ t, GivesUp s h t := by
  constructor
  · intro idle
    induction run generalizing seat with
    | start => simp [fresh.seats] at hs
    | @next h c c' a run act ih =>
        cases before : c.seats[s]? with
        | none =>
            rcases (change_of_react? act).seat_of_new before hs with ⟨_, _, _, _, _, rfl⟩
            cases idle
        | some earlier =>
            rcases (change_of_react? act).seatChange before with ⟨now, hn, changed⟩
            cases hs.symm.trans hn
            by_cases past : earlier.session.isOver = true
            · rw [(Session.Run.stays_of_isOver changed.run past).1] at idle
              rcases ih before idle with ⟨t, m, mem, at_t, gaveUp⟩
              exact ⟨t, m, List.mem_append_left _ mem, at_t, gaveUp⟩
            · refine ⟨c.now, _, List.mem_append_right _ List.mem_cons_self, rfl, ?_⟩
              exact ⟨earlier, before, by simpa using past, c', act, seat, hs, idle⟩
  · rintro ⟨t, m, mem, _, seat₁, _, _, next, act, seat₂, hs₂, idle⟩
    rw [Option.mem_def] at act
    rcases List.append_of_mem mem with ⟨h₁, h₂, rfl⟩
    rcases Trace.after run with ⟨next', act', later⟩
    cases act.symm.trans act'
    have past : seat₂.session.isOver = true := by rw [Session.isOver, idle]
    rcases Run.over_later later hs₂ past with ⟨_, hs', stage, _⟩
    cases hs.symm.trans hs'
    exact stage.trans idle

end Ends

section Deadlines

variable {start c c' : Console} {h h₁ h₂ : List Moment} {m : Moment} {s : SessionId} {seat : Seat}

/-- No session waits beyond its deadline, and one that has been waiting for any time had nothing to
    take when it began to. -/
theorem Run.onTime {since : Nat} (run : Run start h c) (fresh : start.IsFresh)
    (hs : c.seats[s]? = some seat) (punctual : Punctual s h)
    (waits : seat.session.stage = .awaiting since) : OnTime s h c seat.session since := by
  refine Run.seat_induction (motive := fun h c seat => Punctual s h →
    ∀ since, seat.session.stage = .awaiting since → OnTime s h c seat.session since) ?_ ?_ run fresh
    hs punctual since waits
  · intro h c c' prompt maxLength idleLimit run _ absent _ since waits
    cases waits
  · intro h c c' a earlier seat run change before changed ih punctual since waits
    have ih := ih fun m mem => punctual m (List.mem_append_left _ mem)
    rcases run.session fresh before with ⟨prompt, maxLength, idleLimit, cancelled, so⟩
    have here : history s (h ++ [⟨c, a⟩]) =
        history s h ++ earlier.session.through (c.heard s earlier a) := by
      rw [history_snoc, historyAt, before]
    have limits : seat.session.idleLimit = earlier.session.idleLimit := changed.run.idleLimit_eq
    have later : Session.Run (.start prompt maxLength idleLimit cancelled)
        (history s (h ++ [⟨c, a⟩])) seat.session := by
      rw [here]
      exact so.trans changed.run
    have lengths : seat.session.framer.maxLength = maxLength := later.maxLength_eq
    -- Whatever the session does at this moment it does at this time.
    have now_eq {m : Session.Moment} {now : Nat} {step : Session.Step}
        (mem : m ∈ earlier.session.through (c.heard s earlier a))
        (own : m.action = .step now step) : now = c.now := by
      have heard := action_of_mem_through mem
      rw [own] at heard
      exact (step_of_mem_heard heard).2
    have clock := change.now_eq
    rcases Nat.eq_zero_or_pos a.elapsed with none | pos
    · have same : c'.now = c.now := by omega
      by_cases begins : since = c.now
      · exact ⟨by omega, fun _ _ => by omega, fun _ => by omega⟩
      · rcases Session.Run.still_waits changed.run waits
          (fun m mem step own => begins (now_eq mem own)) with ⟨waited, none, all⟩
        have onTime := ih since waited
        refine ⟨same ▸ onTime.begun, fun limit limited => ?_, fun _ => ?_⟩
        · rw [same]
          exact onTime.within limit (limits ▸ limited)
        · rcases onTime.empty (Nat.lt_of_le_of_ne onTime.begun begins) with ⟨g, m, waits, lacks⟩
          rw [so.maxLength_eq] at lacks
          rw [here, lengths]
          exact ⟨g, m, waits.append none all, lacks⟩
    · -- Time passes, and the session stays as it is.
      have stays : seat = earlier := by
        cases changed with
        | stay => rfl
        | _ => cases pos
      subst stays
      have onTime := ih since waits
      rcases punctual _ (List.mem_append_right _ List.mem_cons_self) pos seat before
        ⟨since, waits⟩ with ⟨inbox, nothing, due⟩
      refine ⟨?_, fun limit limited => ?_, fun _ => ?_⟩
      · rw [clock]
        exact onTime.begun.trans (Nat.le_add_right _ _)
      · rw [clock]
        exact due _ (by simp [Session.deadline?, waits, limited])
      · rcases later.waited waits with ⟨g, m, waited⟩
        have lacks := later.lacks inbox nothing
        rw [waited.lines] at lacks
        rw [lengths]
        exact ⟨g, m, waited, waited.lacks later lacks⟩

/-- A session that gives up has lacked a line for its limit, and has waited all the time. -/
theorem Run.lacks_of_givesUp (run : Run start (h₁ ++ m :: h₂) c) (fresh : start.IsFresh)
    (hs : c.seats[s]? = some seat) {limit : Nat} (limited : seat.session.idleLimit = some limit)
    (punctual : Punctual s (h₁ ++ m :: h₂)) (gaveUp : GivesUpAt s m) :
    ∃ g m' now, WaitsSince (history s h₁) g m' now ∧ m.before.now = now + limit ∧
      Lacks seat.session.framer.maxLength (taken g) (history s h₁) := by
  rcases run.split with ⟨before, _⟩
  rcases run.of_givesUpAt fresh gaveUp with
    ⟨seat₁, since, limit', hs₁, waits, limited', passed, inbox, nothing⟩
  rcases Run.session before fresh hs₁ with ⟨prompt, maxLength, idleLimit, cancelled, so⟩
  rcases Run.session_later run.onward hs₁ with ⟨seat₂, hs₂, later⟩
  cases hs.symm.trans hs₂
  have limits := later.idleLimit_eq
  rw [limited, limited'] at limits
  cases limits
  -- It cannot have been waiting for longer than that.
  have onTime := Run.onTime before fresh hs₁ (fun m mem => punctual m (List.mem_append_left _ mem))
    waits
  have within := onTime.within limit limited'
  rcases so.waited waits with ⟨g, m', waited⟩
  have lacks := so.lacks inbox nothing
  rw [waited.lines] at lacks
  rw [Session.Run.maxLength_eq (so.trans later)]
  exact ⟨g, m', since, waited, by omega, lacks⟩

-- When a session has given up, it gets no more input in this instant.
theorem Run.quiet (run : Run start (h₁ ++ m :: h₂) c) (fresh : start.IsFresh)
    (inputFirst : InputFirst s (h₁ ++ m :: h₂)) (gaveUp : GivesUpAt s m) {m' : Moment}
    (mem : m' ∈ m :: upTo m.before.now h₂) : m'.action.feeds s = false := by
  rcases List.mem_cons.mp mem with rfl | mem
  · rw [(run.givesUpAt_iff fresh).mp gaveUp]
    rfl
  · have there : m' ∈ h₂ := List.takeWhile_subset _ mem
    have early := now_le_of_mem_upTo mem
    have first := (List.pairwise_cons.mp (List.pairwise_append.mp inputFirst).2.1).1 m' there gaveUp
    have late : m.before.now ≤ m'.before.now := by
      rcases List.append_of_mem there with ⟨k₁, k₂, rfl⟩
      rw [← List.cons_append, ← List.append_assoc] at run
      exact run.now_le_of_mem (List.mem_append_right _ List.mem_cons_self)
    exact first (Nat.le_antisymm early late)

-- A session at the end of an instant, or where the run ends before that.
theorem Run.session_at_instant (run : Run start h c) (fresh : start.IsFresh)
    (hs : c.seats[s]? = some seat) (t : Nat) (heard : history s (upTo t h) ≠ []) :
    ∃ c₁ seat₁ prompt idleLimit cancelled, Run start (upTo t h) c₁ ∧
      c₁.seats[s]? = some seat₁ ∧
      Session.Run (.start prompt seat.session.framer.maxLength idleLimit cancelled)
        (history s (upTo t h)) seat₁.session ∧
      seat.session.idleLimit = seat₁.session.idleLimit ∧
      (seat.session.cancelled = false → seat₁.session.cancelled = false) ∧
      (c₁ = c ∨ t < c₁.now) := by
  rcases run.through_instant t with ⟨c₁, rest, _, first, later, past⟩
  cases hs₁ : c₁.seats[s]? with
  | none => exact absurd (Run.history_eq_nil first hs₁) heard
  | some seat₁ =>
      rcases Run.session first fresh hs₁ with ⟨prompt, maxLength, idleLimit, cancelled, so⟩
      rcases Run.session_later later hs₁ with ⟨seat₂, hs₂, onward⟩
      cases hs.symm.trans hs₂
      refine ⟨c₁, seat₁, prompt, idleLimit, cancelled, first, hs₁, ?_, onward.idleLimit_eq,
        fun calm => ?_, past⟩
      · rw [Session.Run.maxLength_eq (so.trans onward)]
        exact so
      · by_contra flag
        rw [onward.cancelled_iff.mpr (.inl (by simpa using flag))] at calm
        cases calm

-- A session that still waits when its instant is over would wait beyond its deadline, or be stuck
-- in spite of it.
theorem Run.not_awaiting_of_over {c₁ : Console} {seat₁ : Seat} {since limit : Nat}
    (first : Run start h₁ c₁) (fresh : start.IsFresh) (hs₁ : c₁.seats[s]? = some seat₁)
    (limited : seat₁.session.idleLimit = some limit) (punctual : Punctual s h₁)
    (settled : since + limit < c₁.now ∨ since + limit = c₁.now ∧ seat₁.session.IsStuck c₁.now) :
    seat₁.session.stage ≠ .awaiting since := by
  intro waits
  have within := (Run.onTime first fresh hs₁ punctual waits).within limit limited
  rcases settled with settled | ⟨due, stuck⟩
  · omega
  · rcases Session.exists_step_of_due waits limited (Nat.le_of_eq due) with ⟨step, possible⟩
    exact possible (stuck step)

-- A session that gives up in its history has given up in the history of the console.
theorem Run.givesUp_of_mem (run : Run start h c) (fresh : start.IsFresh) {e : Session.Moment}
    {now t : Nat} (mem : e ∈ history s (upTo t h)) (gaveUp : e.action = .step now .expire)
    (due : t ≤ now) : GivesUp s h t := by
  rcases List.mem_flatMap.mp mem with ⟨last, inTime, there⟩
  rcases heard_of_mem_historyAt there with ⟨_, _, heard⟩
  rw [gaveUp] at heard
  rcases step_of_mem_heard heard with ⟨action, rfl⟩
  have member : last ∈ h := List.takeWhile_subset _ inTime
  refine ⟨last, member, Nat.le_antisymm (now_le_of_mem_upTo inTime) due, ?_⟩
  rcases List.append_of_mem member with ⟨k₁, k₂, rfl⟩
  exact (run.givesUpAt_iff fresh).mpr action

/-- A session that lacks a line for its limit gives up, when that instant is over. -/
theorem Run.givesUp_of_lacks {g g' : List Session.Moment} {m : Session.Moment} {now limit : Nat}
    (run : Run start h c) (fresh : start.IsFresh) (hs : c.seats[s]? = some seat)
    (limited : seat.session.idleLimit = some limit) (punctual : Punctual s h)
    (calm : seat.session.cancelled = false) (split : history s h = g ++ m :: g')
    (begins : BeginsToWait m now)
    (settled : now + limit < c.now ∨ now + limit = c.now ∧ seat.session.IsStuck c.now)
    (lacks : Lacks seat.session.framer.maxLength (taken g) (history s (upTo (now + limit) h))) :
    GivesUp s h (now + limit) := by
  -- The wait has begun in the part of the history up to the deadline.
  have begun : ∃ g₁, history s (upTo (now + limit) h) = g ++ m :: g₁ := by
    rcases history_split split with ⟨h₁, moment, h₂, a, b, rfl, here, rfl⟩
    rcases heard_of_mem_historyAt (here ▸ List.mem_append_right a List.mem_cons_self) with
      ⟨_, _, heard⟩
    rcases begins.own with ⟨step, own⟩
    rw [own] at heard
    have clock := (step_of_mem_heard heard).2
    refine ⟨b ++ history s (upTo (now + limit) h₂), ?_⟩
    rw [run.upTo_eq (clock ▸ Nat.le_add_right _ _), history_append, history, history,
      List.flatMap_cons, here]
    simp [history]
  rcases begun with ⟨g₁, begun⟩
  rcases run.session_at_instant fresh hs (now + limit) (by simp [begun]) with
    ⟨c₁, seat₁, prompt, idleLimit, cancelled, first, hs₁, so, same, still, past⟩
  have limited₁ := same.symm.trans limited
  have going := so.going_of_forall lacks.going
  rcases lacks.unfinished with ⟨part, sent, plain, fits⟩
  rw [begun] at so sent
  rcases so.waits_or_expires begins ((List.append_nil _).trans sent) plain fits going
    (still calm) with ⟨waits, _⟩ | ⟨e, mem, later, limit', gaveUp, limited', passed⟩
  · have punctual₁ : Punctual s (upTo (now + limit) h) := fun m mem =>
      punctual m (List.takeWhile_subset _ mem)
    refine absurd waits (Run.not_awaiting_of_over first fresh hs₁ limited₁ punctual₁ ?_)
    rcases past with rfl | past
    · cases hs.symm.trans hs₁
      exact settled
    · exact .inl past
  · cases limited₁.symm.trans limited'
    refine run.givesUp_of_mem fresh ?_ gaveUp passed
    rw [begun]
    exact List.mem_append_right _ (List.mem_cons_of_mem _ mem)

/-- When a session gives up waiting for a line, on every schedule on which it acts in time and
    input comes before the deadline of the same instant.

    It gives up at a time exactly if some wait began one limit earlier and what has come by then,
    behind the lines that had been taken when the wait began, is less than a line. It has waited
    all the time then, so the time that a command takes does not count. A session that waits has a
    deadline one limit after it began to, whatever has come since, and is never found waiting beyond
    it; and if any time has passed since it began to wait, it had nothing to take then, so lines
    that are there are taken without any deadline. No session ends in this way for another
    reason. -/
theorem Run.idle_deadline (run : Run start h c) (fresh : start.IsFresh)
    (hs : c.seats[s]? = some seat) {limit : Nat} (limited : seat.session.idleLimit = some limit)
    (punctual : Punctual s h) (inputFirst : InputFirst s h)
    (calm : seat.session.cancelled = false) :
    (∀ t, t < c.now ∨ t = c.now ∧ seat.session.IsStuck c.now → (GivesUp s h t ↔
      ∃ g m g' now, history s h = g ++ m :: g' ∧ BeginsToWait m now ∧ t = now + limit ∧
        Lacks seat.session.framer.maxLength (taken g) (history s (upTo t h)))) ∧
    (∀ h₁ m h₂, h = h₁ ++ m :: h₂ → GivesUpAt s m → ∃ g m' now,
      WaitsSince (history s h₁) g m' now ∧ m.before.now = now + limit) ∧
    (∀ since, seat.session.stage = .awaiting since →
      seat.session.deadline? = some (since + limit) ∧ c.now ≤ since + limit ∧
        ∃ g m, WaitsSince (history s h) g m since ∧ (since < c.now →
          Lacks seat.session.framer.maxLength (taken g) (g ++ [m]))) ∧
    (seat.session.stage = .ended (.error .deadlineExceeded) ↔ ∃ t, GivesUp s h t) := by
  refine ⟨fun t settled => ⟨?_, ?_⟩, ?_, ?_, run.idle_iff fresh hs⟩
  · rintro ⟨m, mem, rfl, gaveUp⟩
    rcases List.append_of_mem mem with ⟨h₁, h₂, rfl⟩
    rcases run.lacks_of_givesUp fresh hs limited punctual gaveUp with
      ⟨g, m', now, waited, due, lacks⟩
    rcases waited.whole with ⟨rest, whole, _⟩
    refine ⟨g, m', rest ++ history s (m :: h₂), now, ?_, waited.begins, due, ?_⟩
    · rw [history_append, whole, List.append_assoc, List.cons_append]
    · rw [run.upTo_eq (Nat.le_refl _), history_append]
      exact lacks.append fun e mem =>
        isInput_of_mem_history (fun m' => run.quiet fresh inputFirst gaveUp) mem
  · rintro ⟨g, m, g', now, split, begins, rfl, lacks⟩
    exact run.givesUp_of_lacks fresh hs limited punctual calm split begins settled lacks
  · rintro h₁ m h₂ rfl gaveUp
    rcases run.lacks_of_givesUp fresh hs limited punctual gaveUp with ⟨g, m', now, waited, due, _⟩
    exact ⟨g, m', now, waited, due⟩
  · intro since waits
    have onTime := run.onTime fresh hs punctual waits
    refine ⟨by simp [Session.deadline?, waits, limited], onTime.within limit limited, ?_⟩
    by_cases early : since < c.now
    · rcases onTime.empty early with ⟨g, m, waited, lacks⟩
      exact ⟨g, m, waited, fun _ => lacks⟩
    · rcases run.session fresh hs with ⟨prompt, maxLength, idleLimit, cancelled, so⟩
      rcases so.waited waits with ⟨g, m, waited⟩
      exact ⟨g, m, waited, fun later => absurd later early⟩

end Deadlines

/-- An operator sends a command in two pieces, the second one just in time, and with it the next
    command and the beginning of a third one. The first command takes five seconds. Then there comes
    a little more of the third one, but no newline. -/
def slowConversation : List Action :=
  List.flatten [
    [.opened "> " 64 (some 1000)], prompted "> ",
    [.passed 400, .sent 0 (Utf8.encode "delc"), .step (.session 0 (.read 4)), .passed 599,
      .sent 0 (Utf8.encode "ounters a\nhelp\nst"), .step (.session 0 (.read 17)),
      .step (.session 0 .take), .step (.execute 0)],
    List.map (fun step => .step (.pool step)) [.submit 0, .submit 0, .submit 0], [.passed 5000],
    List.map (fun step => .step (.pool step))
      [.take 0, .dropWork 0, .finish 0, .signal 0, .take 1, .dropWork 1, .finish 1, .signal 1,
        .conclude 0],
    [.step (.resume 0), .step (.session 0 (.write 19))], prompted "> ",
    [.step (.session 0 .take), .step (.execute 0),
      .step (.session 0 (.write (Utf8.encode Command.helpText).length))], prompted "> ",
    [.passed 500, .sent 0 (Utf8.encode "at"), .step (.session 0 (.read 2)), .passed 500,
      .step (.session 0 .expire), .passed 1]]

theorem slowConversation_given_up : ∃ h c seat, Run (start 2 16) h c ∧
    c.seats[0]? = some seat ∧ Punctual 0 h ∧ InputFirst 0 h ∧ GivesUp 0 h 6999 ∧
    seat.session.stage = .ended (.error .deadlineExceeded) ∧
    ∃ g m g', history 0 h = g ++ m :: g' ∧ BeginsToWait m 5999 ∧
      Lacks 64 (taken g) (history 0 (upTo 6999 h)) := by
  have done : (Trace.perform? react? [] (start 2 16) slowConversation).map (fun r =>
      (r.2.now, r.2.seats[0]?.map fun seat => (seat.session.idleLimit, seat.session.cancelled,
        seat.session.framer.maxLength))) = some (7000, some (some 1000, false, 64)) := by
    decide +kernel
  have timely : (Trace.perform? react? [] (start 2 16) slowConversation).map (fun r =>
      decide (Punctual 0 r.1 ∧ InputFirst 0 r.1 ∧ GivesUp 0 r.1 6999)) = some true := by
    decide +kernel
  rcases Option.map_eq_some_iff.mp done with ⟨⟨h, c⟩, performed, facts⟩
  rw [performed, Option.map_some, Option.some.injEq, decide_eq_true_iff] at timely
  rw [Prod.mk.injEq] at facts
  rcases facts with ⟨now, facts⟩
  rcases Option.map_eq_some_iff.mp facts with ⟨seat, hs, facts⟩
  simp only [Prod.mk.injEq] at facts
  rcases facts with ⟨limited, calm, longest⟩
  rcases timely with ⟨punctual, inputFirst, gaveUp⟩
  have run : Run (start 2 16) h c := Trace.of_perform? .start performed
  rcases run.idle_deadline (isFresh_start 2 16) hs limited punctual inputFirst calm with
    ⟨times, _, _, idle⟩
  have later : 6999 < c.now := Nat.lt_of_lt_of_eq (Nat.lt_succ_self _) now.symm
  rcases (times 6999 (.inl later)).mp gaveUp with ⟨g, m, g', begun, split, begins, due, lacks⟩
  have same : begun = 5999 := by omega
  subst same
  rw [longest] at lacks
  exact ⟨h, c, seat, run, hs, punctual, inputFirst, gaveUp, idle.mpr ⟨_, gaveUp⟩, g, m, g', split,
    begins, lacks⟩

end Console

end ShardConsole
