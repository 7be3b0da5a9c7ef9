import ShardConsole.Proofs.Console.Dialogue
import ShardConsole.Proofs.Console.PoolHistory
import ShardConsole.Proofs.Pool.Failures

/-!
# Consoles at Rest

A console never goes on for ever by itself, and when nothing more can happen every session whose
input has ended is over, if its operator takes what it writes.

How many steps are left cannot be counted in advance: a command makes a call, which gives the
pool more to do, and its answer may be a text of any length. But things come in an order. What
is pending for the sessions, their bytes and the stages that they have to go through, never
grows by a step; while it stays the same, what is left to be written never grows; and while both
stay the same, the load of the pool gets smaller. So every sequence of steps comes to an end.

When no step is left, a session is over, or it waits for input, or for its operator to take what
it writes, or for a call without a result. The call of a session is never abandoned, so by the
theory of pools it has its result then, unless a worker is held at a gate.

## Main definitions

* `Session.pending`, `Session.unwritten`: What is left to be done, and to be written.
* `Console.remaining`: What is left to be done in a console, in the order in which it counts.
* `Console.Stuck`: A console in which nothing can happen by itself.

## Theorems

* `Session.Change.pending_lt`: A step leaves a session with less to do.
* `Console.wellFounded_step`: Every sequence of steps comes to an end.
* `Console.Run.kept`: Nobody abandons the call of a session.
* `Console.Run.over_of_stuck`: In a console at rest, sessions whose input has ended are over.
-/

namespace ShardConsole

namespace Session

/-- How far a session is from being over, between two lines. -/
def Stage.rank : Stage → Nat
  | .executing _ => 8
  | .writing _ .again => 6
  | .ready => 5
  | .prompting => 4
  | .writing _ .await => 3
  | .awaiting _ => 2
  | .writing _ .leave => 1
  | .ended _ | .broken => 0

/-- What is left to be done for a session: bytes have to be read and taken, and a line takes it
    through all stages. -/
def pending (s : Session) : Nat :=
  10 * (2 * s.inbox.length + s.framer.buffer.length) + s.stage.rank

/-- How many bytes are left of the text that is being written. -/
def unwritten (s : Session) : Nat :=
  match s.stage with
  | .writing rest _ => rest.length
  | _ => 0

section Pending

variable {s s' : Session} {now : Nat} {step : Step} {text : String} {next : Next}
  {result : Except Error String}

-- To write a text takes a session no further back than to have something to write.
theorem pending_goOn : (s.goOn now next).pending ≤
    10 * (2 * s.inbox.length + s.framer.buffer.length) + (Stage.writing [] next).rank := by
  cases next <;> simp [goOn, pending, Stage.rank]

theorem pending_write : (s.write now text next).pending ≤
    10 * (2 * s.inbox.length + s.framer.buffer.length) + (Stage.writing [] next).rank := by
  rw [write]
  split
  · exact pending_goOn
  · cases next <;> simp [pending, Stage.rank]

theorem pending_answer : (s.answer now result).pending ≤
    10 * (2 * s.inbox.length + s.framer.buffer.length) + 6 := by
  unfold answer
  split
  · exact pending_write
  · exact Nat.le_trans pending_write (Nat.add_le_add_left (by decide) _)
  · split
    · exact pending_write
    · simp [pending, Stage.rank]

end Pending

end Session

namespace Session

variable {s s' : Session} {now : Nat} {step : Step}

theorem length_of_arrival? {bytes : List UInt8} {rest : Framer}
    (found : s.arrival? = some (.line bytes rest)) :
    rest.buffer.length < s.framer.buffer.length := by
  rw [arrival?_eq] at found
  split at found
  · cases finish : s.framer.finish <;> rw [finish] at found <;> cases found
    exact Framer.length_of_finish finish
  · cases next : s.framer.next <;> rw [next] at found <;> cases found
    exact Framer.length_of_next next

/-- A session whose input has ended, or which is cancelled, and that is not over takes a step, or
    its command is being executed, or it writes what its operator does not take. -/
theorem Stands.exists_step {h : List Moment} (stands : Stands h s) (now : Nat)
    (ends : s.inputEnded = true ∨ s.cancelled = true) : s.isOver = true ∨ s.isExecuting = true ∨
      s.isStalled = true ∨ ∃ step s', s.step? now step = some s' := by
  have possible (step : Step) (free : s.step? now step ≠ none) : s.isOver = true ∨
      s.isExecuting = true ∨ s.isStalled = true ∨ ∃ step s', s.step? now step = some s' :=
    Or.inr (Or.inr (Or.inr ⟨step, Option.ne_none_iff_exists'.mp free⟩))
  cases stage : s.stage with
  | ready =>
      refine possible .begin ?_
      cases cancelled : s.cancelled <;> simp [step?, begin?, stage, cancelled]
  | prompting =>
      refine possible .prompt ?_
      simp [step?, prompt?, stage]
  | writing rest next =>
      -- What is left is written, or it cannot be, or it is not taken.
      rw [Stands, stage] at stands
      cases outlet : s.outlet with
      | free =>
          refine possible (.write rest.length) ?_
          simp [step?, write?, stage, outlet, stands.1]
      | stalled => exact Or.inr (Or.inr (Or.inl (isStalled_iff.mpr ⟨outlet, rest, next, stage⟩)))
      | lost =>
          refine possible .failWrite ?_
          simp [step?, failWrite?, stage, outlet]
  | awaiting since =>
      by_cases flag : s.cancelled = true
      · refine possible .leave ?_
        simp [step?, leave?, stage, flag]
      have ended : s.inputEnded = true := ends.resolve_right flag
      cases found : s.arrival? with
      | some arrival =>
          refine possible .take ?_
          simp [step?, take?, stage, found]
      | none =>
          -- Nothing is found because not everything has been read.
          rw [arrival?_eq] at found
          cases drained : s.isDrained with
          | true =>
              rw [drained, if_pos rfl] at found
              cases finish : s.framer.finish with
              | unfinished => exact absurd finish (s.framer.finish_ne_unfinished _)
              | line | overlong | exhausted => simp [finish, arrivalOf] at found
          | false =>
              rw [drained, if_neg Bool.false_ne_true] at found
              have some : s.inbox ≠ [] := by
                intro none
                rw [isDrained_iff.mpr ⟨none, ended⟩] at drained
                cases drained
              cases unfinished : s.framer.next with
              | unfinished searched =>
                  refine possible (.read s.inbox.length) ?_
                  simp [step?, read?, stage, unfinished, some]
              | line | overlong | exhausted => simp [unfinished, arrivalOf] at found
  | executing command => exact Or.inr (Or.inl (by rw [isExecuting, stage]))
  | ended how => exact Or.inl (by rw [isOver, stage])
  | broken => exact Or.inl (by rw [isOver, stage])

/-- A step leaves a session with less to do, or with as much and less to write. -/
theorem Change.pending_lt (change : Change s (.step now step) s') : s'.pending < s.pending ∨
    (s'.pending = s.pending ∧ s'.unwritten < s.unwritten) := by
  cases change with
  | notice stage | begin stage | leave stage | expire stage | overlong stage | endOfInput stage
  | failRead stage =>
      refine Or.inl ?_
      simp [pending, stage, Stage.rank]
  | prompt stage =>
      have le := @pending_write s now s.prompt .await
      refine Or.inl (Nat.lt_of_le_of_lt le ?_)
      simp [pending, stage, Stage.rank]
  | @write _ count rest next stage reached pos less =>
      refine Or.inr ⟨?_, ?_⟩
      · cases next <;> simp [pending, stage, Stage.rank]
      · simp only [unwritten, stage, List.length_drop]
        omega
  | @wrote _ rest next stage =>
      refine Or.inl ?_
      cases next <;> simp [goOn, pending, stage, Stage.rank]
  | @failWrite _ rest next stage =>
      refine Or.inl ?_
      cases next <;> simp [pending, stage, Stage.rank]
  | @read _ count since searched stage unfinished pos there =>
      -- Bytes that have been read count for less.
      have same := Framer.buffer_of_next unfinished
      refine Or.inl ?_
      simp only [pending, Framer.add, same, List.length_append, List.length_drop,
        List.length_take_of_le there]
      omega
  | @order _ since bytes rest command stage found =>
      have less := length_of_arrival? found
      refine Or.inl ?_
      simp only [pending, stage, Stage.rank]
      omega
  | @remark _ since bytes rest result stage found =>
      have less := length_of_arrival? found
      have le := @pending_answer { s with framer := rest } now result
      refine Or.inl (Nat.lt_of_le_of_lt le ?_)
      simp only [pending, stage, Stage.rank]
      omega

end Session

namespace Console

/-- What is left to be done for a seat. A command that has not been begun is one thing more. -/
def Seat.pending (seat : Seat) : Nat :=
  seat.session.pending + if seat.call.isNone then 1 else 0

/-- What is left to be done in a console, in the order in which it counts: for the sessions, to
    be written, and for the pool. -/
def remaining (c : Console) : Nat × Nat × Nat :=
  ((c.seats.toList.map Seat.pending).sum,
    (c.seats.toList.map fun seat => seat.session.unwritten).sum, c.pool.load)

/-- There is less to be done, in the order in which it counts. -/
abbrev Less : Nat × Nat × Nat → Nat × Nat × Nat → Prop :=
  Prod.Lex (· < ·) (Prod.Lex (· < ·) (· < ·))

/-- Nothing can happen in a console by itself. -/
def Stuck (c : Console) : Prop :=
  ∀ step : Step, c.step? step = none

section Finite

variable {c c' : Console} {s : SessionId} {seat : Seat} {step : Step}

-- What happens to one seat is what happens to all of them together.
theorem remaining_of_seat {change : Seat → Seat} {d : Console} (hs : d.seats[s]? = some seat)
    (less : (change seat).pending < seat.pending ∨ ((change seat).pending = seat.pending ∧
      (change seat).session.unwritten < seat.session.unwritten)) (seats : d.seats = c.seats) :
    Less (d.modifySeat s change).remaining c.remaining := by
  have there := Array.getElem?_toList.trans hs
  have pending := sum_map_modify Seat.pending change there
  have unwritten := sum_map_modify (fun seat => seat.session.unwritten) change there
  rw [remaining, remaining, ← seats, modifySeat, Array.toList_modify]
  rcases less with less | ⟨same, less⟩
  · refine Prod.Lex.left _ _ ?_
    omega
  · have equal : ((d.seats.toList.modify s change).map Seat.pending).sum =
        (d.seats.toList.map Seat.pending).sum := by omega
    rw [equal]
    refine Prod.Lex.right _ (Prod.Lex.left _ _ ?_)
    omega

-- A command that has its result is behind its session.
theorem pending_of_answer {command : Command} {result : Except Error String}
    {call : Option Pool.CallId} (stage : seat.session.stage = .executing command) :
    Seat.pending ⟨seat.session.answer c.now result, call⟩ < seat.pending := by
  have le := @Session.pending_answer seat.session c.now result
  have executing : seat.session.pending =
      10 * (2 * seat.session.inbox.length + seat.session.framer.buffer.length) + 8 := by
    rw [Session.pending, stage]
    rfl
  rw [Seat.pending, Seat.pending]
  dsimp only
  split <;> split <;> omega

/-- Every step leaves less to be done. -/
theorem remaining_lt (act : c.step? step = some c') : Less c'.remaining c.remaining := by
  have change : Change c (.step step) c' := change_of_react? act
  cases change with
  | @poolStep step pool moved =>
      have change : Pool.Change c.pool (.step step) pool := Pool.change_of_step? moved
      exact Prod.Lex.right _ (Prod.Lex.right _ change.load_lt)
  | @session s seat step session hs moved =>
      refine remaining_of_seat hs ?_ rfl
      rcases (Session.change_of_step? moved).pending_lt with less | ⟨same, less⟩
      · exact Or.inl (Nat.add_lt_add_right less _)
      · exact Or.inr ⟨congrArg (· + _) same, less⟩
  | done hs free stage => exact remaining_of_seat hs (Or.inl (pending_of_answer stage)) rfl
  | @called s seat command request pool hs free stage =>
      refine remaining_of_seat (d := { c with pool := pool }) hs (Or.inl ?_) rfl
      simp [Seat.pending, free]
  | broken hs free stage =>
      refine remaining_of_seat hs (Or.inl ?_) rfl
      simp [Seat.pending, Session.pending, stage, Session.Stage.rank]
  | resumed hs seated returned stage =>
      exact remaining_of_seat hs (Or.inl (pending_of_answer stage)) rfl

/-- Every sequence of steps comes to an end. -/
theorem wellFounded_step :
    WellFounded fun after before : Console => ∃ step, before.step? step = some after := by
  have less : WellFounded Less :=
    WellFounded.prod_lex Nat.lt_wfRel.wf (WellFounded.prod_lex Nat.lt_wfRel.wf Nat.lt_wfRel.wf)
  refine Subrelation.wf ?_ (InvImage.wf remaining less)
  rintro after before ⟨step, act⟩
  exact remaining_lt act

end Finite

section AtRest

variable {start c c' : Console} {h : List Moment} {s : SessionId} {seat : Seat} {a : Action}
  {call : Pool.CallId}

-- A call that has been made and not been abandoned.
def Kept (p : Pool) (call : Pool.CallId) : Prop :=
  ∃ it, p.calls[call]? = some it ∧ it.phase ≠ .dropped

-- Only whoever abandons a call abandons it.
theorem Kept.of_act? {p p' : Pool} {request : Pool.Action} (kept : Kept p call)
    (act : p.act? request = some p') (other : request ≠ .drop call) : Kept p' call := by
  rcases kept with ⟨it, hc, phase⟩
  rcases (Pool.change_of_act? act).callChange_of hc with ⟨after, hc', changed⟩
  refine ⟨after, hc', ?_⟩
  cases changed with
  | drop => exact absurd rfl other
  | give => simp [Pool.Call.give]
  | refuse => simp [Pool.Call.refuse]
  | await => simp [Pool.Call.await]
  | conclude | desist => simp
  | _ => simpa using phase

theorem Kept.cancel {p : Pool} (kept : Kept p call) (other : Pool.CallId) :
    Kept (p.cancel other) call := by
  have act : p.act? (.cancel other) = some (p.cancel other) := rfl
  exact kept.of_act? act (by simp)

-- A call that a command has just made is there.
theorem Kept.of_requestOf {request : Pool.Action} {pool : Pool} {command : Command}
    {cancelled : Bool} (asks : c.requestOf command cancelled = some request)
    (act : c.pool.act? request = some pool) : Kept pool c.pool.calls.size := by
  rcases begins_of_requestOf asks act with ⟨made, begins, rfl⟩
  refine ⟨made, Array.getElem?_push_size, ?_⟩
  cases begins <;> simp [Pool.Call.start]

-- Nothing that happens to a console abandons a call that a session waits for.
theorem Change.kept (change : Change c a c') (seated : c.isSeated call = true)
    (kept : Kept c.pool call) : Kept c'.pool call := by
  have cancelled (sessions : List SessionId) (d : Console) (kept : Kept d.pool call) :
      Kept (sessions.foldl Console.cancel d).pool call := by
    induction sessions generalizing d with
    | nil => exact kept
    | cons t rest ih =>
        refine ih _ ?_
        rw [pool_cancel]
        split
        · exact kept.cancel _
        · exact kept
  cases change with
  | @poolStep step pool moved =>
      have moved : c.pool.act? (.step step) = some pool := moved
      exact kept.of_act? moved (by simp)
  | pool free moved =>
      refine kept.of_act? moved ?_
      rintro rfl
      simp [spares, seated] at free
  | called _ _ _ asks moved =>
      refine kept.of_act? moved ?_
      rintro rfl
      unfold requestOf at asks
      split at asks <;> cases asks
  | @cancelled s => exact cancelled [s] c kept
  | shutDown => exact cancelled _ { c with shutDown := true } kept
  | _ => exact kept

/-- The call of a session is there, and it is never abandoned. -/
theorem Run.kept (run : Run start h c) (fresh : start.IsFresh) (hs : c.seats[s]? = some seat)
    (seated : seat.call = some call) : Kept c.pool call := by
  refine Run.seat_induction (motive := fun _ c seat => seat.call = some call → Kept c.pool call)
    ?_ ?_ run fresh hs seated
  · intro h c c' prompt maxLength idleLimit run _ absent seated
    cases seated
  · intro h c c' a earlier seat run change before changed ih seated
    by_cases had : earlier.call = some call
    · refine change.kept ?_ (ih had)
      rw [isSeated, Array.any_eq_true']
      exact ⟨earlier, Array.mem_of_getElem? before, by simp [had]⟩
    · -- The session has got the call just now.
      rcases changed.new_call change before seated had with ⟨_, _, _, asks, moved, rfl⟩
      exact Kept.of_requestOf asks moved

/-- The pool of a console at rest is at rest. -/
theorem Stuck.pool (stuck : c.Stuck) : c.pool.Stuck := by
  intro step
  have none := stuck (.pool step)
  rwa [step?, Option.map_eq_none_iff] at none

/-- In a console at rest every session whose input has ended, or which is cancelled, is over,
    unless it writes what its operator does not take, or waits for a call that has no result. -/
theorem Run.over_or_waiting (run : Run start h c) (fresh : start.IsFresh) (stuck : c.Stuck)
    (hs : c.seats[s]? = some seat)
    (ends : seat.session.inputEnded = true ∨ seat.session.cancelled = true) :
    seat.session.isOver = true ∨ seat.session.isStalled = true ∨
      ∃ call, seat.call = some call ∧ c.pool.result? call = none := by
  rcases run.session fresh hs with ⟨prompt, maxLength, idleLimit, cancelled, so⟩
  rcases so.stands.exists_step c.now ends with
    past | executing | stalled | ⟨step, next, act⟩
  · exact Or.inl past
  · rcases Session.executing_of_isExecuting executing with ⟨command, stage⟩
    cases seated : seat.call with
    | none =>
        -- The command can be begun, whatever comes of it.
        have none := stuck (.execute s)
        simp only [step?, execute?, hs, seated, stage, Option.bind_eq_bind,
          Option.bind_some] at none
        rcases c.execute_cases command seat.session.cancelled with
          ⟨result, execution⟩ | ⟨_, pool, _, _, execution⟩ | ⟨execution, _⟩ <;>
          simp [execution] at none
    | some call =>
        refine Or.inr (Or.inr ⟨call, rfl, ?_⟩)
        cases returned : c.pool.result? call with
        | none => rfl
        | some result =>
            have none := stuck (.resume s)
            simp [step?, resume?, hs, seated, returned, stage] at none
  · exact Or.inr (Or.inl stalled)
  · have none := stuck (.session s step)
    simp [step?, hs, act] at none

/-- In a console at rest, where nobody is held at a gate, every session whose input has ended is
    over, if its operator takes what it writes. -/
theorem Run.over_of_stuck (run : Run start h c) (fresh : start.IsFresh) (stuck : c.Stuck)
    (ungated : c.pool.Ungated) (hs : c.seats[s]? = some seat)
    (ended : seat.session.inputEnded = true) (taken : seat.session.isStalled = false) :
    seat.session.isOver = true := by
  rcases run.over_or_waiting fresh stuck hs (Or.inl ended) with
    past | stalled | ⟨call, seated, unanswered⟩
  · exact past
  · cases taken.symm.trans stalled
  · rcases run.kept fresh hs seated with ⟨it, hc, kept⟩
    rcases run.pool.result_of_stuck fresh.pool stuck.pool ungated hc kept with ⟨result, returned⟩
    cases unanswered.symm.trans returned

end AtRest

end Console

end ShardConsole
