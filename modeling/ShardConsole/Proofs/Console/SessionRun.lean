import ShardConsole.Proofs.Console.Framing
import ShardConsole.Proofs.Console.Transcript
import ShardConsole.Proofs.Trace

/-!
# Runs of a Session

Everything that can happen to a session, and what it does.

A session moves by its own steps, it is given the results of its commands, and bytes, the end
of the input, whether its texts are taken, the operator's leaving and cancellation come from
outside. All of these are `Event`s, and `react?` is their common transition function. `Change`
says once what an event can do: one constructor for each way in which it is possible, with the
conditions and with the state that it leads to. The proofs about runs are case distinctions over
`Change`.

What a session has been sent, which lines it has taken and what the results of these lines were
is read off the history of its run.

## Main definitions

* `Session.Event`: Something that happens to a session.
* `Session.react?`: The session after an event, if the event is possible.
* `Session.Change`: What an event does to a session.
* `Session.Moment`, `Session.Run`: Histories of possible events.
* `Session.received`, `Session.taken`, `Session.results`: What has been sent, the lines that
  have been taken, and their results.

## Theorems

* `Session.change_of_react?`: A possible event is one of the changes.
* `Session.Change.outside_of_isOver`: What still happens to a session that is over.
* `Session.Change.stays_of_isOver`: Nothing changes how a session has ended.
-/

namespace ShardConsole

namespace Session

/-- Something that happens to a session. -/
inductive Event
  | step (now : Nat) (step : Step)
  /-- Its command has a result. -/
  | answered (now : Nat) (result : Except Error String)
  /-- Its command breaks down. -/
  | brokeDown
  | delivered (bytes : List UInt8)
  | inputEnded
  | outletSet (outlet : Outlet)
  | hungUp
  | cancelled

/-- Whether a command is being executed for a session. -/
def isExecuting (s : Session) : Bool :=
  match s.stage with
  | .executing _ => true
  | _ => false

/-- The session after an event, if the event is possible. -/
def react? (s : Session) : Event → Option Session
  | .step now step => s.step? now step
  | .answered now result => if s.isExecuting then some (s.answer now result) else none
  | .brokeDown => if s.isExecuting then some { s with stage := .broken } else none
  | .delivered bytes => if s.accepts bytes then some (s.deliver bytes) else none
  | .inputEnded => some s.endInput
  | .outletSet outlet => some (s.setOutlet outlet)
  | .hungUp => some s.hangUp
  | .cancelled => some s.cancel

/-- What an event does to a session. -/
inductive Change (s : Session) : Event → Session → Prop
  | notice {now : Nat} (stage : s.stage = .ready) (cancelled : s.cancelled = true) :
      Change s (.step now .begin) { s with stage := .ended (.error .cancelled) }
  | begin {now : Nat} (stage : s.stage = .ready) (going : s.cancelled = false) :
      Change s (.step now .begin) { s with stage := .prompting }
  | prompt {now : Nat} (stage : s.stage = .prompting) :
      Change s (.step now .prompt) (s.write now s.prompt .await)
  | write {now count : Nat} {rest : List UInt8} {next : Next} (stage : s.stage = .writing rest next)
      (taken : s.outlet = .free) (pos : 0 < count) (less : count < rest.length) :
      Change s (.step now (.write count))
        { s with written := s.written ++ rest.take count, stage := .writing (rest.drop count) next }
  | wrote {now : Nat} {rest : List UInt8} {next : Next} (stage : s.stage = .writing rest next)
      (taken : s.outlet = .free) (pos : 0 < rest.length) :
      Change s (.step now (.write rest.length))
        ({ s with written := s.written ++ rest }.goOn now next)
  | failWrite {now : Nat} {rest : List UInt8} {next : Next} (stage : s.stage = .writing rest next)
      (lost : s.outlet = .lost) :
      Change s (.step now .failWrite) { s with stage := .ended (.error (.io "broken pipe")) }
  | read {now count since : Nat} {searched : Framer} (stage : s.stage = .awaiting since)
      (unfinished : s.framer.next = .unfinished searched) (pos : 0 < count)
      (there : count ≤ s.inbox.length) :
      Change s (.step now (.read count))
        { s with framer := searched.add (s.inbox.take count), inbox := s.inbox.drop count }
  | failRead {now since : Nat} {searched : Framer} (stage : s.stage = .awaiting since)
      (unfinished : s.framer.next = .unfinished searched) (gone : s.isGone = true) :
      Change s (.step now .failRead) { s with stage := .ended (.error (.io "connection reset")) }
  | order {now since : Nat} {bytes : List UInt8} {rest : Framer} {command : Command}
      (stage : s.stage = .awaiting since) (arrival : s.arrival? = some (.line bytes rest))
      (parsed : Command.parse (Framer.text bytes) = .ok (some command)) :
      Change s (.step now .take) { s with framer := rest, stage := .executing command }
  | remark {now since : Nat} {bytes : List UInt8} {rest : Framer} {result : Except Error String}
      (stage : s.stage = .awaiting since) (arrival : s.arrival? = some (.line bytes rest))
      (immediate : immediate? bytes = some result) :
      Change s (.step now .take) ({ s with framer := rest }.answer now result)
  | overlong {now since : Nat} (stage : s.stage = .awaiting since)
      (arrival : s.arrival? = some .overlong) :
      Change s (.step now .take) { s with stage := .ended (.error .lineTooLong) }
  | endOfInput {now since : Nat} (stage : s.stage = .awaiting since)
      (arrival : s.arrival? = some .endOfInput) :
      Change s (.step now .take) { s with stage := .ended (.ok ()) }
  | leave {now since : Nat} (stage : s.stage = .awaiting since) (cancelled : s.cancelled = true) :
      Change s (.step now .leave) { s with stage := .ended (.error .cancelled) }
  | expire {now since limit : Nat} (stage : s.stage = .awaiting since)
      (limited : s.idleLimit = some limit) (passed : since + limit ≤ now) (inbox : s.inbox = [])
      (nothing : s.arrival? = none) :
      Change s (.step now .expire) { s with stage := .ended (.error .deadlineExceeded) }
  | answered {now : Nat} {result : Except Error String} {command : Command}
      (stage : s.stage = .executing command) : Change s (.answered now result) (s.answer now result)
  | brokeDown {command : Command} (stage : s.stage = .executing command) :
      Change s .brokeDown { s with stage := .broken }
  | delivered {bytes : List UInt8} (accepted : s.accepts bytes = true) :
      Change s (.delivered bytes) (s.deliver bytes)
  | inputEnded : Change s .inputEnded s.endInput
  | outletSet {outlet : Outlet} : Change s (.outletSet outlet) (s.setOutlet outlet)
  | hungUp : Change s .hungUp s.hangUp
  | cancelled : Change s .cancelled s.cancel

/-- An event with the state in which it happened. -/
abbrev Moment := Trace.Moment Session Event

/-- A history of possible events, from a state to a state. -/
abbrev Run (first : Session) : List Moment → Session → Prop :=
  Trace react? first

section Outlets

variable {s : Session}

theorem isGone_iff : s.isGone = true ↔ s.inputEnded = true ∧ s.outlet = .lost := by
  rw [isGone, Bool.and_eq_true, decide_eq_true_iff]

theorem isStalled_iff : s.isStalled = true ↔
    s.outlet = .stalled ∧ ∃ rest next, s.stage = .writing rest next := by
  rw [isStalled]
  split <;> simp_all

-- What is lost stays lost.
theorem outlet_setOutlet (lost : s.outlet = .lost) (outlet : Outlet) :
    (s.setOutlet outlet).outlet = .lost :=
  if_pos lost

end Outlets

section Projections

/-- What is sent to a session at a moment. -/
def sentAt (m : Moment) : List UInt8 :=
  match m.action with
  | .delivered bytes => bytes
  | _ => []

/-- The line that a session takes at a moment. -/
def takenAt (m : Moment) : List (List UInt8) :=
  match m.action, m.before.arrival? with
  | .step _ .take, some (.line bytes _) => [bytes]
  | _, _ => []

/-- The result that a line of a session gets at a moment. -/
def resultsAt (m : Moment) : List (Except Error String) :=
  match m.action with
  | .answered _ result => [result]
  | _ => (takenAt m).filterMap immediate?

/-- Everything that has been sent to a session. -/
def received (h : List Moment) : List UInt8 :=
  h.flatMap sentAt

/-- The lines that a session has taken. -/
def taken (h : List Moment) : List (List UInt8) :=
  h.flatMap takenAt

/-- The results that the lines of a session have had. -/
def results (h : List Moment) : List (Except Error String) :=
  h.flatMap resultsAt

variable (h : List Moment) (m : Moment)

@[simp] theorem received_snoc : received (h ++ [m]) = received h ++ sentAt m := by
  simp only [received, List.flatMap_append, List.flatMap_singleton]

@[simp] theorem taken_snoc : taken (h ++ [m]) = taken h ++ takenAt m := by
  simp only [taken, List.flatMap_append, List.flatMap_singleton]

@[simp] theorem results_snoc : results (h ++ [m]) = results h ++ resultsAt m := by
  simp only [results, List.flatMap_append, List.flatMap_singleton]

theorem received_append (h' : List Moment) : received (h ++ h') = received h ++ received h' :=
  List.flatMap_append

theorem taken_append (h' : List Moment) : taken (h ++ h') = taken h ++ taken h' :=
  List.flatMap_append

theorem results_append (h' : List Moment) : results (h ++ h') = results h ++ results h' :=
  List.flatMap_append

end Projections

section Inversion

variable {s s' : Session} {e : Event} {now : Nat}

theorem change_of_write? {count : Nat} (h : s.write? now count = some s') :
    Change s (.step now (.write count)) s' := by
  rw [write?] at h
  split at h
  · rename_i rest next stage
    split at h
    · cases h
    · rename_i free
      rw [not_or, not_or] at free
      rcases free with ⟨taken, pos, inside⟩
      have taken : s.outlet = .free := Decidable.not_not.mp taken
      -- The whole rest is written, or something is left.
      split at h
      · rename_i whole
        cases h
        subst whole
        rw [List.take_length]
        exact .wrote stage taken (Nat.pos_of_ne_zero pos)
      · rename_i part
        cases h
        exact .write stage taken (Nat.pos_of_ne_zero pos) (by omega)
  · cases h

theorem change_of_read? {count : Nat} (h : s.read? count = some s') :
    Change s (.step now (.read count)) s' := by
  rw [read?] at h
  split at h
  · rename_i since searched stage unfinished
    split at h
    · cases h
    · rename_i some
      rw [not_or] at some
      cases h
      exact .read stage unfinished (Nat.pos_of_ne_zero some.1) (Nat.le_of_not_lt some.2)
  · cases h

theorem change_of_take? (h : s.take? now = some s') : Change s (.step now .take) s' := by
  rw [take?] at h
  split at h
  · rename_i since stage
    rcases Option.map_eq_some_iff.mp h with ⟨arrival, found, rfl⟩
    cases arrival with
    | line bytes rest =>
        rw [take, takeLine]
        cases parsed : Command.parse (Framer.text bytes) with
        | ok named =>
            cases named with
            | some command => exact .order stage found parsed
            | none => exact .remark stage found (by rw [immediate?, parsed])
        | error cause => exact .remark stage found (by rw [immediate?, parsed])
    | overlong => exact .overlong stage found
    | endOfInput => exact .endOfInput stage found
  · cases h

theorem change_of_expire? (h : s.expire? now = some s') : Change s (.step now .expire) s' := by
  rw [expire?] at h
  split at h
  · rename_i deadline due
    rw [deadline?] at due
    split at due
    · rename_i since limit stage limited
      cases due
      split at h
      · rename_i idle
        cases h
        exact .expire stage limited idle.1 idle.2.1 idle.2.2
      · cases h
    · cases due
  · cases h

theorem change_of_step? {step : Step} (h : s.step? now step = some s') :
    Change s (.step now step) s' := by
  cases step with
  | begin =>
      simp only [step?, begin?] at h
      split at h
      · rename_i stage
        split at h
        · rename_i cancelled
          cases h
          exact .notice stage cancelled
        · rename_i going
          cases h
          exact .begin stage (by simpa using going)
      · cases h
  | prompt =>
      simp only [step?, prompt?] at h
      split at h
      · rename_i stage
        cases h
        exact .prompt stage
      · cases h
  | write count => exact change_of_write? h
  | failWrite =>
      simp only [step?, failWrite?] at h
      split at h
      · rename_i stage
        split at h
        · rename_i lost
          cases h
          exact .failWrite stage lost
        · cases h
      · cases h
  | read count => exact change_of_read? h
  | failRead =>
      simp only [step?, failRead?] at h
      split at h
      · rename_i stage unfinished
        split at h
        · rename_i gone
          cases h
          exact .failRead stage unfinished gone
        · cases h
      · cases h
  | take => exact change_of_take? h
  | leave =>
      simp only [step?, leave?] at h
      split at h
      · rename_i stage
        split at h
        · rename_i cancelled
          cases h
          exact .leave stage cancelled
        · cases h
      · cases h
  | expire => exact change_of_expire? h

theorem executing_of_isExecuting (executing : s.isExecuting = true) :
    ∃ command, s.stage = .executing command := by
  cases stage : s.stage <;> simp_all [isExecuting]

/-- A possible event is one of the changes. -/
theorem change_of_react? (h : s.react? e = some s') : Change s e s' := by
  cases e with
  | step now step => exact change_of_step? h
  | answered now result =>
      rcases (Option.ite_none_right_eq_some).mp h with ⟨executing, same⟩
      rcases executing_of_isExecuting executing with ⟨command, stage⟩
      cases same
      exact .answered stage
  | brokeDown =>
      rcases (Option.ite_none_right_eq_some).mp h with ⟨executing, same⟩
      rcases executing_of_isExecuting executing with ⟨command, stage⟩
      cases same
      exact .brokeDown stage
  | delivered bytes =>
      rcases (Option.ite_none_right_eq_some).mp h with ⟨accepted, same⟩
      cases same
      exact .delivered accepted
  | inputEnded =>
      cases h
      exact .inputEnded
  | outletSet outlet =>
      cases h
      exact .outletSet
  | hungUp =>
      cases h
      exact .hungUp
  | cancelled =>
      cases h
      exact .cancelled

end Inversion

section Frames

variable {s s' : Session} {e : Event} {now : Nat} {next : Next} {text : String}
  {result : Except Error String} {h h₁ h₂ : List Moment}

-- What a session has to write touches nothing but what it is doing, and does not break it down.
theorem write_eq : ∃ stage, stage ≠ .broken ∧
    s.write now text next = { s with stage := stage } := by
  rw [write]
  split
  · cases next <;> exact ⟨_, by simp, rfl⟩
  · exact ⟨_, by simp, rfl⟩

theorem answer_eq : ∃ stage, stage ≠ .broken ∧
    s.answer now result = { s with stage := stage } := by
  unfold answer
  split
  · exact write_eq
  · exact write_eq
  · split
    · exact write_eq
    · exact ⟨_, by simp, rfl⟩

@[simp] theorem prompt_write : (s.write now text next).prompt = s.prompt := by
  rcases @write_eq s now next text with ⟨stage, _, same⟩
  rw [same]

@[simp] theorem prompt_answer : (s.answer now result).prompt = s.prompt := by
  rcases @answer_eq s now result with ⟨stage, _, same⟩
  rw [same]

theorem write_ne_broken : (s.write now text next).stage ≠ .broken := by
  rcases @write_eq s now next text with ⟨stage, other, same⟩
  rw [same]
  exact other

theorem answer_ne_broken : (s.answer now result).stage ≠ .broken := by
  rcases @answer_eq s now result with ⟨stage, other, same⟩
  rw [same]
  exact other

-- A line that is taken while a session waits is taken, and a command is no result.
theorem takenAt_take {bytes : List UInt8} {rest : Framer}
    (arrival : s.arrival? = some (.line bytes rest)) : takenAt ⟨s, .step now .take⟩ = [bytes] := by
  simp only [takenAt, arrival]

theorem resultsAt_take {bytes : List UInt8} {rest : Framer}
    (arrival : s.arrival? = some (.line bytes rest)) :
    resultsAt ⟨s, .step now .take⟩ = (immediate? bytes).toList := by
  rw [resultsAt, takenAt_take arrival]
  cases immediate : immediate? bytes with
  | none => exact List.filterMap_cons_none immediate
  | some result => exact List.filterMap_cons_some immediate

theorem takenAt_of_no_line (none : ∀ bytes rest, s.arrival? ≠ some (.line bytes rest)) :
    takenAt ⟨s, .step now .take⟩ = [] := by
  rw [takenAt]
  split
  · rename_i arrival
    exact absurd arrival (none _ _)
  · rfl

theorem resultsAt_of_no_line (none : ∀ bytes rest, s.arrival? ≠ some (.line bytes rest)) :
    resultsAt ⟨s, .step now .take⟩ = [] := by
  rw [resultsAt, takenAt_of_no_line none]
  rfl

theorem Change.prompt_eq (change : Change s e s') : s'.prompt = s.prompt := by
  cases change with
  | prompt | remark | answered => simp
  | _ => rfl

theorem Run.prompt_eq (run : Run s h s') : s'.prompt = s.prompt := by
  induction run with
  | start => rfl
  | next run act ih => exact (change_of_react? act).prompt_eq.trans ih

/-- What still happens to a session that is over comes from outside. -/
theorem Change.outside_of_isOver (change : Change s e s') (past : s.isOver = true) :
    (∃ bytes, e = .delivered bytes ∧ s.accepts bytes = true ∧ s' = s.deliver bytes) ∨
      (e = .inputEnded ∧ s' = s.endInput) ∨
      (∃ outlet, e = .outletSet outlet ∧ s' = s.setOutlet outlet) ∨
      (e = .hungUp ∧ s' = s.hangUp) ∨ (e = .cancelled ∧ s' = s.cancel) := by
  cases change with
  | delivered accepted => exact Or.inl ⟨_, rfl, accepted, rfl⟩
  | inputEnded => exact Or.inr (Or.inl ⟨rfl, rfl⟩)
  | outletSet => exact Or.inr (Or.inr (Or.inl ⟨_, rfl, rfl⟩))
  | hungUp => exact Or.inr (Or.inr (Or.inr (Or.inl ⟨rfl, rfl⟩)))
  | cancelled => exact Or.inr (Or.inr (Or.inr (Or.inr ⟨rfl, rfl⟩)))
  | notice stage | begin stage | prompt stage | write stage | wrote stage | failWrite stage
  | read stage | failRead stage | order stage | remark stage | overlong stage | endOfInput stage
  | leave stage | expire stage | answered stage | brokeDown stage => simp [isOver, stage] at past

/-- Nothing changes how a session has ended, or what it has written until then. -/
theorem Change.stays_of_isOver (change : Change s e s') (past : s.isOver = true) :
    s'.stage = s.stage ∧ s'.written = s.written := by
  rcases change.outside_of_isOver past with
    ⟨_, rfl, _, rfl⟩ | ⟨rfl, rfl⟩ | ⟨_, rfl, rfl⟩ | ⟨rfl, rfl⟩ | ⟨rfl, rfl⟩ <;>
    exact ⟨rfl, rfl⟩

theorem Run.stays_of_isOver (run : Run s h s') (past : s.isOver = true) :
    s'.stage = s.stage ∧ s'.written = s.written := by
  induction run with
  | start => exact ⟨rfl, rfl⟩
  | @next h t t' e run act ih =>
      rcases ih with ⟨stage, written⟩
      have still : t.isOver = true := by rw [isOver, stage]; exact past
      rcases (change_of_react? act).stays_of_isOver still with ⟨stage', written'⟩
      exact ⟨stage'.trans stage, written'.trans written⟩

-- Only the command of a session can break it down.
theorem Change.of_broken (change : Change s e s') (broken : s'.stage = .broken) :
    e = .brokeDown ∨ s.stage = .broken := by
  cases change with
  | prompt => exact absurd broken write_ne_broken
  | @wrote _ _ next => cases next <;> cases broken
  | remark | answered => exact absurd broken answer_ne_broken
  | read stage => exact Or.inr broken
  | brokeDown => exact Or.inl rfl
  | delivered | inputEnded | outletSet | hungUp | cancelled => exact Or.inr broken
  | _ => cases broken

end Frames

end Session

end ShardConsole
