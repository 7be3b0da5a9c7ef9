import ShardConsole.Proofs.Console.Cancellation
import ShardConsole.Proofs.Console.Findings

/-!
# Sessions That Wait

What a session has in its hands while it waits for a line.

As long as the input of a session has not ended, every line that it has taken was ended by a
newline, so what it has been sent is made of these lines and of what it has not taken yet. A session
that has read everything finds nothing in its input exactly if what it has not taken has no newline
in it and could still become a line.

A session begins to wait by a step of its own and not before it has written its prompt. Only a line
that it takes, its end and what ends its input take it out of that again. So from what comes, and
without looking at what the session does with it, one can tell whether it goes on to wait.

## Main definitions

* `Session.bytesOf`: The bytes of lines with their newlines.
* `Session.BeginsToWait`: A session begins to wait for a line.
* `Session.WaitsSince`: A session has waited ever since it has begun to.
* `Session.Lacks`: Nothing has come that a session could take.

## Theorems

* `Session.Run.received_eq`: What a session has been sent.
* `Session.arrival?_eq_none_iff`: When a session that waits finds nothing.
* `Session.Change.awaiting_cases`: How a session comes to wait.
* `Session.Change.of_awaiting`: What a session that waits can do.
* `Session.Run.waited`: A session that waits has begun to.
* `Session.Run.lacks`: A session that waits and has nothing to do lacks a line.
* `Session.Run.waits_or_expires`: A session that lacks a line waits until it gives up.
* `Session.Run.expired`: How a session ends that has waited for too long.
-/

namespace ShardConsole

namespace Session

open Framer (newline)

/-- The bytes of lines, each with the newline that ends it. -/
def bytesOf (lines : List (List UInt8)) : List UInt8 :=
  lines.flatMap (· ++ [newline])

/-- A session waits for a line. -/
def Waits (s : Session) : Prop :=
  ∃ since, s.stage = .awaiting since

/-- At a moment a session begins to wait for a line, by a step that it takes at a time. -/
structure BeginsToWait (m : Moment) (now : Nat) : Prop where
  own : ∃ step, m.action = .step now step
  free : ¬m.before.Waits
  waits : ∃ next, m.before.react? m.action = some next ∧ next.Waits

/-- At the end of a history a session waits, and has begun to at a moment and a time. Since then it
    has waited and has not taken a line. -/
structure WaitsSince (h g : List Moment) (m : Moment) (since : Nat) : Prop where
  begins : BeginsToWait m since
  whole : ∃ rest, h = g ++ m :: rest ∧ ∀ m' ∈ rest, m'.before.Waits
  lines : taken h = taken g

/-- Whether an event brings input or ends it. -/
def Event.isInput : Event → Bool
  | .delivered _ | .inputEnded | .hungUp => true
  | _ => false

/-- Behind some lines nothing has come in a history that can be taken: what has come is neither a
    line nor too long for one, and the input has not ended. -/
structure Lacks (maxLength : Nat) (lines : List (List UInt8)) (h : List Moment) : Prop where
  unfinished : ∃ part, received h = bytesOf lines ++ part ∧ newline ∉ part ∧
    part.length ≤ maxLength
  going : ∀ m ∈ h, m.action ≠ .inputEnded ∧ m.action ≠ .hungUp

section Changes

variable {s s' t : Session} {e : Event} {h : List Moment} {since : Nat}

theorem bytesOf_snoc (lines : List (List UInt8)) (line : List UInt8) :
    bytesOf (lines ++ [line]) = bytesOf lines ++ (line ++ [newline]) := by
  rw [bytesOf, List.flatMap_append, List.flatMap_singleton]
  rfl

/-- The idle limit never changes, and the input only ends when it is ended or when the operator
    goes away. -/
theorem Change.flags (change : Change s e s') : s'.idleLimit = s.idleLimit ∧
    (s'.inputEnded = true ↔ s.inputEnded = true ∨ e = .inputEnded ∨ e = .hungUp) := by
  cases change with
  | prompt =>
      rcases write_eq (s := s) with ⟨stage, _, after⟩
      rw [after]
      simp
  | answered =>
      rcases answer_eq (s := s) with ⟨stage, _, after⟩
      rw [after]
      simp
  | @remark now since bytes rest =>
      rcases answer_eq (s := { s with framer := rest }) with ⟨stage, _, after⟩
      rw [after]
      simp
  | @wrote _ _ next => cases next <;> simp [goOn]
  | _ => simp [deliver, endInput, setOutlet, hangUp, cancel]

-- An input that is still going on has been going on, and a session that is not cancelled has not
-- been.
theorem Change.going_before (change : Change s e s') (going : s'.inputEnded = false) :
    s.inputEnded = false := by
  by_contra ended
  rw [change.flags.2.mpr (.inl (by simpa using ended))] at going
  cases going

theorem Change.calm_before (change : Change s e s') (calm : s'.cancelled = false) :
    s.cancelled = false := by
  by_contra flag
  rw [change.cancelled_iff.mpr (.inl (by simpa using flag))] at calm
  cases calm

theorem Run.idleLimit_eq (run : Run s h t) : t.idleLimit = s.idleLimit := by
  induction run with
  | start => rfl
  | next run act ih => exact (change_of_react? act).flags.1.trans ih

theorem Run.inputEnded_iff (run : Run s h t) : t.inputEnded = true ↔
    s.inputEnded = true ∨ ∃ m ∈ h, m.action = .inputEnded ∨ m.action = .hungUp := by
  induction run with
  | start => simp
  | next run act ih =>
      simp [(change_of_react? act).flags.2, ih, or_assoc, or_and_right, exists_or]

-- Only what is written before a wait makes a session wait, and from then on.
theorem awaiting_of_goOn {now : Nat} {next : Next}
    (waits : (s.goOn now next).stage = .awaiting since) : next = .await ∧ now = since := by
  cases next <;> cases waits
  exact ⟨rfl, rfl⟩

theorem awaiting_of_write {now : Nat} {text : String} {next : Next}
    (waits : (s.write now text next).stage = .awaiting since) : next = .await ∧ now = since := by
  rw [write] at waits
  split at waits
  · exact awaiting_of_goOn waits
  · cases waits

theorem answer_ne_awaiting {now : Nat} {result : Except Error String} :
    (s.answer now result).stage ≠ .awaiting since := by
  intro waits
  cases ends : ending? result with
  | none =>
      rw [answer_of_open ends] at waits
      cases (awaiting_of_write waits).1
  | some e =>
      by_cases leaves : result = .error .quit
      · subst leaves
        cases (awaiting_of_write waits).1
      · rw [answer_of_ending ends leaves] at waits
        cases waits

/-- A session that waits did so before, or has just begun to, and it has not taken a line. -/
theorem Change.awaiting_cases (change : Change s e s') (waits : s'.stage = .awaiting since) :
    takenAt ⟨s, e⟩ = [] ∧ (s.stage = .awaiting since ∨
      (∃ step, e = .step since step) ∧ ∀ earlier, s.stage ≠ .awaiting earlier) := by
  cases change with
  | read | delivered | inputEnded | outletSet | hungUp | cancelled => exact ⟨rfl, .inl waits⟩
  | prompt stage =>
      rcases awaiting_of_write waits with ⟨_, rfl⟩
      exact ⟨rfl, .inr ⟨⟨_, rfl⟩, by simp [stage]⟩⟩
  | wrote stage =>
      rcases awaiting_of_goOn waits with ⟨_, rfl⟩
      exact ⟨rfl, .inr ⟨⟨_, rfl⟩, by simp [stage]⟩⟩
  | remark => exact absurd waits answer_ne_awaiting
  | answered => exact absurd waits answer_ne_awaiting
  | _ => cases waits

/-- A session that waits and finds nothing goes on to wait, unless its limit has passed. -/
theorem Change.of_awaiting (change : Change s e s') (waits : s.stage = .awaiting since)
    (calm : s.cancelled = false) (going : s.inputEnded = false) (nothing : s.arrival? = none) :
    s'.stage = .awaiting since ∧ takenAt ⟨s, e⟩ = [] ∨
      ∃ now limit, e = .step now .expire ∧ s.idleLimit = some limit ∧ since + limit ≤ now := by
  cases change with
  | read | delivered | inputEnded | outletSet | hungUp | cancelled => exact .inl ⟨waits, rfl⟩
  | expire stage limited passed =>
      cases waits.symm.trans stage
      exact .inr ⟨_, _, rfl, limited, passed⟩
  | order _ arrival | remark _ arrival | overlong _ arrival | endOfInput _ arrival =>
      cases nothing.symm.trans arrival
  | leave _ cancelled => cases calm.symm.trans cancelled
  | failRead _ _ gone => cases going.symm.trans (isGone_iff.mp gone).1
  | notice stage | begin stage | prompt stage | write stage | wrote stage | failWrite stage
  | answered stage | brokeDown stage => cases waits.symm.trans stage

-- A session takes no line when it begins to wait.
theorem BeginsToWait.takenAt_eq {m : Moment} {now : Nat} (begins : BeginsToWait m now) :
    takenAt m = [] := by
  rcases begins.waits with ⟨next, act, since, waits⟩
  exact ((change_of_react? act).awaiting_cases waits).1

/-- A session that has waited for too long has given up, unless a result says so. -/
theorem Change.expired (change : Change s e s')
    (idle : s'.stage = .ended (.error .deadlineExceeded)) :
    s.stage = .ended (.error .deadlineExceeded) ∨ (∃ now, e = .step now .expire) ∨
      ∃ result ∈ resultsAt ⟨s, e⟩, ending? result = some .deadlineExceeded := by
  cases change with
  | expire => exact .inr (.inl ⟨_, rfl⟩)
  | read | delivered | inputEnded | outletSet | hungUp | cancelled => exact .inl idle
  | prompt => cases (ends_of_write idle).2
  | @wrote _ _ next => cases next <;> cases idle
  | remark _ arrival immediate =>
      rcases ends_of_answer idle with ⟨e, ends, same⟩
      cases same
      refine .inr (.inr ⟨_, ?_, ends⟩)
      rw [resultsAt_take arrival, immediate]
      exact List.mem_singleton_self _
  | answered =>
      rcases ends_of_answer idle with ⟨e, ends, same⟩
      cases same
      exact .inr (.inr ⟨_, List.mem_singleton_self _, ends⟩)
  | _ => cases idle

theorem Run.expired (run : Run s h t) (idle : t.stage = .ended (.error .deadlineExceeded)) :
    s.stage = .ended (.error .deadlineExceeded) ∨ (∃ m ∈ h, ∃ now, m.action = .step now .expire) ∨
      ∃ result ∈ results h, ending? result = some .deadlineExceeded := by
  induction run with
  | start => exact .inl idle
  | @next h t t' e run act ih =>
      rw [results_snoc]
      rcases (change_of_react? act).expired idle with before | ⟨now, gaveUp⟩ | ⟨result, mem, ends⟩
      · rcases ih before with first | ⟨m, mem, gaveUp⟩ | ⟨result, mem, ends⟩
        · exact .inl first
        · exact .inr (.inl ⟨m, List.mem_append_left _ mem, gaveUp⟩)
        · exact .inr (.inr ⟨result, List.mem_append_left _ mem, ends⟩)
      · exact .inr (.inl ⟨_, List.mem_append_right _ List.mem_cons_self, now, gaveUp⟩)
      · exact .inr (.inr ⟨result, List.mem_append_right _ mem, ends⟩)

end Changes

section Input

variable {prompt : String} {maxLength : Nat} {idleLimit : Option Nat} {cancelled : Bool}
  {s s' : Session} {e : Event} {h : List Moment}

theorem Run.going_of_forall (run : Run (start prompt maxLength idleLimit cancelled) h s)
    (none : ∀ m ∈ h, m.action ≠ .inputEnded ∧ m.action ≠ .hungUp) : s.inputEnded = false := by
  by_contra ended
  rcases run.inputEnded_iff.mp (by simpa using ended) with start | ⟨m, mem, ends⟩
  · cases start
  · exact not_or.mpr (none m mem) ends

-- As long as the input has not ended, a line is only taken with its newline.
theorem buffer_of_line {bytes : List UInt8} {rest : Framer} (framed : Framed h s)
    (going : s.inputEnded = false) (arrival : s.arrival? = some (.line bytes rest)) :
    s.framer.buffer = bytes ++ newline :: rest.buffer := by
  rcases finds_arrival framed.searched with ⟨progress, finds, same⟩
  rw [arrival] at same
  cases finds with
  | line plain fits cut =>
      cases same
      exact cut
  | last drained => simp [isDrained, going] at drained
  | overlong | unfinished | exhausted => cases same

theorem Change.received_eq (change : Change s e s') (framed : Framed h s)
    (going : s.inputEnded = false)
    (before : received h = bytesOf (taken h) ++ (s.framer.buffer ++ s.inbox)) :
    received (h ++ [⟨s, e⟩]) =
      bytesOf (taken (h ++ [⟨s, e⟩])) ++ (s'.framer.buffer ++ s'.inbox) := by
  rw [received_snoc, taken_snoc]
  have still (sent : sentAt ⟨s, e⟩ = []) (lines : takenAt ⟨s, e⟩ = [])
      (framer : s'.framer = s.framer) (inbox : s'.inbox = s.inbox) :
      received h ++ sentAt ⟨s, e⟩ =
        bytesOf (taken h ++ takenAt ⟨s, e⟩) ++ (s'.framer.buffer ++ s'.inbox) := by
    rw [sent, lines, List.append_nil, List.append_nil, framer, inbox, before]
  -- The line that is taken and its newline go from what is left to what has been taken.
  have onward {bytes : List UInt8} {rest : Framer} (sent : sentAt ⟨s, e⟩ = [])
      (lines : takenAt ⟨s, e⟩ = [bytes]) (arrival : s.arrival? = some (.line bytes rest))
      (framer : s'.framer = rest) (inbox : s'.inbox = s.inbox) :
      received h ++ sentAt ⟨s, e⟩ =
        bytesOf (taken h ++ takenAt ⟨s, e⟩) ++ (s'.framer.buffer ++ s'.inbox) := by
    rw [sent, lines, bytesOf_snoc, framer, inbox, before, buffer_of_line framed going arrival]
    simp
  cases change with
  | prompt =>
      rcases write_eq (s := s) with ⟨stage, _, after⟩
      rw [after] at still ⊢
      exact still rfl rfl rfl rfl
  | answered =>
      rcases answer_eq (s := s) with ⟨stage, _, after⟩
      rw [after] at still ⊢
      exact still rfl rfl rfl rfl
  | order _ arrival => exact onward rfl (takenAt_take arrival) arrival rfl rfl
  | @remark now since bytes rest result _ arrival =>
      rcases answer_eq (s := { s with framer := rest }) with ⟨stage, _, after⟩
      rw [after] at onward ⊢
      exact onward rfl (takenAt_take arrival) arrival rfl rfl
  | overlong _ arrival => exact still rfl (takenAt_of_no_line (by simp [arrival])) rfl rfl
  | endOfInput _ arrival => exact still rfl (takenAt_of_no_line (by simp [arrival])) rfl rfl
  | read _ unfinished =>
      have same := s.framer.buffer_of_next unfinished
      simp [sentAt, takenAt, before, Framer.add, same]
  | delivered => simp [sentAt, takenAt, before, deliver]
  | @wrote _ _ next => cases next <;> exact still rfl rfl rfl rfl
  | _ => exact still rfl rfl rfl rfl

/-- As long as its input has not ended, a session has been sent the lines that it has taken, with
    their newlines, and what it has not taken. -/
theorem Run.received_eq (run : Run (start prompt maxLength idleLimit cancelled) h s)
    (going : s.inputEnded = false) :
    received h = bytesOf (taken h) ++ (s.framer.buffer ++ s.inbox) := by
  induction run with
  | start => rfl
  | @next h s s' e run act ih =>
      have change := change_of_react? act
      have before := change.going_before going
      exact change.received_eq (Run.framed run) before (ih before)

/-- A session whose input has not ended finds nothing in what it has read exactly if there is no
    newline in it and it is not too long for a line. -/
theorem arrival?_eq_none_iff (searched : s.framer.Searched) (going : s.inputEnded = false) :
    s.arrival? = none ↔
      newline ∉ s.framer.buffer ∧ s.framer.buffer.length ≤ s.framer.maxLength := by
  rcases finds_arrival searched with ⟨progress, finds, same⟩
  have undrained : s.isDrained ≠ true := by simp [isDrained, going]
  rw [same]
  cases finds with
  | line plain fits cut =>
      refine ⟨fun none => (by cases none), fun idle => absurd ?_ idle.1⟩
      rw [cut]
      exact List.mem_append_right _ List.mem_cons_self
  | overlong plain exceeds =>
      exact ⟨fun none => (by cases none), fun idle => absurd idle.2 (Nat.not_le.mpr exceeds)⟩
  | unfinished _ plain fits => exact ⟨fun _ => ⟨plain, fits⟩, fun _ => rfl⟩
  | last drained | exhausted drained => exact absurd drained undrained

-- A session that has read all of an input that has ended finds something.
theorem going_of_arrival? (searched : s.framer.Searched) (inbox : s.inbox = [])
    (nothing : s.arrival? = none) : s.inputEnded = false := by
  rcases finds_arrival searched with ⟨progress, finds, same⟩
  rw [same] at nothing
  cases finds with
  | unfinished going =>
      by_contra ended
      rw [isDrained_iff.mpr ⟨inbox, by simpa using ended⟩] at going
      cases going
  | line | overlong | last | exhausted => cases nothing

-- A session whose limit has passed can read, take what is there, or give up.
theorem exists_step_of_due {since limit now : Nat}
    (waits : s.stage = .awaiting since) (limited : s.idleLimit = some limit)
    (due : since + limit ≤ now) : ∃ step, s.step? now step ≠ none := by
  cases arrival : s.arrival? with
  | some found =>
      refine ⟨.take, ?_⟩
      simp [step?, take?, waits, arrival]
  | none =>
      by_cases inbox : s.inbox = []
      · refine ⟨.expire, ?_⟩
        simp [step?, expire?, deadline?, waits, limited, due, inbox, arrival]
      · have undrained : s.isDrained = false := by
          simp [isDrained, inbox]
        -- What has been read is no line, and there is more.
        cases next : s.framer.next with
        | unfinished searched =>
            refine ⟨.read 1, ?_⟩
            simp [step?, read?, waits, next, inbox]
        | line | overlong | exhausted => simp [arrival?_eq, undrained, next, arrivalOf] at arrival

/-- A session that waits has begun to at some moment. Since then it has waited and has not taken a
    line. -/
theorem Run.waited {since : Nat} (run : Run (start prompt maxLength idleLimit cancelled) h s)
    (waits : s.stage = .awaiting since) : ∃ g m, WaitsSince h g m since := by
  induction run with
  | start => cases waits
  | @next h s s' e run act ih =>
      rcases (change_of_react? act).awaiting_cases waits with ⟨lines, before | ⟨own, free⟩⟩
      · rcases ih before with ⟨g, m, begins, ⟨rest, rfl, all⟩, same⟩
        refine ⟨g, m, begins, ⟨rest ++ [⟨s, e⟩], by simp, fun m' mem => ?_⟩, ?_⟩
        · rcases List.mem_append.mp mem with mem | mem
          · exact all m' mem
          · cases List.mem_singleton.mp mem
            exact ⟨since, before⟩
        · rw [taken_snoc, lines, List.append_nil, same]
      · refine ⟨h, ⟨s, e⟩, ⟨own, ?_, s', act, since, waits⟩, ⟨[], rfl, fun m' mem => ?_⟩, ?_⟩
        · rintro ⟨earlier, stage⟩
          exact free earlier stage
        · cases mem
        · rw [taken_snoc, lines, List.append_nil]

/-- A session that waits, and has begun to before the first of some moments, has waited at all of
    them and has taken no line. -/
theorem Run.still_waits {since : Nat} (run : Run s h s') (waits : s'.stage = .awaiting since)
    (late : ∀ m ∈ h, ∀ step, m.action ≠ .step since step) :
    s.stage = .awaiting since ∧ taken h = [] ∧ ∀ m ∈ h, m.before.Waits := by
  induction run with
  | start => exact ⟨waits, rfl, fun m mem => by cases mem⟩
  | @next h t t' e run act ih =>
      rcases (change_of_react? act).awaiting_cases waits with ⟨lines, before | ⟨⟨step, own⟩, _⟩⟩
      · rcases ih before fun m mem => late m (List.mem_append_left _ mem) with ⟨first, none, all⟩
        refine ⟨first, by rw [taken_snoc, lines, none]; rfl, fun m mem => ?_⟩
        rcases List.mem_append.mp mem with mem | mem
        · exact all m mem
        · cases List.mem_singleton.mp mem
          exact ⟨since, before⟩
      · exact absurd own (late _ (List.mem_append_right _ List.mem_cons_self) step)

theorem WaitsSince.append {g h' : List Moment} {m : Moment} {since : Nat}
    (waited : WaitsSince h g m since) (none : taken h' = []) (all : ∀ m ∈ h', m.before.Waits) :
    WaitsSince (h ++ h') g m since := by
  rcases waited with ⟨begins, ⟨rest, rfl, before⟩, lines⟩
  refine ⟨begins, ⟨rest ++ h', by simp, fun m mem => ?_⟩, ?_⟩
  · rcases List.mem_append.mp mem with mem | mem
    · exact before m mem
    · exact all m mem
  · rw [taken_append, none, List.append_nil, lines]

/-- A session that waits and has nothing to do lacks a line. -/
theorem Run.lacks (run : Run (start prompt maxLength idleLimit cancelled) h s)
    (inbox : s.inbox = []) (nothing : s.arrival? = none) : Lacks maxLength (taken h) h := by
  have searched := (Run.framed run).searched
  have going := going_of_arrival? searched inbox nothing
  have part := (arrival?_eq_none_iff searched going).mp nothing
  rw [run.maxLength_eq] at part
  refine ⟨⟨s.framer.buffer, ?_, part⟩, fun m mem => not_or.mp fun ends => ?_⟩
  · rw [run.received_eq going, inbox, List.append_nil]
  · rw [run.inputEnded_iff.mpr (.inr ⟨m, mem, ends⟩)] at going
    cases going

/-- What a session lacks is not there before. -/
theorem WaitsSince.lacks {g : List Moment} {m : Moment} {since : Nat}
    (waited : WaitsSince h g m since)
    (run : Run (start prompt maxLength idleLimit cancelled) h s)
    (lacks : Lacks maxLength (taken g) h) : Lacks maxLength (taken g) (g ++ [m]) := by
  rcases waited with ⟨begins, ⟨rest, rfl, _⟩, lines⟩
  rw [List.append_cons] at run lacks
  rcases run.through with ⟨t, first, _⟩
  have none : ∀ m' ∈ g ++ [m], m'.action ≠ .inputEnded ∧ m'.action ≠ .hungUp :=
    fun m' mem => lacks.going m' (List.mem_append_left _ mem)
  have going := Run.going_of_forall first none
  rcases lacks.unfinished with ⟨part, sent, plain, fits⟩
  -- What has come until then is a part of what has come later.
  rw [received_append, Run.received_eq first going, taken_snoc, begins.takenAt_eq,
    List.append_nil, List.append_assoc, List.append_cancel_left_eq] at sent
  refine ⟨⟨t.framer.buffer ++ t.inbox, ?_, ?_, ?_⟩, none⟩
  · rw [Run.received_eq first going, taken_snoc, begins.takenAt_eq, List.append_nil]
  · rw [← sent] at plain
    exact fun mem => plain (List.mem_append_left _ mem)
  · rw [← sent, List.length_append] at fits
    omega

-- Nothing comes at moments that bring no input.
theorem Lacks.append {h' : List Moment} {lines : List (List UInt8)}
    (lacks : Lacks maxLength lines h) (quiet : ∀ m ∈ h', m.action.isInput = false) :
    Lacks maxLength lines (h ++ h') := by
  have nothing : received h' = [] := by
    refine List.flatMap_eq_nil_iff.mpr fun m mem => ?_
    have quiet := quiet m mem
    rcases m with ⟨t, e⟩
    cases e <;> first | rfl | cases quiet
  refine ⟨?_, fun m mem => ?_⟩
  · rw [received_append, nothing, List.append_nil]
    exact lacks.unfinished
  · rcases List.mem_append.mp mem with mem | mem
    · exact lacks.going m mem
    · have quiet := quiet m mem
      constructor <;> intro ends <;> rw [ends] at quiet <;> cases quiet

/-- As long as nothing comes that it can take, a session that has begun to wait goes on to, until
    it gives up. -/
theorem Run.waits_or_expires {h₁ h₂ : List Moment} {m : Moment} {now : Nat}
    {part more : List UInt8}
    (run : Run (start prompt maxLength idleLimit cancelled) (h₁ ++ m :: h₂) s)
    (begins : BeginsToWait m now)
    (within : received (h₁ ++ m :: h₂) ++ more = bytesOf (taken h₁) ++ part)
    (plain : newline ∉ part) (fits : part.length ≤ maxLength)
    (going : s.inputEnded = false) (calm : s.cancelled = false) :
    s.stage = .awaiting now ∧ taken (h₁ ++ m :: h₂) = taken h₁ ∨
      ∃ e ∈ h₂, ∃ later limit, e.action = .step later .expire ∧ s.idleLimit = some limit ∧
        now + limit ≤ later := by
  induction h₂ using List.reverseRecOn generalizing s more with
  | nil =>
      rcases m with ⟨t, e⟩
      rcases run.unsnoc with ⟨_, act⟩
      rcases begins.waits with ⟨next, react, since, waits⟩
      cases act.symm.trans react
      rcases begins.own with ⟨step, rfl⟩
      rcases (change_of_react? act).awaiting_cases waits with ⟨lines, before | ⟨⟨_, same⟩, _⟩⟩
      · exact absurd ⟨since, before⟩ begins.free
      · cases same
        rw [taken_snoc, lines, List.append_nil]
        exact .inl ⟨waits, rfl⟩
  | append_singleton h₂ last ih =>
      rcases last with ⟨t, e⟩
      rw [← List.cons_append, ← List.append_assoc] at run within ⊢
      rcases run.unsnoc with ⟨before, act⟩
      have change := change_of_react? act
      have going := change.going_before going
      have calm := change.calm_before calm
      rw [received_snoc, List.append_assoc] at within
      rcases ih before within going calm with ⟨waits, same⟩ | ⟨e, mem, later, limit, gaveUp⟩
      · -- What it has read is a part of what has come for this wait.
        rw [Run.received_eq before going, same, List.append_assoc,
          List.append_cancel_left_eq] at within
        have nothing : t.arrival? = none := by
          rw [arrival?_eq_none_iff (Run.framed before).searched going, Run.maxLength_eq before]
          rw [← within, List.append_assoc] at plain fits
          rw [List.length_append] at fits
          exact ⟨fun mem => plain (List.mem_append_left _ mem), by omega⟩
        rcases change.of_awaiting waits calm going nothing with
          ⟨still, lines⟩ | ⟨later, limit, rfl, limited, passed⟩
        · rw [taken_snoc, lines, List.append_nil]
          exact .inl ⟨still, same⟩
        · refine .inr ⟨_, List.mem_append_right _ List.mem_cons_self, later, limit, rfl, ?_, passed⟩
          exact change.flags.1.trans limited
      · refine .inr ⟨e, List.mem_append_left _ mem, later, limit, gaveUp.1, ?_, gaveUp.2.2⟩
        exact change.flags.1.trans gaveUp.2.1

end Input

end Session

end ShardConsole
