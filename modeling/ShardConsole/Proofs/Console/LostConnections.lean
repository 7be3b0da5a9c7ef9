import ShardConsole.Proofs.Console.Conversations

/-!
# Lost Connections

What a session still does to which no operator listens any more.

A session is never ahead of what it has written. It takes a line only when the answers to the
lines before it and the prompt have been written, and a text that cannot be written ends it. So a
session whose outlet is lost comes to an end at the first text that it has to write. Only texts
that are empty need no writing. A session without a prompt may therefore handle any number of
lines whose answers are empty, but the answer to a deletion never is.

That nothing can be written says nothing about the input. Any number of lines may have arrived
by then, and more may come. They are still read, and nothing but the texts between them keeps a
session from handling them all.

As for a cancelled session, what is left to the session depends on where it is when its outlet is
lost: `Stage.linesUnheard` and `Stage.resultsUnheard` say how many lines it may still take and how
many results it may still get if it has a prompt, and `Seat.deletionsLeft` how many deletions it
may still begin in any case. Whatever happens later is taken from that.

## Main definitions

* `Session.Stage.linesUnheard`, `Session.Stage.resultsUnheard`: What is left to a session that has
  a prompt to write and cannot.
* `Session.Stage.isShut`: Whether a session that cannot write gets no more results.
* `Session.Unheard`: What a session still does whose outlet is lost.
* `Seat.deletionsLeft`: How many deletions such a session may still begin.
* `Console.deletions`: The deletions that a session has begun.
* `Console.KeepsPace`: A session is not ahead of what it has written.
* `Console.Abandoned`: What is left to a session of a console whose outlet is lost.

## Theorems

* `Session.step?_of_unwritten`: A text that cannot be written ends the session, and nothing else
  can happen.
* `Session.Run.unheard`: A session whose outlet is lost does no more than is left to it.
* `Console.Run.deletions_le`: It begins no more deletions than are left to it.
* `Console.Run.keepsPace`: Every session keeps pace.
* `Console.Run.lost_connection`: How a lost connection stops a session.
-/

namespace ShardConsole

namespace Session

/-- How many lines a session may still take that has a prompt to write and cannot. -/
def Stage.linesUnheard : Stage → Nat
  | .awaiting _ => 1
  | _ => 0

/-- How many results a session may still get that has a prompt to write and cannot. -/
def Stage.resultsUnheard : Stage → Nat
  | .awaiting _ | .executing _ => 1
  | _ => 0

theorem Stage.unheard_le_one (stage : Stage) :
    stage.linesUnheard ≤ 1 ∧ stage.resultsUnheard ≤ 1 := by
  cases stage <;> simp [linesUnheard, resultsUnheard]

theorem Stage.awaiting_of_linesUnheard {stage : Stage} (pos : 0 < stage.linesUnheard) :
    ∃ since, stage = .awaiting since := by
  cases stage with
  | awaiting since => exact ⟨since, rfl⟩
  | _ => cases pos

/-- Whether a session gets no more results if it cannot write: it is over, or has to write. -/
def Stage.isShut : Stage → Bool
  | .writing _ _ | .ended _ | .broken => true
  | _ => false

/-- What a session still does whose outlet was lost in a state. -/
structure Unheard (s : Session) (h : List Moment) (s' : Session) : Prop where
  outlet : s'.outlet = .lost
  written : s'.written = s.written
  prompt : s'.prompt = s.prompt
  shut : s.stage.isShut = true → s'.stage.isShut = true ∧ taken h = [] ∧ results h = []
  /-- A session that is shut has ended, or it ends because of the text that it has to write. -/
  lost : s.stage.isShut = true →
    s'.stage = s.stage ∨ s'.stage = .ended (.error (.io "broken pipe"))
  /-- An answer that has to be written is the last one. -/
  quiet : (∀ result ∈ results h, response result = "") ∨ s'.stage.isShut = true ∧
    ∃ before last, results h = before ++ [last] ∧ ∀ result ∈ before, response result = ""
  lines : s.prompt ≠ "" → s'.stage.linesUnheard + (taken h).length ≤ s.stage.linesUnheard
  answers : s.prompt ≠ "" → s'.stage.resultsUnheard + (results h).length ≤ s.stage.resultsUnheard

section Writing

variable {s s' : Session} {e : Event} {now : Nat} {next : Next} {text : String}
  {result : Except Error String} {rest : List UInt8}

/-- A text that cannot be written ends the session, and nothing else can happen. -/
theorem step?_of_unwritten (stage : s.stage = .writing rest next) (lost : s.outlet = .lost)
    (now : Nat) (step : Step) : s.step? now step = some s' ↔
      step = .failWrite ∧ s' = { s with stage := .ended (.error (.io "broken pipe")) } := by
  constructor
  · intro moved
    cases change_of_step? moved with
    | failWrite => exact ⟨rfl, rfl⟩
    | write _ taken | wrote _ taken => cases lost.symm.trans taken
    | notice other | begin other | prompt other | read other | failRead other | order other
    | remark other | overlong other | endOfInput other | leave other | expire other =>
        cases stage.symm.trans other
  · rintro ⟨rfl, rfl⟩
    simp only [step?, failWrite?, stage, if_pos lost]

-- A session that has to write something has it to write.
theorem write_of_ne_empty (some : text ≠ "") :
    s.write now text next = { s with stage := .writing (Utf8.encode text) next } := by
  rw [write, if_neg (by simpa [String.isEmpty_iff] using some)]

-- Behind an answer a session is shut, unless there is nothing to write and it begins again.
theorem shut_or_quiet_of_answer (now : Nat) (result : Except Error String) :
    (s.answer now result).stage.isShut = true ∨
      (response result = "" ∧ (s.answer now result).stage = .ready) := by
  cases ends : ending? result with
  | none =>
      rw [answer_of_open ends]
      by_cases quiet : response result = ""
      · rw [quiet]
        exact Or.inr ⟨rfl, rfl⟩
      · rw [write_of_ne_empty quiet]
        exact Or.inl rfl
  | some e =>
      by_cases leaves : result = .error .quit
      · subst leaves
        rw [answer_quit, write_of_ne_empty (by decide)]
        exact Or.inl rfl
      · rw [answer_of_ending ends leaves]
        exact Or.inl rfl

theorem unheard_of_answer (now : Nat) (result : Except Error String) :
    (s.answer now result).stage.linesUnheard = 0 ∧
      (s.answer now result).stage.resultsUnheard = 0 := by
  rcases shut_or_quiet_of_answer (s := s) now result with shut | ⟨_, ready⟩
  · generalize (s.answer now result).stage = stage at shut
    cases stage <;> first | exact ⟨rfl, rfl⟩ | cases shut
  · rw [ready]
    exact ⟨rfl, rfl⟩

-- What is lost stays lost, and nothing is written then.
theorem Change.lost (change : Change s e s') (lost : s.outlet = .lost) :
    s'.outlet = .lost ∧ s'.written = s.written := by
  cases change with
  | write _ taken | wrote _ taken => cases lost.symm.trans taken
  | prompt =>
      rcases write_eq (s := s) with ⟨stage, _, after⟩
      rw [after]
      exact ⟨lost, rfl⟩
  | answered =>
      rcases answer_eq (s := s) with ⟨stage, _, after⟩
      rw [after]
      exact ⟨lost, rfl⟩
  | @remark now since bytes rest =>
      rcases answer_eq (s := { s with framer := rest }) with ⟨stage, _, after⟩
      rw [after]
      exact ⟨lost, rfl⟩
  | @outletSet outlet => exact ⟨outlet_setOutlet lost outlet, rfl⟩
  | hungUp => exact ⟨rfl, rfl⟩
  | _ => exact ⟨lost, rfl⟩

end Writing

section Unheard

variable {s t t' : Session} {e : Event} {h h' : List Moment} {now : Nat} {next : Next}
  {text : String} {result : Except Error String}

theorem Unheard.start (lost : s.outlet = .lost) : Unheard s [] s where
  outlet := lost
  written := rfl
  prompt := rfl
  shut still := ⟨still, rfl, rfl⟩
  lost _ := Or.inl rfl
  quiet := Or.inl fun _ mem => absurd mem List.not_mem_nil
  lines _ := Nat.le_refl _
  answers _ := Nat.le_refl _

theorem Unheard.trans (first : Unheard s h t) (last : Unheard t h' t') :
    Unheard s (h ++ h') t' where
  outlet := last.outlet
  written := last.written.trans first.written
  prompt := last.prompt.trans first.prompt
  shut still := by
    rcases first.shut still with ⟨shut, lines, answers⟩
    rcases last.shut shut with ⟨shut', lines', answers'⟩
    exact ⟨shut', by rw [taken_append, lines, lines']; rfl,
      by rw [results_append, answers, answers']; rfl⟩
  lost still := by
    rcases last.lost (first.shut still).1 with same | lost
    · rw [same]
      exact first.lost still
    · exact Or.inr lost
  quiet := by
    rw [results_append]
    rcases first.quiet with quiet | ⟨shut, before, final, whole, quiet⟩
    · rcases last.quiet with quiet' | ⟨shut, before, final, whole, quiet'⟩
      · exact Or.inl fun result mem => (List.mem_append.mp mem).elim (quiet result) (quiet' result)
      · refine Or.inr ⟨shut, results h ++ before, final, by rw [whole, List.append_assoc], ?_⟩
        exact fun result mem => (List.mem_append.mp mem).elim (quiet result) (quiet' result)
    · rcases last.shut shut with ⟨shut', _, none⟩
      rw [none, List.append_nil]
      exact Or.inr ⟨shut', before, final, whole, quiet⟩
  lines some := by
    have one := first.lines some
    have two := last.lines (first.prompt ▸ some)
    rw [taken_append, List.length_append]
    omega
  answers some := by
    have one := first.answers some
    have two := last.answers (first.prompt ▸ some)
    rw [results_append, List.length_append]
    omega

-- Whatever happens to a session that is not shut.
theorem unheard_of_open (change : Change t e t') (lost : t.outlet = .lost)
    (opened : t.stage.isShut = false)
    (quiet : resultsAt ⟨t, e⟩ = [] ∨ ∃ result, resultsAt ⟨t, e⟩ = [result] ∧
      (t'.stage.isShut = true ∨ response result = ""))
    (lines : t.prompt ≠ "" →
      t'.stage.linesUnheard + (takenAt ⟨t, e⟩).length ≤ t.stage.linesUnheard)
    (answers : t.prompt ≠ "" →
      t'.stage.resultsUnheard + (resultsAt ⟨t, e⟩).length ≤ t.stage.resultsUnheard) :
    Unheard t [⟨t, e⟩] t' where
  outlet := (change.lost lost).1
  written := (change.lost lost).2
  prompt := change.prompt_eq
  shut still := by cases opened.symm.trans still
  lost still := by cases opened.symm.trans still
  quiet := by
    have one : results [⟨t, e⟩] = resultsAt ⟨t, e⟩ := List.flatMap_singleton _ _
    rw [one]
    rcases quiet with none | ⟨result, only, shut | empty⟩
    · rw [none]
      exact Or.inl fun _ mem => absurd mem List.not_mem_nil
    · exact Or.inr ⟨shut, [], result, only, fun _ mem => absurd mem List.not_mem_nil⟩
    · rw [only]
      exact Or.inl fun other mem => List.mem_singleton.mp mem ▸ empty
  lines := by
    have one : taken [⟨t, e⟩] = takenAt ⟨t, e⟩ := List.flatMap_singleton _ _
    rwa [one]
  answers := by
    have one : results [⟨t, e⟩] = resultsAt ⟨t, e⟩ := List.flatMap_singleton _ _
    rwa [one]

/-- Whatever happens to a session whose outlet is lost is taken from what is left to it. -/
theorem Change.unheard (change : Change t e t') (lost : t.outlet = .lost) :
    Unheard t [⟨t, e⟩] t' := by
  have moving := unheard_of_open change lost
  -- Nothing is taken and nothing is answered.
  have idle (opened : t.stage.isShut = false) (lines : takenAt ⟨t, e⟩ = [])
      (none : resultsAt ⟨t, e⟩ = [])
      (left : t.prompt ≠ "" → t'.stage.linesUnheard ≤ t.stage.linesUnheard ∧
        t'.stage.resultsUnheard ≤ t.stage.resultsUnheard) : Unheard t [⟨t, e⟩] t' := by
    refine moving opened (Or.inl none) (fun some => ?_) fun some => ?_
    · rw [lines]
      exact (left some).1
    · rw [none]
      exact (left some).2
  -- The stage stays as it is.
  have still (same : t'.stage = t.stage) (lines : takenAt ⟨t, e⟩ = [])
      (none : resultsAt ⟨t, e⟩ = []) : Unheard t [⟨t, e⟩] t' := by
    have no_lines : taken [⟨t, e⟩] = [] := by rw [taken, List.flatMap_singleton, lines]
    have no_results : results [⟨t, e⟩] = [] := by rw [results, List.flatMap_singleton, none]
    refine ⟨(change.lost lost).1, (change.lost lost).2, change.prompt_eq,
      fun shut => ⟨same ▸ shut, no_lines, no_results⟩, fun _ => Or.inl same,
      Or.inl fun _ mem => ?_, fun _ => ?_, fun _ => ?_⟩
    · rw [no_results] at mem
      cases mem
    · rw [no_lines, same]
      exact Nat.le_refl _
    · rw [no_results, same]
      exact Nat.le_refl _
  cases change with
  | notice stage | begin stage | failRead stage | leave stage | expire stage =>
      exact idle (by rw [stage]; rfl) rfl rfl fun _ => ⟨Nat.zero_le _, Nat.zero_le _⟩
  | brokeDown stage =>
      exact idle (by rw [stage]; rfl) rfl rfl fun _ => ⟨Nat.zero_le _, Nat.zero_le _⟩
  | overlong stage arrived | endOfInput stage arrived =>
      exact idle (by rw [stage]; rfl) (takenAt_of_no_line (by simp [arrived]))
        (resultsAt_of_no_line (by simp [arrived])) fun _ => ⟨Nat.zero_le _, Nat.zero_le _⟩
  | read => exact still rfl rfl rfl
  | delivered | inputEnded | outletSet | hungUp | cancelled => exact still rfl rfl rfl
  | prompt stage =>
      refine idle (by rw [stage]; rfl) rfl rfl fun some => ?_
      rw [write_of_ne_empty some]
      exact ⟨Nat.zero_le _, Nat.zero_le _⟩
  | write _ taken | wrote _ taken => cases lost.symm.trans taken
  | failWrite =>
      exact ⟨lost, rfl, rfl, fun _ => ⟨rfl, rfl, rfl⟩, fun _ => Or.inr rfl,
        Or.inl fun _ mem => absurd mem List.not_mem_nil, fun _ => Nat.zero_le _,
        fun _ => Nat.zero_le _⟩
  | @order now _ _ _ _ stage arrived parsed =>
      have none : resultsAt ⟨t, .step now .take⟩ = [] := by
        rw [resultsAt_take arrived, immediate?, parsed]
        rfl
      refine moving (by rw [stage]; rfl) (Or.inl none) (fun _ => ?_)
        fun _ => ?_
      · rw [takenAt_take arrived, stage]
        exact Nat.le_refl _
      · rw [none, stage]
        exact Nat.le_refl _
  | @remark now since bytes rest result stage arrived immediate =>
      have only : resultsAt ⟨t, .step now .take⟩ = [result] := by
        rw [resultsAt_take arrived, immediate]
        rfl
      rcases unheard_of_answer (s := { t with framer := rest }) now result with ⟨lines, answers⟩
      refine moving (by rw [stage]; rfl) (Or.inr ⟨result, only, ?_⟩)
        (fun _ => ?_) fun _ => ?_
      · exact (shut_or_quiet_of_answer now result).imp id And.left
      · rw [takenAt_take arrived, lines, stage]
        exact Nat.le_refl _
      · rw [only, answers, stage]
        exact Nat.le_refl _
  | @answered now result command stage =>
      rcases unheard_of_answer (s := t) now result with ⟨lines, answers⟩
      refine moving (by rw [stage]; rfl) (Or.inr ⟨result, rfl, ?_⟩)
        (fun _ => ?_) fun _ => ?_
      · exact (shut_or_quiet_of_answer now result).imp id And.left
      · rw [lines, stage]
        exact Nat.le_refl _
      · rw [answers, stage]
        exact Nat.le_refl _

/-- A session whose outlet is lost does no more than is left to it. -/
theorem Run.unheard (run : Run s h t) (lost : s.outlet = .lost) : Unheard s h t := by
  induction run with
  | start => exact .start lost
  | next _ act ih => exact ih.trans ((change_of_react? act).unheard ih.outlet)

end Unheard

end Session

/-- How many deletions a session may still begin that cannot write: none when it has to write, is
    over, or has begun one that has no result yet. -/
def Console.Seat.deletionsLeft (seat : Console.Seat) : Nat :=
  match seat.session.stage, seat.call with
  | .executing (.delete _ _), some _ => 0
  | stage, _ => if stage.isShut then 0 else 1

namespace Console

open Session (taken takenAt results response transcript)

/-- The deletion that a session begins at a moment, if it begins one. -/
def deletionsAt (s : SessionId) (m : Moment) : List Command :=
  match m.action, m.before.seats[s]? with
  | .step (.execute t), some seat =>
    match seat.session.stage with
    | .executing (.delete kind names) => if t = s then [.delete kind names] else []
    | _ => []
  | _, _ => []

/-- The deletions that a session has begun, in their order. -/
def deletions (s : SessionId) (h : List Moment) : List Command :=
  h.flatMap (deletionsAt s)

section Deletions

variable {start c c' : Console} {h later : List Moment} {s : SessionId} {seat seat' : Seat}
  {a : Action} {kind : Kind} {names : List String} {call : Pool.CallId}
  {result : Except Unavailable Pool.Reply}

@[simp] theorem deletions_snoc (m : Moment) :
    deletions s (h ++ [m]) = deletions s h ++ deletionsAt s m := by
  simp only [deletions, List.flatMap_append, List.flatMap_singleton]

theorem deletionsLeft_le_one (seat : Seat) : seat.deletionsLeft ≤ 1 := by
  unfold Seat.deletionsLeft
  split
  · exact Nat.zero_le _
  · split <;> decide

-- The call of a deletion gives a number, or it fails.
theorem Run.count_of_seated (run : Run start h c) (fresh : start.IsFresh)
    (hs : c.seats[s]? = some seat) (seated : seat.call = some call)
    (stage : seat.session.stage = .executing (.delete kind names))
    (returned : c.pool.result? call = some result) : Pool.IsCount result := by
  rcases run.seated fresh hs seated with ⟨command, same, begins⟩
  cases stage.symm.trans same
  rcases begins.begun with ⟨_, _, _, request, asks, begun⟩
  cases asks
  exact run.pool.count_of_result fresh.pool begun returned

-- The answer to a deletion has to be written.
theorem shut_of_deletion {session : Session} (now : Nat) (counts : Pool.IsCount result) :
    (session.answer now ((Command.delete kind names).outcome result)).stage.isShut = true := by
  cases counts with
  | failed cause => rfl
  | removed count =>
      have some : Command.deletedText count kind ≠ "" := by
        intro empty
        have none := congrArg String.toList empty
        simp [Command.deletedText] at none
      show (session.write now (Command.deletedText count kind) .again).stage.isShut = true
      rw [Session.write_of_ne_empty some]
      rfl

theorem deletionsLeft_eq_zero_iff : seat.deletionsLeft = 0 ↔
    seat.session.stage.isShut = true ∨ ∃ kind names call,
      seat.session.stage = .executing (.delete kind names) ∧ seat.call = some call := by
  rcases seat with ⟨session, call⟩
  unfold Seat.deletionsLeft
  split
  · rename_i kind names id stage seated
    exact ⟨fun _ => Or.inr ⟨kind, names, id, stage, seated⟩, fun _ => rfl⟩
  · rename_i other
    constructor
    · intro none
      refine Or.inl ?_
      by_contra opened
      rw [if_neg opened] at none
      cases none
    · rintro (shut | ⟨kind, names, id, stage, seated⟩)
      · rw [if_pos shut]
      · exact absurd seated (other kind names id stage)

/-- Nothing gives a session another deletion that has none left. -/
theorem Run.deletionsLeft_eq_zero (run : Run start h c) (fresh : start.IsFresh)
    (hs : c.seats[s]? = some seat) (lost : seat.session.outlet = .lost)
    (changed : SeatChange c s seat a seat') (none : seat.deletionsLeft = 0) :
    seat'.deletionsLeft = 0 := by
  rw [deletionsLeft_eq_zero_iff] at none ⊢
  cases changed with
  | stay | sent | inputEnded | outletSet | hungUp | left | cancelled | shutDown => exact none
  | step moved =>
      rcases none with shut | ⟨kind, names, call, stage, _⟩
      · exact Or.inl (((Session.change_of_step? moved).unheard lost).shut shut).1
      · exact absurd moved (step?_of_executing stage)
  | done free stage | called free stage | broken free stage =>
      rcases none with shut | ⟨_, _, _, _, seated⟩
      · rw [stage] at shut
        cases shut
      · cases free.symm.trans seated
  | resumed seated returned stage =>
      rcases none with shut | ⟨kind, names, _, same, _⟩
      · rw [stage] at shut
        cases shut
      · cases stage.symm.trans same
        exact Or.inl (shut_of_deletion _ (run.count_of_seated fresh hs seated stage returned))

-- What a session begins at a moment is the deletion that it was to execute.
theorem of_deletionsAt (hs : c.seats[s]? = some seat) (begins : deletionsAt s ⟨c, a⟩ ≠ []) :
    a = .step (.execute s) ∧ (deletionsAt s ⟨c, a⟩).length = 1 ∧
      ∃ kind names, seat.session.stage = .executing (.delete kind names) := by
  rw [deletionsAt] at begins ⊢
  split at begins
  · rename_i t seat' executed there
    cases hs.symm.trans there
    split at begins
    · rename_i kind names stage
      split at begins
      · rename_i here
        subst here
        simp only [stage, if_pos]
        exact ⟨executed, rfl, kind, names, rfl⟩
      · exact absurd rfl begins
    · exact absurd rfl begins
  · exact absurd rfl begins

/-- A session that begins a deletion had one left, and has none left then. -/
theorem Change.deletionsLeft_of_begun (change : Change c a c') (hs : c.seats[s]? = some seat)
    (hs' : c'.seats[s]? = some seat') (begins : deletionsAt s ⟨c, a⟩ ≠ []) :
    (deletionsAt s ⟨c, a⟩).length = 1 ∧ seat.deletionsLeft = 1 ∧ seat'.deletionsLeft = 0 := by
  rcases of_deletionsAt hs begins with ⟨rfl, one, kind, names, stage⟩
  refine ⟨one, ?_⟩
  cases change with
  | done there _ same execution | broken there _ same execution =>
      cases hs.symm.trans there
      cases stage.symm.trans same
      cases congrArg Prod.snd execution
  | called there free same =>
      cases hs.symm.trans there
      rw [getElem?_modifySeat, if_pos rfl] at hs'
      cases (congrArg (Option.map _) hs).symm.trans hs'
      constructor
      · rw [Seat.deletionsLeft, stage, free]
        rfl
      · exact deletionsLeft_eq_zero_iff.mpr (Or.inr ⟨kind, names, _, stage, rfl⟩)

/-- Every deletion that a session begins is taken from those that are left to it. -/
theorem Run.deletionsLeft_le (run : Run start h c) (fresh : start.IsFresh)
    (hs : c.seats[s]? = some seat) (lost : seat.session.outlet = .lost)
    (change : Change c a c') (hs' : c'.seats[s]? = some seat') :
    seat'.deletionsLeft + (deletionsAt s ⟨c, a⟩).length ≤ seat.deletionsLeft := by
  by_cases begins : deletionsAt s ⟨c, a⟩ = []
  · rw [begins, List.length_nil, Nat.add_zero]
    rcases change.seatChange hs with ⟨now, there, changed⟩
    cases hs'.symm.trans there
    by_cases none : seat.deletionsLeft = 0
    · exact (run.deletionsLeft_eq_zero fresh hs lost changed none).symm ▸ Nat.zero_le _
    · have most := deletionsLeft_le_one seat'
      omega
  · rcases change.deletionsLeft_of_begun hs hs' begins with ⟨one, before, after⟩
    omega

/-- A session whose outlet is lost begins no more deletions than are left to it. -/
theorem Run.deletions_le (run : Run start h c) (fresh : start.IsFresh)
    (hs : c.seats[s]? = some seat) (lost : seat.session.outlet = .lost)
    (goesOn : Run c later c') (hs' : c'.seats[s]? = some seat') :
    seat'.deletionsLeft + (deletions s later).length ≤ seat.deletionsLeft := by
  induction goesOn generalizing seat' with
  | start =>
      cases hs.symm.trans hs'
      exact Nat.le_refl _
  | next soFar act ih =>
      rcases Run.session_later soFar hs with ⟨now, there, so⟩
      have next := Run.deletionsLeft_le (run.trans soFar) fresh there (so.unheard lost).outlet
        (change_of_react? act) hs'
      have before := ih there
      rw [deletions_snoc, List.length_append]
      omega

end Deletions

/-- A session takes and executes a line only when everything that comes before it has been
    written. -/
structure KeepsPace (h : List Moment) (s : SessionId) (session : Session) : Prop where
  /-- At no time has anything been written but the transcript. -/
  written : session.written.toList <+:
    Utf8.encode (transcript session.prompt (results (history s h)))
  handled : ∀ (i : Nat) (line : List UInt8) (result : Except Error String),
    (taken (history s h))[i]? = some line → (results (history s h))[i]? = some result →
      Handled h s i line result
  /-- When a line is taken, the answers to the lines before it and the prompt for it have been
      written. -/
  taking : ∀ h₁ m h₂, history s h = h₁ ++ m :: h₂ → takenAt m ≠ [] → Session.Level h₁ ∧
    m.before.written.toList = Utf8.encode (transcript session.prompt (results h₁))
  /-- Nothing has changed when its command is executed. -/
  executing : ∀ h₁ m h₂ seat command, h = h₁ ++ m :: h₂ → m.action = .step (.execute s) →
    m.before.seats[s]? = some seat → seat.session.stage = .executing command →
      Session.Busy (history s h₁) command ∧ seat.session.written.toList =
        Utf8.encode (transcript session.prompt (results (history s h₁)))

/-- What a session still does whose outlet is lost. -/
structure Abandoned (later : List Moment) (s : SessionId) (seat seat' : Seat) : Prop where
  written : seat'.session.written = seat.session.written
  /-- A session that has something to write ends because of it. -/
  lost : ∀ rest next, seat.session.stage = .writing rest next →
    taken (history s later) = [] ∧ (seat'.session.stage = .writing rest next ∨
      seat'.session.stage = .ended (.error (.io "broken pipe")))
  deletions : (deletions s later).length ≤ seat.deletionsLeft ∧ seat.deletionsLeft ≤ 1
  /-- An answer that has to be written is the last one. -/
  quiet : ∀ before result after, results (history s later) = before ++ result :: after →
    response result ≠ "" → after = [] ∧ seat'.session.stage.isShut = true
  /-- With a prompt there is at most one more line, for which the session was waiting. -/
  prompted : seat.session.prompt ≠ "" →
    (taken (history s later)).length ≤ 1 ∧ (results (history s later)).length ≤ 1 ∧
      (taken (history s later) ≠ [] → ∃ since, seat.session.stage = .awaiting since)

section Pace

variable {start c c' : Console} {h later : List Moment} {s : SessionId} {seat seat' : Seat}

theorem Run.keepsPace (run : Run start h c) (fresh : start.IsFresh)
    (hs : c.seats[s]? = some seat) : KeepsPace h s seat.session := by
  rcases run.session fresh hs with ⟨prompt, maxLength, idleLimit, cancelled, so⟩
  have same : seat.session.prompt = prompt := so.prompt_eq
  refine ⟨so.written_prefix, fun i line result hl hr => run.handled fresh hs hl hr, ?_, ?_⟩
  · intro h₁ m h₂ split takes
    rw [split] at so
    rw [same]
    exact so.level_of_taken takes
  · rintro h₁ m h₂ earlier command rfl executed there stage
    rcases Run.session run.split.1 fresh there with ⟨_, _, _, _, before⟩
    have stands := before.stands
    rw [Session.Stands, stage] at stands
    -- The session has kept its prompt.
    rcases Run.session_later run.onward there with ⟨now, hn, so'⟩
    cases hs.symm.trans hn
    rw [so'.prompt_eq]
    exact stands

theorem abandoned_of_unheard
    (unheard : Session.Unheard seat.session (history s later) seat'.session)
    (most : (deletions s later).length ≤ seat.deletionsLeft) : Abandoned later s seat seat' where
  written := unheard.written
  lost rest next stage := by
    have shut : seat.session.stage.isShut = true := by rw [stage]; rfl
    refine ⟨(unheard.shut shut).2.1, ?_⟩
    rw [← stage]
    exact unheard.lost shut
  deletions := ⟨most, deletionsLeft_le_one seat⟩
  quiet before result after whole some := by
    rcases unheard.quiet with quiet | ⟨shut, first, last, whole', quiet⟩
    · exact absurd (quiet result (whole ▸ List.mem_append_right _ List.mem_cons_self)) some
    · refine ⟨?_, shut⟩
      by_contra more
      rcases List.eq_nil_or_concat' after with none | ⟨rest, final, rfl⟩
      · exact more none
      -- Otherwise it is one of those before the last one.
      rw [whole', ← List.cons_append, ← List.append_assoc] at whole
      have front := (List.append_inj' whole rfl).1
      exact some (quiet result (front ▸ List.mem_append_right _ List.mem_cons_self))
  prompted some := by
    have lines := unheard.lines some
    have answers := unheard.answers some
    have most := seat.session.stage.unheard_le_one
    refine ⟨by omega, by omega, fun takes => Session.Stage.awaiting_of_linesUnheard ?_⟩
    have pos := List.length_pos_iff.mpr takes
    omega

/-- How a lost connection stops a session.

    A session is never ahead of what it has written. Once its outlet is lost, the first text
    that it has to write ends it. Until then it begins at most one more deletion, whatever lines
    have arrived or still come, and if it has a prompt, it handles at most one more line. -/
theorem Run.lost_connection (run : Run start h c) (fresh : start.IsFresh)
    (hs : c.seats[s]? = some seat) :
    KeepsPace h s seat.session ∧ (seat.session.outlet = .lost →
      (∀ rest next, seat.session.stage = .writing rest next → rest ≠ [] ∧
        ∀ now step session, seat.session.step? now step = some session ↔ step = .failWrite ∧
          session = { seat.session with stage := .ended (.error (.io "broken pipe")) }) ∧
      ∀ later c', Run c later c' → ∃ seat', c'.seats[s]? = some seat' ∧
        Abandoned later s seat seat') := by
  refine ⟨run.keepsPace fresh hs, fun lost => ⟨fun rest next stage => ⟨?_, ?_⟩, ?_⟩⟩
  · rcases run.session fresh hs with ⟨_, _, _, _, so⟩
    have stands := so.stands
    rw [Session.Stands, stage] at stands
    exact stands.1
  · exact fun now step session => Session.step?_of_unwritten stage lost now step
  · intro later c' goesOn
    rcases goesOn.session_later hs with ⟨seat', hs', so⟩
    have most := run.deletions_le fresh hs lost goesOn hs'
    exact ⟨seat', hs', abandoned_of_unheard (so.unheard lost) (by omega)⟩

end Pace

/-- An operator sends a blank line and the beginning of another one to a session without a
    prompt, and takes nothing any more. -/
def hastyOperator : List Action :=
  [.opened "" 64 none, .sent 0 (Utf8.encode "\ndelcou"), .outletSet 0 .lost]

/-- The rest of the line arrives, and one more. The session handles the blank line and the
    deletion, and is to answer it. -/
def hastyRemains : List Action :=
  [.sent 0 (Utf8.encode "nters a\ndelsets b\n"), .inputEnded 0,
    .step (.session 0 .begin), .step (.session 0 .prompt), .step (.session 0 (.read 25)),
    .step (.session 0 .take), .step (.session 0 .begin), .step (.session 0 .prompt),
    .step (.session 0 .take), .step (.execute 0)] ++
  List.map (fun step => .step (.pool step))
    [.submit 0, .submit 0, .take 0, .dropWork 0, .finish 0, .signal 0, .conclude 0] ++
  [.step (.resume 0)]

theorem hastyOperator_unheard : ∃ h c seat later c' seat', Run (start 1 16) h c ∧
    c.seats[0]? = some seat ∧ seat.session.outlet = .lost ∧ Run c later c' ∧
    c'.seats[0]? = some seat' ∧ Abandoned later 0 seat seat' ∧
    (taken (history 0 later)).length = 2 ∧ deletions 0 later = [.delete .counter ["a"]] ∧
    ∀ now step session, seat'.session.step? now step = some session ↔ step = .failWrite ∧
      session = { seat'.session with stage := .ended (.error (.io "broken pipe")) } := by
  have left : (Trace.perform? react? [] (start 1 16) hastyOperator).map (fun r =>
      r.2.seats[0]?.map fun seat => seat.session.outlet) = some (some .lost) := by
    decide +kernel
  have went : (Trace.perform? react? [] (start 1 16) hastyOperator).bind (fun r =>
      (Trace.perform? react? [] r.2 hastyRemains).map fun r =>
        ((taken (history 0 r.1)).length, deletions 0 r.1, r.2.seats[0]?.map fun seat =>
          (seat.session.stage, seat.session.outlet))) =
      some (2, [.delete .counter ["a"]],
        some (.writing (Utf8.encode "deleted 0 counters\n") .again, .lost)) := by
    decide +kernel
  rcases Option.map_eq_some_iff.mp left with ⟨⟨h, c⟩, performed, facts⟩
  rw [performed, Option.bind_some] at went
  rcases Option.map_eq_some_iff.mp facts with ⟨seat, hs, lost⟩
  rcases Option.map_eq_some_iff.mp went with ⟨⟨later, c'⟩, performed', facts'⟩
  simp only [Prod.mk.injEq] at facts'
  rcases facts' with ⟨lines, begun, facts'⟩
  rcases Option.map_eq_some_iff.mp facts' with ⟨seat', hs', facts'⟩
  rcases Prod.mk.inj facts' with ⟨stage, lost'⟩
  have run : Run (start 1 16) h c := Trace.of_perform? .start performed
  have goesOn : Run c later c' := Trace.of_perform? .start performed'
  rcases run.lost_connection (isFresh_start 1 16) hs with ⟨_, unheard⟩
  rcases (unheard lost).2 later c' goesOn with ⟨_, there, abandoned⟩
  cases hs'.symm.trans there
  rcases Run.lost_connection (run.trans goesOn) (isFresh_start 1 16) hs' with ⟨_, unheard'⟩
  exact ⟨h, c, seat, later, c', seat', run, hs, lost, goesOn, hs', abandoned, lines, begun,
    ((unheard' lost').1 _ _ stage).2⟩

end Console

end ShardConsole
