import ShardConsole.Proofs.Console.Rest

/-!
# Cancellation

What a session may still do that has been cancelled.

A session looks whether it is cancelled before every prompt, and while it waits for a line it may
notice at any time. It does not look when it writes, and a command that is being executed is
answered. So how much it may still do depends on where it is at that moment: `linesLeft`,
`resultsLeft` and `promptsLeft` say how many lines it may still take, how many results it may
still get and how many prompts it may still begin to write, and no step makes more of them.

What a session begins to write is `said`; together with what it was writing before, this is all
that it will ever have written.

## Main definitions

* `Session.Stage.linesLeft`, `Session.Stage.resultsLeft`, `Session.Stage.promptsLeft`: How much
  a cancelled session may still do.
* `Session.Stage.isBusy`: Whether a session is neither about to look nor over.
* `Session.said`: What a session begins to write.
* `Session.EndsWith`: How a cancelled session ends.
* `Session.Lingers`: What a cancelled session still does.

## Theorems

* `Session.Change.says`: What a session begins to write is what it will have written.
* `Session.Run.lingers`: A cancelled session does no more than is left to it.
-/

namespace ShardConsole

namespace Session

/-- How many lines a session may still take before it looks whether it is cancelled. -/
def Stage.linesLeft : Stage → Nat
  | .prompting | .writing _ .await | .awaiting _ => 1
  | _ => 0

/-- How many results a session may still get before it looks whether it is cancelled. -/
def Stage.resultsLeft : Stage → Nat
  | .prompting | .writing _ .await | .awaiting _ | .executing _ => 1
  | _ => 0

/-- How many prompts a session may still begin to write before it looks whether it is
    cancelled. -/
def Stage.promptsLeft : Stage → Nat
  | .prompting => 1
  | _ => 0

/-- Whether a session is neither about to look whether it is cancelled nor over. -/
def Stage.isBusy : Stage → Bool
  | .prompting | .writing _ _ | .awaiting _ | .executing _ => true
  | .ready | .ended _ | .broken => false

/-- What is left of the text that is being written. -/
def due (s : Session) : List UInt8 :=
  match s.stage with
  | .writing rest _ => rest
  | _ => []

/-- How many prompts a session begins to write at a moment. -/
def promptsAt (m : Moment) : Nat :=
  match m.action with
  | .step _ .prompt => 1
  | _ => 0

/-- How many prompts a session has begun to write. -/
def prompts (h : List Moment) : Nat :=
  (h.map promptsAt).sum

/-- What a session begins to write at a moment: a prompt, or the response to a result. -/
def saidAt (m : Moment) : List UInt8 :=
  match m.action with
  | .step _ .prompt => Utf8.encode m.before.prompt
  | _ => (resultsAt m).flatMap fun result => Utf8.encode (response result)

/-- What a session has begun to write, one text after the other. -/
def said (h : List Moment) : List UInt8 :=
  h.flatMap saidAt

/-- How a session has ended since it was cancelled: because of that, or with what it was about
    to do then, or with the result of the one line that it has handled. -/
inductive EndsWith (s : Session) (h : List Moment) : Except Error Unit → Prop
  | already {how : Except Error Unit} (stage : s.stage = .ended how) : EndsWith s h how
  | cancelled : EndsWith s h (.error .cancelled)
  | endOfInput (waits : s.stage.linesLeft = 1) (none : taken h = []) : EndsWith s h (.ok ())
  | overlong (waits : s.stage.linesLeft = 1) (none : taken h = []) :
      EndsWith s h (.error .lineTooLong)
  | idle (waits : s.stage.linesLeft = 1) (none : taken h = []) :
      EndsWith s h (.error .deadlineExceeded)
  | unread (waits : s.stage.linesLeft = 1) (none : taken h = []) :
      EndsWith s h (.error (.io "connection reset"))
  | unwritten (busy : s.stage ≠ .ready) : EndsWith s h (.error (.io "broken pipe"))
  | farewell {rest : List UInt8} (leaves : s.stage = .writing rest .leave) :
      EndsWith s h (.error .quit)
  | result {result : Except Error String} {e : Error} (one : results h = [result])
      (ends : ending? result = some e) : EndsWith s h (.error e)

/-- So many lines, results and prompts are taken from what is left to a session. -/
structure Spends (before : Stage) (lines results prompts : Nat) (after : Stage) : Prop where
  lines : after.linesLeft + lines ≤ before.linesLeft
  results : after.resultsLeft + results ≤ before.resultsLeft
  prompts : after.promptsLeft + prompts ≤ before.promptsLeft

/-- What a session still does that was cancelled in a state. -/
structure Lingers (s : Session) (h : List Moment) (s' : Session) : Prop where
  spends : Spends s.stage (taken h).length (results h).length (prompts h) s'.stage
  /-- Before anything else it looks whether it is cancelled. -/
  ready : s.stage = .ready → s'.written = s.written ∧
    (s'.stage = .ready ∨ s'.stage = .ended (.error .cancelled))
  /-- It only leaves with a farewell if it was asked to. -/
  leaves : ∀ rest, s'.stage = .writing rest .leave →
    (∃ rest, s.stage = .writing rest .leave) ∨ Session.results h = [.error .quit]
  ends : ∀ how, s'.stage = .ended how → EndsWith s h how

section Saying

variable {s s' : Session} {e : Event} {h h' : List Moment} {m : Moment} {now : Nat} {next : Next}
  {text : String} {result : Except Error String}

@[simp] theorem said_snoc : said (h ++ [m]) = said h ++ saidAt m := by
  simp only [said, List.flatMap_append, List.flatMap_singleton]

@[simp] theorem prompts_snoc : prompts (h ++ [m]) = prompts h + promptsAt m := by
  simp only [prompts, List.map_append, List.sum_append, List.map_singleton, List.sum_singleton]

theorem written_goOn : (s.goOn now next).written = s.written ∧ (s.goOn now next).due = [] := by
  cases next <;> exact ⟨rfl, rfl⟩

-- To have a text to write is to have begun it.
theorem says_write : (s.write now text next).written.toList ++ (s.write now text next).due =
    s.written.toList ++ Utf8.encode text := by
  rw [write]
  split
  · rename_i empty
    rw [String.isEmpty_iff] at empty
    rw [written_goOn.1, written_goOn.2, Utf8.encode_eq_nil_iff.mpr empty]
  · rfl

theorem says_answer : (s.answer now result).written.toList ++ (s.answer now result).due =
    s.written.toList ++ Utf8.encode (response result) := by
  cases ends : ending? result with
  | none =>
      rw [answer_of_open ends]
      exact says_write
  | some e =>
      by_cases leaves : result = .error .quit
      · subst leaves
        rw [answer_quit]
        exact says_write
      · rw [answer_of_ending ends leaves, response_of_ending ends leaves,
          Utf8.encode_eq_nil_iff.mpr rfl]
        rfl

-- What a session says that takes a line is the response to the result of the line, if it has one.
theorem saidAt_take {bytes : List UInt8} {rest : Framer}
    (arrived : s.arrival? = some (.line bytes rest)) : saidAt ⟨s, .step now .take⟩ =
      ((immediate? bytes).map fun result => Utf8.encode (response result)).getD [] := by
  rw [saidAt, resultsAt_take arrived]
  cases immediate? bytes with
  | none => rfl
  | some result => exact List.append_nil _

/-- What a session has written, together with what is left of the text that it writes, grows by
    what it begins to write, unless writing fails. -/
theorem Change.says (change : Change s e s') :
    s'.written.toList ++ s'.due = s.written.toList ++ s.due ++ saidAt ⟨s, e⟩ ∨
      (s'.isOver = true ∧ s'.written = s.written ∧ saidAt ⟨s, e⟩ = []) := by
  cases change with
  | prompt stage =>
      refine Or.inl ?_
      rw [says_write]
      simp [due, stage, saidAt]
  | write stage =>
      refine Or.inl ?_
      rw [show saidAt _ = [] from rfl]
      simp [due, stage]
  | wrote stage =>
      refine Or.inl ?_
      rw [show saidAt _ = [] from rfl, written_goOn.1, written_goOn.2]
      simp [due, stage]
  | failWrite => exact Or.inr ⟨rfl, rfl, rfl⟩
  | order stage arrived parsed =>
      refine Or.inl ?_
      rw [saidAt_take arrived]
      simp [due, stage, immediate?, parsed]
  | @remark now since bytes rest result stage arrived immediate =>
      refine Or.inl ?_
      rw [says_answer, saidAt_take arrived, immediate]
      simp [due, stage]
  | overlong stage arrived | endOfInput stage arrived =>
      refine Or.inl ?_
      rw [saidAt, resultsAt_of_no_line (by simp [arrived])]
      simp [due, stage]
  | answered stage =>
      refine Or.inl ?_
      rw [says_answer]
      simp [due, stage, saidAt, resultsAt]
  | notice stage | begin stage | read stage | failRead stage | leave stage | expire stage
  | brokeDown stage =>
      refine Or.inl ?_
      rw [show saidAt _ = [] from rfl]
      simp [due, stage]
  | delivered | inputEnded | outletSet | hungUp | cancelled =>
      exact Or.inl (List.append_nil _).symm

-- Nothing is said by a session that is over.
theorem Change.silent_of_isOver (change : Change s e s') (past : s.isOver = true) :
    saidAt ⟨s, e⟩ = [] := by
  rcases change.outside_of_isOver past with
    ⟨_, rfl, _, rfl⟩ | ⟨rfl, rfl⟩ | ⟨_, rfl, rfl⟩ | ⟨rfl, rfl⟩ | ⟨rfl, rfl⟩ <;> rfl

/-- All that a session ever writes it was writing before, or it has begun to write it since. -/
theorem Run.says (run : Run s h s') :
    s'.written.toList ++ s'.due = s.written.toList ++ s.due ++ said h ∨
      (s'.isOver = true ∧ s'.written.toList <+: s.written.toList ++ s.due ++ said h) := by
  induction run with
  | start => exact Or.inl (List.append_nil _).symm
  | @next h t t' e run act ih =>
      have change := change_of_react? act
      rw [said_snoc, ← List.append_assoc]
      rcases ih with same | ⟨past, upTo⟩
      · rw [← same]
        rcases change.says with grown | ⟨past, written, none⟩
        · exact Or.inl grown
        · rw [none, written, List.append_nil]
          exact Or.inr ⟨past, List.prefix_append _ _⟩
      · rcases change.stays_of_isOver past with ⟨stage, written⟩
        rw [change.silent_of_isOver past, List.append_nil, written]
        refine Or.inr ⟨?_, upTo⟩
        rw [isOver, stage]
        exact past

end Saying

section Lingering

variable {s t t' : Session} {e : Event} {h h' : List Moment} {now : Nat} {next : Next}
  {text : String} {result : Except Error String} {how : Except Error Unit}

theorem Spends.trans {a b c : Stage} {lines results prompts lines' results' prompts' : Nat}
    (first : Spends a lines results prompts b) (last : Spends b lines' results' prompts' c) :
    Spends a (lines + lines') (results + results') (prompts + prompts') c := by
  rcases first with ⟨_, _, _⟩
  rcases last with ⟨_, _, _⟩
  constructor <;> omega

-- What is left to a session that has a text to write is what is left to it behind the text.
theorem spends_write (now : Nat) (text : String) (next : Next) :
    Spends (.writing [] next) 0 0 0 (s.write now text next).stage := by
  rw [write]
  split
  · cases next <;> exact ⟨Nat.le_refl _, Nat.le_refl _, Nat.le_refl _⟩
  · cases next <;> exact ⟨Nat.le_refl _, Nat.le_refl _, Nat.le_refl _⟩

-- Nothing is left to a session behind the answer to its line.
theorem spends_answer (now : Nat) (result : Except Error String) :
    Spends .ready 0 0 0 (s.answer now result).stage := by
  cases ends : ending? result with
  | none =>
      rw [answer_of_open ends]
      rcases @spends_write s now (response result) .again with ⟨lines, results, prompts⟩
      exact ⟨lines, results, prompts⟩
  | some e =>
      by_cases leaves : result = .error .quit
      · subst leaves
        rw [answer_quit]
        rcases @spends_write s now (response (.error .quit)) .leave with ⟨lines, results, prompts⟩
        exact ⟨lines, results, prompts⟩
      · rw [answer_of_ending ends leaves]
        exact ⟨Nat.le_refl _, Nat.le_refl _, Nat.le_refl _⟩

/-- Whatever happens to a cancelled session is taken from what is left to it. -/
theorem Change.spends (change : Change t e t') (flag : t.cancelled = true) :
    Spends t.stage (takenAt ⟨t, e⟩).length (resultsAt ⟨t, e⟩).length (promptsAt ⟨t, e⟩)
      t'.stage := by
  have even (stage : Stage) : Spends stage 0 0 0 stage :=
    ⟨Nat.le_refl _, Nat.le_refl _, Nat.le_refl _⟩
  have none (how : Except Error Unit) : Spends t.stage 0 0 0 (.ended how) :=
    ⟨Nat.zero_le _, Nat.zero_le _, Nat.zero_le _⟩
  cases change with
  | begin stage going => cases flag.symm.trans going
  | notice | failWrite | failRead | leave | expire => exact none _
  | brokeDown => exact ⟨Nat.zero_le _, Nat.zero_le _, Nat.zero_le _⟩
  | overlong stage arrived | endOfInput stage arrived =>
      rw [takenAt_of_no_line (by simp [arrived]), resultsAt_of_no_line (by simp [arrived])]
      exact none _
  | read | delivered | inputEnded | outletSet | hungUp | cancelled => exact even _
  | prompt stage =>
      have one : Spends t.stage 0 0 1 (.writing [] .await) := by
        rw [stage]
        exact ⟨Nat.le_refl _, Nat.le_refl _, Nat.le_refl _⟩
      exact one.trans (spends_write _ _ .await)
  | @write now count rest next stage =>
      rw [stage]
      cases next <;> exact ⟨Nat.le_refl _, Nat.le_refl _, Nat.le_refl _⟩
  | @wrote now rest next stage =>
      rw [stage]
      cases next <;> exact ⟨Nat.le_refl _, Nat.le_refl _, Nat.le_refl _⟩
  | order stage arrived parsed =>
      rw [takenAt_take arrived, resultsAt_take arrived, immediate?, parsed, stage]
      exact ⟨Nat.le_refl _, Nat.le_refl _, Nat.le_refl _⟩
  | remark stage arrived immediate =>
      have one : Spends t.stage 1 1 0 .ready := by
        rw [stage]
        exact ⟨Nat.le_refl _, Nat.le_refl _, Nat.le_refl _⟩
      rw [takenAt_take arrived, resultsAt_take arrived, immediate]
      exact one.trans (spends_answer _ _)
  | answered stage =>
      have one : Spends t.stage 0 1 0 .ready := by
        rw [stage]
        exact ⟨Nat.le_refl _, Nat.le_refl _, Nat.le_refl _⟩
      exact one.trans (spends_answer _ _)

-- Only to cancel a session cancels it.
theorem Change.cancelled_iff (change : Change t e t') :
    t'.cancelled = true ↔ t.cancelled = true ∨ e = .cancelled := by
  cases change with
  | prompt =>
      rcases write_eq (s := t) with ⟨stage, _, after⟩
      rw [after]
      simp
  | answered =>
      rcases answer_eq (s := t) with ⟨stage, _, after⟩
      rw [after]
      simp
  | @remark now since bytes rest =>
      rcases answer_eq (s := { t with framer := rest }) with ⟨stage, _, after⟩
      rw [after]
      simp
  | @wrote _ _ next => cases next <;> simp [goOn]
  | cancelled => simp [cancel]
  | _ => simp [deliver, endInput, setOutlet, hangUp]

/-- A session is cancelled if it was, or if it has been cancelled since. -/
theorem Run.cancelled_iff (run : Run s h t) :
    t.cancelled = true ↔ s.cancelled = true ∨ ∃ m ∈ h, m.action = .cancelled := by
  induction run with
  | start => simp
  | next run act ih => simp [(change_of_react? act).cancelled_iff, ih, or_assoc, or_and_right,
      exists_or]

theorem EndsWith.congr (ends : EndsWith s h how) (lines : taken h' = taken h)
    (same : results h' = results h) : EndsWith s h' how := by
  cases ends with
  | already stage => exact .already stage
  | cancelled => exact .cancelled
  | endOfInput waits none => exact .endOfInput waits (lines.trans none)
  | overlong waits none => exact .overlong waits (lines.trans none)
  | idle waits none => exact .idle waits (lines.trans none)
  | unread waits none => exact .unread waits (lines.trans none)
  | unwritten busy => exact .unwritten busy
  | farewell leaves => exact .farewell leaves
  | result one ends => exact .result (same.trans one) ends

theorem Lingers.start (s : Session) : Lingers s [] s where
  spends := ⟨Nat.le_refl _, Nat.le_refl _, Nat.le_refl _⟩
  ready stage := ⟨rfl, Or.inl stage⟩
  leaves _ stage := Or.inl ⟨_, stage⟩
  ends _ stage := .already stage

-- What a session that has a text to write goes on to do, if it ends or leaves then.
theorem leaves_of_write {rest : List UInt8}
    (stage : (s.write now text next).stage = .writing rest .leave) : next = .leave := by
  rw [write] at stage
  split at stage
  · cases next <;> cases stage
  · cases stage
    rfl

theorem ends_of_write (stage : (s.write now text next).stage = .ended how) :
    next = .leave ∧ how = .error .quit := by
  rw [write] at stage
  split at stage
  · cases next <;> cases stage
    exact ⟨rfl, rfl⟩
  · cases stage

-- A result that makes a session leave is the wish to leave, and one that ends it is what it ends
-- with.
theorem leaves_of_answer {rest : List UInt8}
    (stage : (s.answer now result).stage = .writing rest .leave) : result = .error .quit := by
  cases ends : ending? result with
  | none =>
      rw [answer_of_open ends] at stage
      cases leaves_of_write stage
  | some e =>
      by_cases leaves : result = .error .quit
      · exact leaves
      · rw [answer_of_ending ends leaves] at stage
        cases stage

theorem ends_of_answer (stage : (s.answer now result).stage = .ended how) :
    ∃ e, ending? result = some e ∧ how = .error e := by
  cases ends : ending? result with
  | none =>
      rw [answer_of_open ends] at stage
      cases (ends_of_write stage).1
  | some e =>
      by_cases leaves : result = .error .quit
      · subst leaves
        rw [answer_quit] at stage
        cases ends
        exact ⟨_, rfl, (ends_of_write stage).2⟩
      · rw [answer_of_ending ends leaves] at stage
        cases stage
        exact ⟨e, rfl, rfl⟩

-- A wait that is going on when a session is cancelled, or comes before the next look.
theorem Lingers.waits (lingers : Lingers s h t) (left : t.stage.linesLeft = 1) :
    s.stage.linesLeft = 1 ∧ taken h = [] := by
  have lines := lingers.spends.lines
  have most : s.stage.linesLeft ≤ 1 := by
    unfold Stage.linesLeft
    split <;> omega
  refine ⟨by omega, List.length_eq_zero_iff.mp (by omega)⟩

-- No result has come before the one that is still to come.
theorem Lingers.unanswered (lingers : Lingers s h t) (left : t.stage.resultsLeft = 1) :
    Session.results h = [] := by
  have results := lingers.spends.results
  have most : s.stage.resultsLeft ≤ 1 := by
    unfold Stage.resultsLeft
    split <;> omega
  exact List.length_eq_zero_iff.mp (by omega)

-- A session that goes on to something else has begun before it was cancelled.
theorem Lingers.begun (lingers : Lingers s h t) (busy : t.stage.isBusy = true) :
    s.stage ≠ .ready := by
  intro ready
  rcases (lingers.ready ready).2 with still | ended
  · rw [still] at busy
    cases busy
  · rw [ended] at busy
    cases busy

-- A session to which nothing happens that counts.
theorem Lingers.still (lingers : Lingers s h t)
    (spends : Spends s.stage (taken h').length (results h').length (prompts h') t'.stage)
    (stage : t'.stage = t.stage) (written : t'.written = t.written)
    (lines : taken h' = taken h) (same : results h' = results h) : Lingers s h' t' where
  spends := spends
  ready := by
    rw [stage, written]
    exact lingers.ready
  leaves := by
    rw [stage, same]
    exact lingers.leaves
  ends := by
    rw [stage]
    exact fun how stage => (lingers.ends how stage).congr lines same

-- A session that ends.
theorem Lingers.past (begun : s.stage ≠ .ready)
    (spends : Spends s.stage (taken h).length (results h).length (prompts h) t.stage)
    (stage : t.stage = .ended how) (ends : EndsWith s h how) : Lingers s h t where
  spends := spends
  ready ready := absurd ready begun
  leaves rest leaves := by cases stage.symm.trans leaves
  ends how' stage' := by
    cases stage.symm.trans stage'
    exact ends

-- A session that goes on and neither leaves nor ends.
theorem Lingers.onward (begun : s.stage ≠ .ready)
    (spends : Spends s.stage (taken h).length (results h).length (prompts h) t.stage)
    (stays : ∀ rest, t.stage ≠ .writing rest .leave) (going : ∀ how, t.stage ≠ .ended how) :
    Lingers s h t where
  spends := spends
  ready ready := absurd ready begun
  leaves rest leaves := absurd leaves (stays rest)
  ends how stage := absurd stage (going how)

-- A session that has the result of its line.
theorem Lingers.answer (begun : s.stage ≠ .ready)
    (spends : Spends s.stage (taken h).length (results h).length (prompts h)
      (t.answer now result).stage) (one : results h = [result]) :
    Lingers s h (t.answer now result) where
  spends := spends
  ready ready := absurd ready begun
  leaves rest leaves := by
    have asked := leaves_of_answer leaves
    exact Or.inr (asked ▸ one)
  ends how stage := by
    rcases ends_of_answer stage with ⟨e, ends, rfl⟩
    exact .result one ends

theorem Change.lingers (change : Change t e t') (flag : t.cancelled = true)
    (lingers : Lingers s h t) : Lingers s (h ++ [⟨t, e⟩]) t' := by
  have spends : Spends s.stage (taken (h ++ [⟨t, e⟩])).length (results (h ++ [⟨t, e⟩])).length
      (prompts (h ++ [⟨t, e⟩])) t'.stage := by
    rw [taken_snoc, results_snoc, prompts_snoc, List.length_append, List.length_append]
    exact lingers.spends.trans (change.spends flag)
  have lines (bare : takenAt ⟨t, e⟩ = []) : taken (h ++ [⟨t, e⟩]) = taken h := by
    rw [taken_snoc, bare, List.append_nil]
  have same (bare : resultsAt ⟨t, e⟩ = []) : results (h ++ [⟨t, e⟩]) = results h := by
    rw [results_snoc, bare, List.append_nil]
  cases change with
  | begin stage going => cases flag.symm.trans going
  | notice stage =>
      refine ⟨spends, fun ready => ?_, fun rest leaves => ?_, fun how ended => ?_⟩
      · exact ⟨(lingers.ready ready).1, Or.inr rfl⟩
      · cases leaves
      · cases ended
        exact .cancelled
  | read | delivered | inputEnded | outletSet | hungUp | cancelled =>
      exact lingers.still spends rfl rfl (lines rfl) (same rfl)
  | prompt stage =>
      refine .onward (lingers.begun (stage ▸ rfl)) spends
        (fun rest leaves => ?_) (fun how ended => ?_)
      · cases leaves_of_write leaves
      · cases (ends_of_write ended).1
  | @write now count rest next stage =>
      have begun := lingers.begun (stage ▸ rfl)
      refine ⟨spends, fun ready => absurd ready begun, fun rest leaves => ?_, fun how ended => ?_⟩
      · cases leaves
        rw [same rfl]
        exact lingers.leaves _ stage
      · cases ended
  | @wrote now rest next stage =>
      have begun := lingers.begun (stage ▸ rfl)
      cases next with
      | await | again => exact .onward begun spends (by simp [goOn]) (by simp [goOn])
      | leave =>
          refine .past begun spends rfl ?_
          rcases lingers.leaves rest stage with ⟨rest, leaves⟩ | one
          · exact .farewell leaves
          · exact .result ((same rfl).trans one) rfl
  | failWrite stage =>
      have begun := lingers.begun (stage ▸ rfl)
      exact .past begun spends rfl (.unwritten begun)
  | order stage =>
      have begun := lingers.begun (stage ▸ rfl)
      exact .onward begun spends (by simp) (by simp)
  | brokeDown stage =>
      have begun := lingers.begun (stage ▸ rfl)
      exact .onward begun spends (by simp) (by simp)
  | leave stage =>
      have begun := lingers.begun (stage ▸ rfl)
      exact .past begun spends rfl .cancelled
  | failRead stage =>
      have begun := lingers.begun (stage ▸ rfl)
      rcases lingers.waits (by rw [stage]; rfl) with ⟨waits, none⟩
      exact .past begun spends rfl (.unread waits ((lines rfl).trans none))
  | expire stage =>
      have begun := lingers.begun (stage ▸ rfl)
      rcases lingers.waits (by rw [stage]; rfl) with ⟨waits, none⟩
      exact .past begun spends rfl (.idle waits ((lines rfl).trans none))
  | overlong stage arrived =>
      have begun := lingers.begun (stage ▸ rfl)
      have bare := lines (takenAt_of_no_line (by simp [arrived]))
      rcases lingers.waits (by rw [stage]; rfl) with ⟨waits, none⟩
      exact .past begun spends rfl (.overlong waits (bare.trans none))
  | endOfInput stage arrived =>
      have begun := lingers.begun (stage ▸ rfl)
      have bare := lines (takenAt_of_no_line (by simp [arrived]))
      rcases lingers.waits (by rw [stage]; rfl) with ⟨waits, none⟩
      exact .past begun spends rfl (.endOfInput waits (bare.trans none))
  | remark stage arrived immediate =>
      have begun := lingers.begun (stage ▸ rfl)
      refine .answer begun spends ?_
      rw [results_snoc, resultsAt_take arrived, immediate, lingers.unanswered (by rw [stage]; rfl)]
      rfl
  | answered stage =>
      have begun := lingers.begun (stage ▸ rfl)
      refine .answer begun spends ?_
      rw [results_snoc, lingers.unanswered (by rw [stage]; rfl)]
      rfl

/-- Whatever happens to a session after it was cancelled, it does no more than was left to it,
    and ends with what it was about to do, with the one line that it has handled, or because it
    is cancelled. -/
theorem Run.lingers (run : Run s h t) (flag : s.cancelled = true) :
    Lingers s h t := by
  induction run with
  | start => exact .start s
  | next run act ih =>
      have still := (Run.cancelled_iff run).mpr (Or.inl flag)
      exact (change_of_react? act).lingers still ih

-- A cancelled session begins no prompt behind a result.
theorem Run.said_eq (run : Run s h t) (flag : s.cancelled = true) :
    said h = (List.replicate (prompts h) (Utf8.encode s.prompt)).flatten ++
      (results h).flatMap fun result => Utf8.encode (response result) := by
  induction run with
  | start => rfl
  | @next h t t' e run act ih =>
      have change := change_of_react? act
      -- Everything else only says the responses to its results.
      have responds (said : saidAt ⟨t, e⟩ =
          (resultsAt ⟨t, e⟩).flatMap fun result => Utf8.encode (response result))
          (none : promptsAt ⟨t, e⟩ = 0) : Session.said (h ++ [⟨t, e⟩]) =
            (List.replicate (prompts (h ++ [⟨t, e⟩])) (Utf8.encode s.prompt)).flatten ++
              (results (h ++ [⟨t, e⟩])).flatMap fun result => Utf8.encode (response result) := by
        rw [said_snoc, prompts_snoc, results_snoc, ih, said, none, List.flatMap_append,
          List.append_assoc]
        rfl
      cases change with
      | prompt stage =>
          have unanswered := (Run.lingers run flag).unanswered (by rw [stage]; rfl)
          have same : t.prompt = s.prompt := Run.prompt_eq run
          rw [unanswered] at ih
          rw [said_snoc, ih, prompts_snoc, results_snoc, unanswered, saidAt, promptsAt,
            List.replicate_succ', List.flatten_concat, same]
          simp [resultsAt, takenAt]
      | _ => exact responds rfl rfl

end Lingering

end Session

end ShardConsole
