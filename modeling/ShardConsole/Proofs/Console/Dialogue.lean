import ShardConsole.Proofs.Console.SessionRun

/-!
# The Dialogue of a Session

What holds at every moment of every run of a session.

Two invariants say where a session stands. `Framed` is about its input: the lines that have been
taken, and then the lines of what is left, are the lines of the whole stream. Nothing is said
about how the stream was cut into pieces when it came, so this does not depend on it. `Stands`
is about its output: at every stage it says which results have been answered, and that the bytes
written are the part of the transcript that is due then. A text that is being written is counted
with what is left of it, so that a text without bytes is no special case.

`Ends` collects the ways in which a session ends, each with what is known then.

## Main definitions

* `Session.isDrained`: Whether all input has been read.
* `Session.Framed`: The lines of a session are those of the stream.
* `Session.Level`, `Session.Busy`, `Session.Closed`: Which results the lines have had.
* `Session.Ends`: How a session has ended.
* `Session.Stands`: What a session has written, at every stage.
* `Session.Handles`: How a line comes by its result.

## Theorems

* `Session.Run.framed`, `Session.Run.stands`: The invariants hold in every run.
* `Session.Run.handles`: Every result belongs to its line.
* `Session.Run.level_of_taken`: A line is taken when those before it have been answered.
* `Session.Stands.last`: The result that ends a session is that of its last line.
* `Session.Run.written_prefix`: Nothing is ever written beyond the transcript.
-/

namespace ShardConsole

namespace Session

open Framer (newline linesOf)

/-- Whether everything that a session will ever be sent has been read. -/
def isDrained (s : Session) : Bool :=
  s.inbox.isEmpty && s.inputEnded

/-- What a session makes of what its framer finds. -/
def arrivalOf : Framer.Progress → Option Arrival
  | .line bytes rest => some (.line bytes rest)
  | .overlong => some .overlong
  | .exhausted => some .endOfInput
  | .unfinished _ => none

/-- The lines that a session has taken and those that are left are the lines of the stream,
    whatever may still come. -/
structure Framed (h : List Moment) (s : Session) : Prop where
  searched : s.framer.Searched
  cut : ∀ later, (s.inputEnded = true → later = []) →
    linesOf (received h ++ later) = taken h ++ linesOf (s.framer.buffer ++ (s.inbox ++ later))
  fits : ∀ line ∈ taken h, line.length ≤ s.framer.maxLength

/-- Every line that has been taken has had its result, and none has ended the session. -/
structure Level (h : List Moment) : Prop where
  answered : (results h).length = (taken h).length
  going : verdict (results h) = .ok ()

/-- The line that was taken last holds a command that has no result yet. -/
structure Busy (h : List Moment) (command : Command) : Prop where
  going : verdict (results h) = .ok ()
  ahead : (taken h).length = (results h).length + 1
  line : ∃ line, (taken h)[(results h).length]? = some line ∧
    Command.parse (Framer.text line) = .ok (some command)

/-- Every line that has been taken has had its result, and the last one has ended the session. -/
structure Closed (h : List Moment) (e : Error) : Prop where
  answered : (results h).length = (taken h).length
  last : ∃ before result, results h = before ++ [result] ∧ verdict before = .ok () ∧
    ending? result = some e

/-- How a session has ended, with what is known then. -/
inductive Ends (h : List Moment) (s : Session) : Except Error Unit → Prop
  /-- The input ended, and all of its lines were handled. -/
  | input (level : Level h) (ended : s.inputEnded = true) (all : taken h = linesOf (received h))
      (written : s.written.toList = Utf8.encode (transcript s.prompt (results h))) :
      Ends h s (.ok ())
  /-- The last result ended it. -/
  | result {e : Error} (closed : Closed h e)
      (written : s.written.toList = Utf8.encode (transcript s.prompt (results h))) :
      Ends h s (.error e)
  | cancelled (level : Level h) (cancelled : s.cancelled = true)
      (written : s.written.toList = Utf8.encode (told s.prompt (results h)) ∨
        s.written.toList = Utf8.encode (transcript s.prompt (results h))) :
      Ends h s (.error .cancelled)
  | overlong (level : Level h)
      (long : ∃ line ∈ linesOf (received h), s.framer.maxLength < line.length)
      (written : s.written.toList = Utf8.encode (transcript s.prompt (results h))) :
      Ends h s (.error .lineTooLong)
  | idle (level : Level h)
      (written : s.written.toList = Utf8.encode (transcript s.prompt (results h))) :
      Ends h s (.error .deadlineExceeded)
  /-- Reading or writing failed. -/
  | lost {cause : String} (settled : Level h ∨ ∃ e, Closed h e)
      (lost : s.outlet = .lost)
      (written : s.written.toList <+: Utf8.encode (transcript s.prompt (results h))) :
      Ends h s (.error (.io cause))

/-- What a session has written that is writing a text, counting what is left of it. -/
def Says (h : List Moment) (s : Session) (rest : List UInt8) : Next → Prop
  | .await => Level h ∧
    s.written.toList ++ rest = Utf8.encode (transcript s.prompt (results h))
  | .again => Level h ∧ s.written.toList ++ rest = Utf8.encode (told s.prompt (results h))
  | .leave => Closed h .quit ∧
    s.written.toList ++ rest = Utf8.encode (transcript s.prompt (results h))

/-- What a session has taken and written, at every stage. -/
def Stands (h : List Moment) (s : Session) : Prop :=
  match s.stage with
  | .ready | .prompting =>
    Level h ∧ s.written.toList = Utf8.encode (told s.prompt (results h))
  | .writing rest next => rest ≠ [] ∧ Says h s rest next
  | .awaiting _ =>
    Level h ∧ s.written.toList = Utf8.encode (transcript s.prompt (results h))
  | .executing command =>
    Busy h command ∧ s.written.toList = Utf8.encode (transcript s.prompt (results h))
  | .broken => ∃ command, Busy h command ∧
    s.written.toList = Utf8.encode (transcript s.prompt (results h))
  | .ended how => Ends h s how

/-- How the line with a number comes by its result: without a command at once, and else from the
    execution of the command, when the lines before it have had theirs. -/
inductive Handles (h : List Moment) (i : Nat) (line : List UInt8) (result : Except Error String) :
    Prop
  | immediate (immediate : immediate? line = some result)
  | executed {command : Command} {h₁ h₂ : List Moment} {m : Moment} {now : Nat}
      (parsed : Command.parse (Framer.text line) = .ok (some command))
      (split : h = h₁ ++ m :: h₂) (turn : (results h₁).length = i)
      (stage : m.before.stage = .executing command) (answered : m.action = .answered now result)

section Input

variable {s s' : Session} {e : Event} {h : List Moment} {arrival : Arrival}

theorem isDrained_iff : s.isDrained = true ↔ s.inbox = [] ∧ s.inputEnded = true := by
  rw [isDrained, Bool.and_eq_true, List.isEmpty_iff]

theorem arrival?_eq : s.arrival? =
    arrivalOf (if s.isDrained then s.framer.finish else s.framer.next) := rfl

/-- What a session finds in its input is there. -/
theorem finds_arrival (searched : s.framer.Searched) :
    ∃ progress, s.framer.Finds s.isDrained progress ∧ s.arrival? = arrivalOf progress := by
  refine ⟨_, ?_, arrival?_eq⟩
  cases s.isDrained with
  | true => exact Framer.finds_finish searched
  | false => exact Framer.finds_next searched

-- An event that has to do with neither the bytes nor the lines.
theorem Framed.frame {h' : List Moment} (framed : Framed h s) (framer : s'.framer = s.framer)
    (inbox : s'.inbox = s.inbox) (still : s.inputEnded = true → s'.inputEnded = true)
    (sent : received h' = received h) (same : taken h' = taken h) : Framed h' s' where
  searched := framer ▸ framed.searched
  cut := by
    intro later none
    rw [sent, same, framer, inbox]
    exact framed.cut later fun ended => none (still ended)
  fits := by
    rw [same, framer]
    exact framed.fits

-- A line that has been taken is the first one of those that were left.
theorem Framed.line {h' : List Moment} {bytes : List UInt8} {rest : Framer}
    (framed : Framed h s) (found : s.arrival? = some (.line bytes rest))
    (framer : s'.framer = rest) (inbox : s'.inbox = s.inbox)
    (still : s'.inputEnded = s.inputEnded) (sent : received h' = received h)
    (more : taken h' = taken h ++ [bytes]) : Framed h' s' := by
  have first : rest.Searched ∧ rest.maxLength = s.framer.maxLength ∧
      bytes.length ≤ s.framer.maxLength ∧ ∀ later, (s.inputEnded = true → later = []) →
        linesOf (s.framer.buffer ++ (s.inbox ++ later)) =
          bytes :: linesOf (rest.buffer ++ (s.inbox ++ later)) := by
    rcases finds_arrival framed.searched with ⟨progress, finds, same⟩
    rw [found] at same
    cases finds with
    | line plain fits cut =>
        cases same
        refine ⟨by simp [Framer.Searched], rfl, fits, fun later _ => ?_⟩
        rw [cut, List.append_assoc, List.cons_append, Framer.linesOf_line plain]
    | last drained plain fits some =>
        cases same
        refine ⟨by simp [Framer.Searched], rfl, fits, fun later none => ?_⟩
        -- Nothing can come after the last line.
        rcases isDrained_iff.mp drained with ⟨empty, ended⟩
        rw [none ended, empty, List.append_nil, List.append_nil, Framer.linesOf_rest plain some]
        rfl
    | overlong | unfinished | exhausted => cases same
  rcases first with ⟨searched, same, fits, first⟩
  subst framer
  refine ⟨searched, fun later none => ?_, fun line mem => ?_⟩
  · rw [still] at none
    rw [sent, more, framed.cut later none, first later none, inbox, List.append_assoc]
    rfl
  · rw [more, List.mem_append, List.mem_singleton] at mem
    rw [same]
    rcases mem with earlier | rfl
    · exact framed.fits line earlier
    · exact fits

-- A line that is overlong is longer than a line may be, in the stream as well.
theorem Framed.overlong (framed : Framed h s) (found : s.arrival? = some .overlong) :
    ∃ line ∈ linesOf (received h), s.framer.maxLength < line.length := by
  rcases finds_arrival framed.searched with ⟨progress, finds, same⟩
  rw [found] at same
  cases finds with
  | overlong plain exceeds =>
      have cut := framed.cut [] (fun _ => rfl)
      rw [List.append_nil, List.append_nil] at cut
      -- It is the first one of those that are left.
      have front : (s.framer.buffer ++ s.inbox).take (s.framer.maxLength + 1) =
          s.framer.buffer.take (s.framer.maxLength + 1) := List.take_append_of_le_length exceeds
      rw [← front] at plain
      have enough : s.framer.maxLength + 1 ≤ (s.framer.buffer ++ s.inbox).length := by
        rw [List.length_append]
        omega
      rcases Framer.length_head_linesOf plain enough (Nat.succ_pos _) with ⟨line, mem, long⟩
      exact ⟨line, cut ▸ List.mem_append_right _ mem, long⟩
  | line | unfinished | last | exhausted => cases same

-- At the end of the input all lines of the stream have been taken.
theorem Framed.endOfInput (framed : Framed h s) (found : s.arrival? = some .endOfInput) :
    s.inputEnded = true ∧ taken h = linesOf (received h) := by
  rcases finds_arrival framed.searched with ⟨progress, finds, same⟩
  rw [found] at same
  cases finds with
  | exhausted drained empty =>
      rcases isDrained_iff.mp drained with ⟨read, ended⟩
      have cut := framed.cut [] (fun _ => rfl)
      rw [empty, read] at cut
      simp only [List.append_nil, Framer.linesOf_nil] at cut
      exact ⟨ended, cut.symm⟩
  | line | unfinished | last | overlong => cases same

theorem Change.framed (change : Change s e s') (framed : Framed h s) :
    Framed (h ++ [⟨s, e⟩]) s' := by
  have sent (bare : sentAt ⟨s, e⟩ = []) : received (h ++ [⟨s, e⟩]) = received h := by
    rw [received_snoc, bare, List.append_nil]
  have same (bare : takenAt ⟨s, e⟩ = []) : taken (h ++ [⟨s, e⟩]) = taken h := by
    rw [taken_snoc, bare, List.append_nil]
  cases change with
  | notice | begin | failWrite | failRead | leave | expire | brokeDown | cancelled =>
      exact framed.frame rfl rfl id (sent rfl) (same rfl)
  | write | wrote | outletSet => exact framed.frame rfl rfl id (sent rfl) (same rfl)
  | inputEnded | hungUp => exact framed.frame rfl rfl (fun _ => rfl) (sent rfl) (same rfl)
  | prompt =>
      rcases write_eq (s := s) with ⟨stage, _, after⟩
      rw [after]
      exact framed.frame rfl rfl id (sent rfl) (same rfl)
  | answered =>
      rcases answer_eq (s := s) with ⟨stage, _, after⟩
      rw [after]
      exact framed.frame rfl rfl id (sent rfl) (same rfl)
  | overlong stage found =>
      exact framed.frame rfl rfl id (sent rfl) (same (takenAt_of_no_line (by simp [found])))
  | endOfInput stage found =>
      exact framed.frame rfl rfl id (sent rfl) (same (takenAt_of_no_line (by simp [found])))
  | order stage found =>
      exact framed.line found rfl rfl rfl (sent rfl) (by rw [taken_snoc, takenAt_take found])
  | @remark now since bytes rest result stage found =>
      rcases answer_eq (s := { s with framer := rest }) with ⟨stage, _, after⟩
      rw [after]
      exact framed.line found rfl rfl rfl (sent rfl) (by rw [taken_snoc, takenAt_take found])
  | @read now count since searched stage unfinished =>
      have finds := Framer.finds_next framed.searched
      rw [unfinished] at finds
      cases finds with
      | unfinished _ plain fits =>
          refine ⟨?_, fun later none => ?_, ?_⟩
          · simp only [Framer.Searched, Framer.add, List.take_left]
            exact plain
          · rw [sent rfl, same rfl, framed.cut later none]
            simp only [Framer.add, List.append_assoc, ← List.append_assoc (s.inbox.take count),
              List.take_append_drop]
          · rw [same rfl]
            exact framed.fits
  | @delivered bytes accepted =>
      refine ⟨framed.searched, fun later none => ?_, ?_⟩
      · -- Whatever is sent had been still to come before.
        have before : s.inputEnded = true → bytes ++ later = [] := by
          intro ended
          have empty : bytes = [] := by
            simp [accepts, ended] at accepted
            exact accepted.2
          rw [empty, none ended, List.append_nil]
        have cut := framed.cut (bytes ++ later) before
        rw [received_snoc, same rfl, List.append_assoc]
        simpa only [sentAt, deliver, List.append_assoc] using cut
      · rw [same rfl]
        exact framed.fits

end Input

section Output

variable {s s' : Session} {e : Event} {h h' : List Moment} {now : Nat} {next : Next}
  {text : String} {result : Except Error String}

-- A session that has written a text goes on.
theorem stands_goOn (due : Says h s [] next) : Stands h (s.goOn now next) := by
  cases next with
  | await => simpa [Says, Stands, goOn] using due
  | again => simpa [Says, Stands, goOn] using due
  | leave =>
      rcases due with ⟨closed, written⟩
      rw [List.append_nil] at written
      exact .result closed written

-- A session that is to write a text writes it, if there is anything to write.
theorem stands_write (due : Says h s (Utf8.encode text) next) :
    Stands h (s.write now text next) := by
  rw [write]
  split
  · rename_i empty
    rw [String.isEmpty_iff] at empty
    rw [Utf8.encode_eq_nil_iff.mpr empty] at due
    exact stands_goOn due
  · rename_i some
    rw [String.isEmpty_iff] at some
    refine ⟨fun none => some (Utf8.encode_eq_nil_iff.mp none), ?_⟩
    cases next <;> exact due

-- What a session does with the result of the line that it has taken last.
theorem stands_answer (going : verdict (results h) = .ok ())
    (written : s.written.toList = Utf8.encode (transcript s.prompt (results h)))
    (one : results h' = results h ++ [result])
    (answered : (results h').length = (taken h').length) : Stands h' (s.answer now result) := by
  rw [transcript_of_going going] at written
  have before : s.written.toList ++ Utf8.encode (response result) =
      Utf8.encode (told s.prompt (results h')) := by
    rw [one, told_snoc, Utf8.encode_append, written]
  cases ends : ending? result with
  | none =>
      rw [answer_of_open ends]
      exact stands_write ⟨⟨answered, one ▸ verdict_snoc_of_open going ends⟩, before⟩
  | some e =>
      have closed : Closed h' e := ⟨answered, results h, result, one, going, ends⟩
      have whole : transcript s.prompt (results h') = told s.prompt (results h') := by
        rw [one]
        exact transcript_snoc_of_ending going ends
      rw [← whole] at before
      by_cases leaves : result = .error .quit
      · subst leaves
        cases ends
        rw [answer_quit]
        exact stands_write ⟨closed, before⟩
      · have silent := response_of_ending ends leaves
        rw [silent, Utf8.encode_eq_nil_iff.mpr rfl, List.append_nil] at before
        rw [answer_of_ending ends leaves]
        exact .result closed before

-- These are facts about the lines and the results, whatever else has happened.
theorem Level.congr (level : Level h) (lines : taken h' = taken h)
    (same : results h' = results h) : Level h' :=
  ⟨by rw [same, lines]; exact level.answered, by rw [same]; exact level.going⟩

theorem Busy.congr {command : Command} (busy : Busy h command) (lines : taken h' = taken h)
    (same : results h' = results h) : Busy h' command :=
  ⟨by rw [same]; exact busy.going, by rw [same, lines]; exact busy.ahead,
    by rw [same, lines]; exact busy.line⟩

theorem Closed.congr {e : Error} (closed : Closed h e) (lines : taken h' = taken h)
    (same : results h' = results h) : Closed h' e :=
  ⟨by rw [same, lines]; exact closed.answered, by rw [same]; exact closed.last⟩

-- What has ended a session stays as it is.
theorem Ends.frame {how : Except Error Unit} (ends : Ends h s how)
    (prompt : s'.prompt = s.prompt) (written : s'.written = s.written)
    (framer : s'.framer.maxLength = s.framer.maxLength)
    (cancelled : s.cancelled = true → s'.cancelled = true)
    (finished : s.inputEnded = true → s'.inputEnded = true)
    (lost : s.outlet = .lost → s'.outlet = .lost) (sent : received h' = received h)
    (lines : taken h' = taken h) (same : results h' = results h) : Ends h' s' how := by
  have level (level : Level h) : Level h' := level.congr lines same
  cases ends with
  | input even ended all text =>
      exact .input (level even) (finished ended) (by rw [lines, sent]; exact all)
        (by rw [written, prompt, same]; exact text)
  | result closed text =>
      exact .result (closed.congr lines same) (by rw [written, prompt, same]; exact text)
  | cancelled even flag text =>
      exact .cancelled (level even) (cancelled flag) (by rw [written, prompt, same]; exact text)
  | overlong even long text =>
      exact .overlong (level even) (by rw [sent, framer]; exact long)
        (by rw [written, prompt, same]; exact text)
  | idle even text => exact .idle (level even) (by rw [written, prompt, same]; exact text)
  | lost settled flag text =>
      exact .lost (settled.imp level fun ⟨e, closed⟩ => ⟨e, closed.congr lines same⟩) (lost flag)
        (by rw [written, prompt, same]; exact text)

-- What comes from outside does not change where a session stands.
theorem Stands.frame (stands : Stands h s) (stage : s'.stage = s.stage)
    (prompt : s'.prompt = s.prompt) (written : s'.written = s.written)
    (framer : s'.framer.maxLength = s.framer.maxLength)
    (cancelled : s.cancelled = true → s'.cancelled = true)
    (finished : s.inputEnded = true → s'.inputEnded = true)
    (lost : s.outlet = .lost → s'.outlet = .lost)
    (sent : s.isOver = true → received h' = received h)
    (lines : taken h' = taken h) (same : results h' = results h) : Stands h' s' := by
  have level (level : Level h) : Level h' := level.congr lines same
  rw [Stands] at stands ⊢
  rw [stage]
  cases now : s.stage with
  | ready | prompting | awaiting =>
      rw [now] at stands
      exact ⟨level stands.1, by rw [written, prompt, same]; exact stands.2⟩
  | writing rest next =>
      rw [now] at stands
      refine ⟨stands.1, ?_⟩
      cases next with
      | await | again => exact ⟨level stands.2.1, by rw [written, prompt, same]; exact stands.2.2⟩
      | leave =>
          rcases stands with ⟨_, closed, text⟩
          exact ⟨closed.congr lines same, by rw [written, prompt, same]; exact text⟩
  | executing command =>
      rw [now] at stands
      exact ⟨stands.1.congr lines same, by rw [written, prompt, same]; exact stands.2⟩
  | broken =>
      rw [now] at stands
      rcases stands with ⟨command, before, text⟩
      exact ⟨command, before.congr lines same, by rw [written, prompt, same]; exact text⟩
  | ended how =>
      rw [now] at stands
      have ended : s.isOver = true := by rw [isOver, now]
      exact stands.frame prompt written framer cancelled finished lost (sent ended) lines same

/-- What a session has written grows towards the transcript. -/
theorem Stands.written_prefix (stands : Stands h s) :
    s.written.toList <+: Utf8.encode (transcript s.prompt (results h)) := by
  have early (level : Level h) {text : List UInt8}
      (text_eq : text = Utf8.encode (told s.prompt (results h))) :
      text <+: Utf8.encode (transcript s.prompt (results h)) := by
    rw [transcript_of_going level.going, Utf8.encode_append, text_eq]
    exact List.prefix_append _ _
  rw [Stands] at stands
  split at stands
  · exact early stands.1 stands.2
  · exact early stands.1 stands.2
  · rename_i rest next _
    cases next with
    | await => exact ⟨rest, stands.2.2⟩
    | again => exact (List.prefix_append _ rest).trans (early stands.2.1 stands.2.2)
    | leave => exact ⟨rest, stands.2.2⟩
  · exact stands.2 ▸ List.prefix_rfl
  · exact stands.2 ▸ List.prefix_rfl
  · rcases stands with ⟨_, _, written⟩
    exact written ▸ List.prefix_rfl
  · cases stands with
    | input _ _ _ written | result _ written | overlong _ _ written | idle _ written =>
        exact written ▸ List.prefix_rfl
    | cancelled level _ written =>
        rcases written with early' | late
        · exact early level early'
        · exact late ▸ List.prefix_rfl
    | lost _ _ written => exact written

theorem Change.stands (change : Change s e s') (framed : Framed h s) (stands : Stands h s) :
    Stands (h ++ [⟨s, e⟩]) s' := by
  have lines (bare : takenAt ⟨s, e⟩ = []) : taken (h ++ [⟨s, e⟩]) = taken h := by
    rw [taken_snoc, bare, List.append_nil]
  have same (bare : resultsAt ⟨s, e⟩ = []) : results (h ++ [⟨s, e⟩]) = results h := by
    rw [results_snoc, bare, List.append_nil]
  have sent (bare : sentAt ⟨s, e⟩ = []) : received (h ++ [⟨s, e⟩]) = received h := by
    rw [received_snoc, bare, List.append_nil]
  -- An event at which no line comes and no result leaves what was said before.
  have still {after : Session} (bare : takenAt ⟨s, e⟩ = []) (silent : resultsAt ⟨s, e⟩ = [])
      (quiet : sentAt ⟨s, e⟩ = []) (stands : Stands h after) : Stands (h ++ [⟨s, e⟩]) after :=
    stands.frame rfl rfl rfl rfl id id id (fun _ => sent quiet) (lines bare) (same silent)
  rw [Stands] at stands
  cases change with
  | notice stage cancelled =>
      rw [stage] at stands
      exact still rfl rfl rfl (Ends.cancelled stands.1 cancelled (Or.inl stands.2))
  | begin stage =>
      rw [stage] at stands
      have after : Stands h { s with stage := .prompting } := stands
      exact still rfl rfl rfl after
  | prompt stage =>
      rw [stage] at stands
      rcases stands with ⟨level, written⟩
      refine still rfl rfl rfl (stands_write ⟨level, ?_⟩)
      rw [written, transcript_of_going level.going, Utf8.encode_append]
  | @write now count rest next stage taken pos less =>
      rw [stage] at stands
      refine still rfl rfl rfl ⟨?_, ?_⟩
      · intro none
        have length := congrArg List.length none
        rw [List.length_drop, List.length_nil] at length
        omega
      · cases next <;> simpa [Says, List.append_assoc] using stands.2
  | @wrote now rest next stage =>
      rw [stage] at stands
      refine still rfl rfl rfl (stands_goOn ?_)
      cases next <;> simpa [Says] using stands.2
  | @failWrite now rest next stage lost =>
      have before : Stands h s := by
        rw [Stands, stage]
        rwa [stage] at stands
      rw [stage] at stands
      refine still rfl rfl rfl (Ends.lost ?_ lost before.written_prefix)
      cases next with
      | await | again => exact Or.inl stands.2.1
      | leave => exact Or.inr ⟨_, stands.2.1⟩
  | read stage =>
      rw [stage] at stands
      refine still rfl rfl rfl ?_
      rw [Stands]
      simp only [stage]
      exact stands
  | @failRead now since searched stage unfinished gone =>
      rw [stage] at stands
      exact still rfl rfl rfl
        (Ends.lost (Or.inl stands.1) (isGone_iff.mp gone).2 (stands.2 ▸ List.prefix_rfl))
  | @order now since bytes rest command stage found parsed =>
      rw [stage] at stands
      rcases stands with ⟨level, written⟩
      have none : immediate? bytes = none := by rw [immediate?, parsed]
      have one : taken (h ++ [⟨s, .step now .take⟩]) = taken h ++ [bytes] := by
        rw [taken_snoc, takenAt_take found]
      have same := same (by rw [resultsAt_take found, none]; rfl)
      refine ⟨⟨?_, ?_, bytes, ?_, parsed⟩, ?_⟩
      · rw [same]
        exact level.going
      · rw [one, same, List.length_append, level.answered, List.length_singleton]
      · rw [one, same, level.answered]
        exact List.getElem?_concat_length
      · rw [same]
        exact written
  | @remark now since bytes rest result stage found immediate =>
      rw [stage] at stands
      rcases stands with ⟨level, written⟩
      have one : results (h ++ [⟨s, .step now .take⟩]) = results h ++ [result] := by
        rw [results_snoc, resultsAt_take found, immediate]
        rfl
      refine stands_answer (s := { s with framer := rest }) level.going written one ?_
      rw [one, taken_snoc, takenAt_take found, List.length_append, List.length_append,
        level.answered, List.length_singleton, List.length_singleton]
  | @overlong now since stage found =>
      rw [stage] at stands
      have none : takenAt ⟨s, .step now .take⟩ = [] := takenAt_of_no_line (by simp [found])
      have silent : resultsAt ⟨s, .step now .take⟩ = [] := by rw [resultsAt, none]; rfl
      exact still none silent rfl (Ends.overlong stands.1 (framed.overlong found) stands.2)
  | @endOfInput now since stage found =>
      rw [stage] at stands
      have none : takenAt ⟨s, .step now .take⟩ = [] := takenAt_of_no_line (by simp [found])
      have silent : resultsAt ⟨s, .step now .take⟩ = [] := by rw [resultsAt, none]; rfl
      rcases framed.endOfInput found with ⟨ended, all⟩
      exact still none silent rfl (Ends.input stands.1 ended all stands.2)
  | leave stage cancelled =>
      rw [stage] at stands
      exact still rfl rfl rfl (Ends.cancelled stands.1 cancelled (Or.inr stands.2))
  | expire stage =>
      rw [stage] at stands
      exact still rfl rfl rfl (Ends.idle stands.1 stands.2)
  | @answered now result command stage =>
      rw [stage] at stands
      rcases stands with ⟨busy, written⟩
      have one : results (h ++ [⟨s, .answered now result⟩]) = results h ++ [result] :=
        results_snoc _ _
      refine stands_answer busy.going written one ?_
      rw [one, lines rfl, busy.ahead, List.length_append, List.length_singleton]
  | @brokeDown command stage =>
      rw [stage] at stands
      have after : Stands h { s with stage := .broken } := ⟨command, stands⟩
      exact still rfl rfl rfl after
  | @delivered bytes accepted =>
      refine Stands.frame (s := s) stands rfl rfl rfl rfl id id id ?_ (lines rfl) (same rfl)
      intro ended
      have empty : bytes = [] := by
        simp [accepts, ended] at accepted
        exact accepted.2
      rw [received_snoc, empty]
      exact List.append_nil _
  | inputEnded =>
      exact Stands.frame (s := s) stands rfl rfl rfl rfl id (fun _ => rfl) id
        (fun _ => sent rfl) (lines rfl) (same rfl)
  | @outletSet outlet =>
      exact Stands.frame (s := s) stands rfl rfl rfl rfl id id (outlet_setOutlet · outlet)
        (fun _ => sent rfl) (lines rfl) (same rfl)
  | hungUp =>
      exact Stands.frame (s := s) stands rfl rfl rfl rfl id (fun _ => rfl) (fun _ => rfl)
        (fun _ => sent rfl) (lines rfl) (same rfl)
  | cancelled =>
      exact Stands.frame (s := s) stands rfl rfl rfl rfl (fun _ => rfl) id id
        (fun _ => sent rfl) (lines rfl) (same rfl)

end Output

section Runs

variable {prompt : String} {maxLength : Nat} {idleLimit : Option Nat} {cancelled : Bool}
  {s s' : Session} {h : List Moment} {i : Nat} {line : List UInt8} {result : Except Error String}

theorem Run.framed (run : Run (start prompt maxLength idleLimit cancelled) h s) : Framed h s := by
  induction run with
  | start =>
      refine ⟨List.not_mem_nil, fun later _ => ?_, fun line mem => ?_⟩
      · rfl
      · cases mem
  | next run act ih => exact (change_of_react? act).framed ih

theorem Run.stands (run : Run (start prompt maxLength idleLimit cancelled) h s) : Stands h s := by
  induction run with
  | start => exact ⟨⟨rfl, rfl⟩, rfl⟩
  | next run act ih => exact (change_of_react? act).stands (Run.framed run) ih

/-- A session never writes anything but the transcript of the results that it has had. -/
theorem Run.written_prefix (run : Run (start prompt maxLength idleLimit cancelled) h s) :
    s.written.toList <+: Utf8.encode (transcript s.prompt (results h)) :=
  run.stands.written_prefix

/-- The lines are taken in the order in which they come in the stream. -/
theorem Run.taken_prefix (run : Run (start prompt maxLength idleLimit cancelled) h s) :
    taken h <+: linesOf (received h) := by
  have cut := run.framed.cut [] (fun _ => rfl)
  rw [List.append_nil] at cut
  exact cut ▸ List.prefix_append _ _

theorem Handles.snoc (handles : Handles h i line result) (m : Moment) :
    Handles (h ++ [m]) i line result := by
  cases handles with
  | immediate immediate => exact .immediate immediate
  | executed parsed split turn stage answered =>
      rw [split, List.append_assoc, List.cons_append]
      exact .executed parsed rfl turn stage answered

-- Whatever a session is doing, its lines are in one of these states.
theorem Stands.cases (stands : Stands h s) : Level h ∨ (∃ command, Busy h command) ∨
    ∃ e, Closed h e := by
  have level (level : Level h) : Level h ∨ (∃ command, Busy h command) ∨ ∃ e, Closed h e :=
    Or.inl level
  rw [Stands] at stands
  split at stands
  · exact level stands.1
  · exact level stands.1
  · rename_i rest next _
    cases next with
    | await | again => exact level stands.2.1
    | leave => exact Or.inr (Or.inr ⟨_, stands.2.1⟩)
  · exact level stands.1
  · exact Or.inr (Or.inl ⟨_, stands.1⟩)
  · rcases stands with ⟨command, busy, _⟩
    exact Or.inr (Or.inl ⟨command, busy⟩)
  · cases stands with
    | input even | cancelled even | overlong even | idle even => exact level even
    | result closed => exact Or.inr (Or.inr ⟨_, closed⟩)
    | lost settled => exact settled.imp_right Or.inr

-- There are never more results than lines.
theorem Stands.results_le (stands : Stands h s) : (results h).length ≤ (taken h).length := by
  rcases stands.cases with level | ⟨command, busy⟩ | ⟨e, closed⟩
  · exact Nat.le_of_eq level.answered
  · exact busy.ahead ▸ Nat.le_succ _
  · exact Nat.le_of_eq closed.answered

/-- The result that ends a session belongs to the last line that the session takes. -/
theorem Stands.last (stands : Stands h s) (hr : (results h)[i]? = some result)
    (ends : ending? result ≠ none) : (taken h).length = i + 1 := by
  rcases stands.cases with level | ⟨command, busy⟩ | ⟨e, closed⟩
  · exact absurd (ending?_of_going level.going (List.mem_of_getElem? hr)) ends
  · exact absurd (ending?_of_going busy.going (List.mem_of_getElem? hr)) ends
  · rcases closed.last with ⟨before, last, whole, going, _⟩
    rw [whole] at hr
    have late : before.length ≤ i := by
      by_contra early
      rw [List.getElem?_append_left (Nat.lt_of_not_le early)] at hr
      exact ends (ending?_of_going going (List.mem_of_getElem? hr))
    have inside := (List.getElem?_eq_some_iff.mp hr).1
    rw [← closed.answered, whole]
    rw [List.length_append, List.length_singleton] at inside ⊢
    omega

/-- When a session takes a line, the lines before it have been answered, and everything up to
    the prompt for it has been written. -/
theorem Run.level_of_taken {h₁ h₂ : List Moment} {m : Moment}
    (run : Run (start prompt maxLength idleLimit cancelled) (h₁ ++ m :: h₂) s)
    (takes : takenAt m ≠ []) : Level h₁ ∧
      m.before.written.toList = Utf8.encode (transcript prompt (results h₁)) := by
  rcases run.split with ⟨before, next, act, _⟩
  rcases m with ⟨t, e⟩
  have stands : Stands h₁ t := Run.stands before
  have same : t.prompt = prompt := Run.prompt_eq before
  cases change_of_react? act with
  | order stage | remark stage | overlong stage | endOfInput stage =>
      rw [Stands, stage, same] at stands
      exact stands
  | _ => exact absurd rfl takes

/-- The `i`-th result is that of the `i`-th line. -/
theorem Run.handles (run : Run (start prompt maxLength idleLimit cancelled) h s)
    (hl : (taken h)[i]? = some line) (hr : (results h)[i]? = some result) :
    Handles h i line result := by
  induction run with
  | start => cases hl
  | @next h s s' e run act ih =>
      have change := change_of_react? act
      have stands := Run.stands run
      have le := stands.results_le
      by_cases early : i < (results h).length
      · rw [taken_snoc, List.getElem?_append_left (Nat.lt_of_lt_of_le early le)] at hl
        rw [results_snoc, List.getElem?_append_left early] at hr
        exact (ih hl hr).snoc _
      -- Otherwise the result is the one that has just come.
      rw [results_snoc, List.getElem?_append_right (Nat.le_of_not_lt early)] at hr
      cases change with
      | @order now since bytes rest command stage found parsed =>
          have none : immediate? bytes = none := by rw [immediate?, parsed]
          rw [resultsAt_take found, none] at hr
          cases hr
      | @remark now since bytes rest now' stage found immediate =>
          rw [Stands, stage] at stands
          rw [resultsAt_take found, immediate, Option.toList_some,
            List.getElem?_singleton] at hr
          rcases Option.ite_none_right_eq_some.mp hr with ⟨here, same⟩
          cases same
          have same : i = (taken h).length := by
            have answered := stands.1.answered
            omega
          rw [taken_snoc, takenAt_take found, same, List.getElem?_concat_length] at hl
          cases hl
          exact .immediate immediate
      | @answered now now' command stage =>
          rw [Stands, stage] at stands
          rw [resultsAt, List.getElem?_singleton] at hr
          rcases Option.ite_none_right_eq_some.mp hr with ⟨here, same⟩
          cases same
          have same : i = (results h).length := by omega
          rcases stands.1.line with ⟨last, there, parsed⟩
          rw [taken_snoc, show takenAt ⟨s, .answered now result⟩ = [] from rfl, List.append_nil,
            same, there] at hl
          cases hl
          exact .executed parsed rfl same.symm stage rfl
      | overlong stage found =>
          rw [resultsAt, takenAt_of_no_line (by simp [found])] at hr
          cases hr
      | endOfInput stage found =>
          rw [resultsAt, takenAt_of_no_line (by simp [found])] at hr
          cases hr
      | _ => cases hr

end Runs

end Session

end ShardConsole
