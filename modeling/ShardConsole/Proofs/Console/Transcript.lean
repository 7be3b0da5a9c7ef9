import ShardConsole.Console.Session
import ShardConsole.Proofs.Text.Encoding

/-!
# Transcripts

What a session writes, as a function of what its lines give.

Every line that a session handles has a result: nothing for a blank line, an error for a line
with a mistake, and for a command whatever its execution gives. `transcript` and `verdict` fold
over these results: the prompt stands before every line, the response to the line behind it, and
the first result that is not answered and left behind ends the session. What would come after
it makes no difference.

The steps of a session do not come in these portions. A text is written byte by byte, a text
that is empty is not written at all, and a command can take any time. That a session writes the
transcript all the same is what the theorems about its runs say.

## Main definitions

* `Session.response`: What is written in answer to a result.
* `Session.ending?`: The error with which a result ends the session, if it does.
* `Session.told`: What has been written before the prompt for the next line.
* `Session.transcript`: Everything that is written.
* `Session.verdict`: How the session ends.
* `Session.immediate?`: The result of a line that holds no command.

## Theorems

* `Command.isProtocol_of_parse`: A line that cannot be read is a mistake of the operator.
* `Session.transcript_append`: A transcript goes on until a result ends it.
* `Session.answer_of_open`, `Session.answer_quit`, `Session.answer_of_ending`: What a session
  does with a result.
-/

namespace ShardConsole

namespace Session

/-- What a session writes in answer to a result. -/
def response : Except Error String → String
  | .ok text => text
  | .error .quit => Command.farewell
  | .error e => if e.isProtocol then e.reply else ""

/-- The error with which a result ends the session, if it ends it. -/
def ending? : Except Error String → Option Error
  | .ok _ => none
  | .error e => if e.isProtocol then none else some e

/-- What has been written when all results have been answered, before the next prompt. -/
def told (prompt : String) : List (Except Error String) → String
  | [] => ""
  | result :: rest => prompt ++ response result ++ told prompt rest

/-- Everything that a session writes whose lines have the given results. -/
def transcript (prompt : String) : List (Except Error String) → String
  | [] => prompt
  | result :: rest =>
    match ending? result with
    | none => prompt ++ response result ++ transcript prompt rest
    | some _ => prompt ++ response result

/-- How a session ends whose lines have the given results and whose input ends then. -/
def verdict : List (Except Error String) → Except Error Unit
  | [] => .ok ()
  | result :: rest =>
    match ending? result with
    | none => verdict rest
    | some e => .error e

/-- The result of a line that holds no command. -/
def immediate? (line : List UInt8) : Option (Except Error String) :=
  match Command.parse (Framer.text line) with
  | .ok (some _) => none
  | .ok none => some (.ok "")
  | .error e => some (.error e)

end Session

section Parsing

variable {line : String} {e : Error}

/-- A line that cannot be read is a mistake of the operator. -/
theorem Command.isProtocol_of_parse (mistake : Command.parse line = .error e) :
    e.isProtocol = true := by
  rw [parse] at mistake
  cases words : (Text.words line.toList).map String.ofList with
  | nil =>
      rw [words] at mistake
      cases mistake
  | cons word args =>
      rw [words, ofWords] at mistake
      cases verb : Verb.ofName? word with
      | none =>
          rw [verb] at mistake
          cases mistake
          rfl
      | some verb' =>
          rw [verb] at mistake
          cases applied : verb'.apply args with
          | ok command => simp [applied, Except.map] at mistake
          | error cause =>
              have same : cause = e := by simpa [applied, Except.map] using mistake
              -- All verbs complain in the same way.
              rw [← same]
              unfold Verb.apply at applied
              split at applied <;> cases applied <;> rfl

end Parsing

namespace Session

section Folds

variable {prompt : String} {results more : List (Except Error String)}
  {result : Except Error String} {e : Error}

theorem told_append : told prompt (results ++ more) = told prompt results ++ told prompt more := by
  induction results with
  | nil => simp [told]
  | cons result rest ih => simp only [List.cons_append, told, ih, String.append_assoc]

theorem told_snoc : told prompt (results ++ [result]) =
    told prompt results ++ prompt ++ response result := by
  rw [told_append, told, told, String.append_empty, String.append_assoc]

theorem verdict_append (going : verdict results = .ok ()) :
    verdict (results ++ more) = verdict more := by
  induction results with
  | nil => rfl
  | cons result rest ih =>
      rw [verdict] at going
      cases ends : ending? result with
      | none =>
          rw [ends] at going
          rw [List.cons_append, verdict, ends]
          exact ih going
      | some e =>
          rw [ends] at going
          cases going

/-- A transcript goes on with the next results as long as none of them has ended it. -/
theorem transcript_append (going : verdict results = .ok ()) :
    transcript prompt (results ++ more) = told prompt results ++ transcript prompt more := by
  induction results with
  | nil => simp [told]
  | cons result rest ih =>
      rw [verdict] at going
      cases ends : ending? result with
      | none =>
          rw [ends] at going
          simp only [List.cons_append, transcript, ends, told, ih going, String.append_assoc]
      | some e =>
          rw [ends] at going
          cases going

theorem transcript_of_going (going : verdict results = .ok ()) :
    transcript prompt results = told prompt results ++ prompt := by
  have whole := @transcript_append prompt results [] going
  rwa [List.append_nil, transcript] at whole

theorem verdict_snoc_of_open (going : verdict results = .ok ()) (stays : ending? result = none) :
    verdict (results ++ [result]) = .ok () := by
  rw [verdict_append going, verdict, stays]
  rfl

theorem verdict_snoc_of_ending (going : verdict results = .ok ())
    (ends : ending? result = some e) : verdict (results ++ [result]) = .error e := by
  rw [verdict_append going, verdict, ends]

theorem transcript_snoc_of_ending (going : verdict results = .ok ())
    (ends : ending? result = some e) :
    transcript prompt (results ++ [result]) = told prompt (results ++ [result]) := by
  simp only [transcript_append going, told_snoc, transcript, ends, String.append_assoc]

theorem ending?_of_going (going : verdict results = .ok ()) (mem : result ∈ results) :
    ending? result = none := by
  induction results with
  | nil => cases mem
  | cons first rest ih =>
      rw [verdict] at going
      cases ends : ending? first with
      | none =>
          rw [ends] at going
          rcases List.mem_cons.mp mem with rfl | later
          · exact ends
          · exact ih going later
      | some e =>
          rw [ends] at going
          cases going

-- A session does not end with a mistake of the operator.
theorem isProtocol_of_ending (ends : ending? result = some e) : e.isProtocol = false := by
  cases result with
  | ok text => cases ends
  | error cause =>
      cases protocol : cause.isProtocol with
      | true => simp [ending?, protocol] at ends
      | false =>
          simp [ending?, protocol] at ends
          rw [← ends, protocol]

-- An error that ends a session is not answered, unless the operator asked to leave.
theorem response_of_ending (ends : ending? result = some e) (stays : result ≠ .error .quit) :
    response result = "" := by
  cases result with
  | ok text => cases ends
  | error cause =>
      cases protocol : cause.isProtocol with
      | true => simp [ending?, protocol] at ends
      | false =>
          cases cause <;> first
            | exact absurd rfl stays
            | cases protocol; done
            | rfl

end Folds

section Answers

variable {s : Session} {now : Nat} {result : Except Error String} {e : Error}

/-- A result that does not end the session is answered, and the session begins again. -/
theorem answer_of_open (stays : ending? result = none) :
    s.answer now result = s.write now (response result) .again := by
  cases result with
  | ok text => rfl
  | error e =>
      cases protocol : e.isProtocol with
      | false => simp [ending?, protocol] at stays
      | true => cases e <;> first | cases protocol; done | rfl

/-- An operator who asks to leave is answered, and the session ends. -/
theorem answer_quit : s.answer now (.error .quit) =
    s.write now (response (.error .quit)) .leave := rfl

/-- Any other error ends the session without an answer. -/
theorem answer_of_ending (ends : ending? result = some e) (stays : result ≠ .error .quit) :
    s.answer now result = { s with stage := .ended (.error e) } := by
  cases result with
  | ok text => cases ends
  | error cause =>
      cases protocol : cause.isProtocol with
      | true => simp [ending?, protocol] at ends
      | false =>
          have same : cause = e := by simpa [ending?, protocol] using ends
          subst same
          cases cause <;> first
            | exact absurd rfl stays
            | cases protocol; done
            | rfl

end Answers

end Session

end ShardConsole
