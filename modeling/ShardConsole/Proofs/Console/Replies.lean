import ShardConsole.Proofs.Console.Dialogue
import ShardConsole.Proofs.Console.Grammar
import ShardConsole.Proofs.Text.Quoting

/-!
# Replies to Mistakes

What an operator is told of a mistake.

There are two kinds of mistakes, and `Mistake` lists them: a first word that is no verb, which is
quoted, and a verb with a wrong number of arguments, of which there are only as many as there are
verbs. Whatever the quoted word is, its quotation has no control character, and so the reply is one
line that does nothing to the terminal on which it is shown. A word is determined by its quotation,
and the message about an unknown word begins like no other one, so that the reply tells what the
mistake was.

## Main definitions

* `Mistake`: What is wrong with a line that cannot be read.

## Theorems

* `Command.mistake_of_parse`: A line that cannot be read is one of these mistakes.
* `Mistake.not_control`: No message about a mistake has a control character.
* `Mistake.reply_injective`: A mistake is determined by its reply.
* `Session.takeLine_of_mistake`: A session writes the reply.
* `Session.mistakes_answered_apart`: What replies show.
-/

namespace ShardConsole

/-- What is wrong with a line that cannot be read. -/
inductive Mistake : Error → Prop
  | unknown (name : String) : Mistake (.unknownCommand name)
  | arguments (verb : Verb) : Mistake (.invalidArguments verb.name verb.complaint)

section Messages

variable {line : String} {e f : Error} {c : Char}

/-- A line that cannot be read is one of these mistakes. -/
theorem Command.mistake_of_parse (parsed : Command.parse line = .error e) : Mistake e := by
  have reads := (parse_eq_iff (Text.spells_words line)).mp parsed
  generalize (Text.words line.toList).map String.ofList = words at reads
  cases reads with
  | arguments => exact .arguments _
  | unknown => exact .unknown _

theorem message_unknownCommand (name : String) :
    (Error.unknownCommand name).message = "unknown command " ++ Text.quote name := rfl

/-- No message about a mistake has a control character. -/
theorem Mistake.not_control (mistake : Mistake e) (mem : c ∈ e.message.toList) :
    ¬Text.IsControl c := by
  cases mistake with
  | unknown name =>
      rw [message_unknownCommand, String.toList_append] at mem
      rcases List.mem_append.mp mem with front | quoted
      · exact Text.not_control_of_all (by decide +kernel) front
      · exact Text.not_control_of_mem_quote quoted
  | arguments verb =>
      have plain : ∀ verb ∈ Verb.all,
          (Error.invalidArguments verb.name verb.complaint).message.toList.all
            (fun c => ¬Text.IsControl c) = true := by decide +kernel
      exact Text.not_control_of_all (plain verb verb.mem_all) mem

-- No verb begins like the message about an unknown word.
theorem head_message (name : String) (verb : Verb) :
    (Error.unknownCommand name).message.toList.head? ≠
      (Error.invalidArguments verb.name verb.complaint).message.toList.head? := by
  have other : ∀ verb ∈ Verb.all,
      some 'u' ≠ (Error.invalidArguments verb.name verb.complaint).message.toList.head? := by
    decide
  have first : (Error.unknownCommand name).message.toList.head? = some 'u' := by
    rw [message_unknownCommand, String.toList_append]
    rfl
  rw [first]
  exact other verb verb.mem_all

/-- A mistake is determined by its message. -/
theorem Mistake.message_injective (he : Mistake e) (hf : Mistake f)
    (same : e.message = f.message) : e = f := by
  cases he with
  | unknown name =>
      cases hf with
      | unknown name' =>
          rw [message_unknownCommand, message_unknownCommand, String.append_right_inj] at same
          rw [Text.quote_injective same]
      | arguments verb => exact absurd (by rw [same]) (head_message name verb)
  | arguments verb =>
      cases hf with
      | unknown name => exact absurd (by rw [same]) (head_message name verb)
      | arguments verb' =>
          have apart : ∀ verb ∈ Verb.all, ∀ verb' ∈ Verb.all,
              (Error.invalidArguments verb.name verb.complaint).message =
                (Error.invalidArguments verb'.name verb'.complaint).message → verb = verb' := by
            decide
          rw [apart verb verb.mem_all verb' verb'.mem_all same]

/-- A mistake is determined by its reply. -/
theorem Mistake.reply_injective (he : Mistake e) (hf : Mistake f) (same : e.reply = f.reply) :
    e = f := by
  rw [Error.reply, Error.reply, String.append_left_inj, String.append_right_inj] at same
  exact he.message_injective hf same

end Messages

namespace Session

section Sessions

variable {s : Session} {h : List Moment} {now i : Nat} {line : List UInt8} {e : Error}
  {prompt : String} {maxLength : Nat} {idleLimit : Option Nat} {cancelled : Bool}
  {result : Except Error String}

theorem response_of_mistake (mistake : Mistake e) : response (.error e) = e.reply := by
  cases mistake <;> rfl

theorem reply_ne_empty (e : Error) : e.reply ≠ "" := by
  intro empty
  have last := congrArg String.toList empty
  rw [Error.reply, String.toList_append] at last
  exact List.cons_ne_nil _ _ (List.append_eq_nil_iff.mp last).2

/-- A session that takes a line that cannot be read writes the reply and begins again. -/
theorem takeLine_of_mistake (parsed : Command.parse (Framer.text line) = .error e) :
    s.takeLine now line = { s with stage := .writing (Utf8.encode e.reply) .again } := by
  have mistake := Command.mistake_of_parse parsed
  have stays : ending? (.error e) = none := by cases mistake <;> rfl
  have some : e.reply.isEmpty = false := by
    rw [Bool.eq_false_iff, ne_eq, String.isEmpty_iff]
    exact reply_ne_empty e
  rw [takeLine, parsed]
  simp only [answer_of_open stays, response_of_mistake mistake, write, some, if_false,
    Bool.false_eq_true]

/-- In every run of a session the result of a line that cannot be read is the mistake. -/
theorem Run.result_of_mistake (so : Run (.start prompt maxLength idleLimit cancelled) h s)
    (hl : (taken h)[i]? = some line) (hr : (results h)[i]? = some result)
    (parsed : Command.parse (Framer.text line) = .error e) : result = .error e := by
  cases so.handles hl hr with
  | immediate immediate =>
      rw [immediate?, parsed] at immediate
      exact (Option.some.inj immediate).symm
  | executed other => cases parsed.symm.trans other

end Sessions

/-- What replies to mistakes show.

    A session that takes a line that cannot be read writes the reply to the mistake, and in every
    run this is the response to the line. The reply is one line: nothing but its end is a newline
    or any other control character. Whatever two lines there are that cannot be read, if they get
    one reply they have one mistake. So different first words that are no verbs get different
    replies, and no reply about an unknown word is one about the arguments of a verb. -/
theorem mistakes_answered_apart :
    (∀ (line : List UInt8) (e : Error), Command.parse (Framer.text line) = .error e →
      (∀ (s : Session) (now : Nat),
        s.takeLine now line = { s with stage := .writing (Utf8.encode e.reply) .again }) ∧
      ∀ (prompt : String) (maxLength : Nat) (idleLimit : Option Nat) (cancelled : Bool)
        (h : List Moment) (s : Session) (i : Nat) (result : Except Error String),
        Run (.start prompt maxLength idleLimit cancelled) h s → (taken h)[i]? = some line →
          (results h)[i]? = some result → response result = e.reply) ∧
    (∀ line e, Command.parse line = .error e →
      ∃ shown, e.reply = shown ++ "\n" ∧ ∀ c ∈ shown.toList, ¬Text.IsControl c) ∧
    (∀ line line' e e', Command.parse line = .error e → Command.parse line' = .error e' →
      e.reply = e'.reply → e = e') ∧
    (∀ line line' first rest first' rest', Text.Spells line (first :: rest) →
      Text.Spells line' (first' :: rest') → (∀ verb : Verb, verb.name ≠ first) →
      (∀ verb : Verb, verb.name ≠ first') → first ≠ first' →
      ∃ e e', Command.parse line = .error e ∧ Command.parse line' = .error e' ∧
        e.reply ≠ e'.reply) ∧
    ∀ line line' name verb reason, Command.parse line = .error (.unknownCommand name) →
      Command.parse line' = .error (.invalidArguments verb reason) →
      (Error.unknownCommand name).reply ≠ (Error.invalidArguments verb reason).reply := by
  have apart : ∀ line line' e e', Command.parse line = .error e →
      Command.parse line' = .error e' → e.reply = e'.reply → e = e' :=
    fun _ _ _ _ parsed parsed' same =>
      (Command.mistake_of_parse parsed).reply_injective (Command.mistake_of_parse parsed') same
  refine ⟨?_, ?_, apart, ?_, ?_⟩
  · intro line e parsed
    refine ⟨fun s now => takeLine_of_mistake parsed, ?_⟩
    intro _ _ _ _ _ _ _ result so hl hr
    rw [so.result_of_mistake hl hr parsed,
      response_of_mistake (Command.mistake_of_parse parsed)]
  · intro line e parsed
    refine ⟨"error: " ++ e.message, rfl, fun c mem => ?_⟩
    rw [String.toList_append] at mem
    rcases List.mem_append.mp mem with front | inside
    · exact Text.not_control_of_all (by decide +kernel) front
    · exact (Command.mistake_of_parse parsed).not_control inside
  · intro line line' first rest first' rest' spells spells' none none' other
    have parsed := (Command.parse_eq_iff spells).mpr (.unknown none)
    have parsed' := (Command.parse_eq_iff spells').mpr (.unknown none')
    refine ⟨_, _, parsed, parsed', fun same => ?_⟩
    cases apart line line' _ _ parsed parsed' same
    exact other rfl
  · intro line line' name verb reason parsed parsed' same
    cases apart line line' _ _ parsed parsed' same

/-- A word that would clear a terminal, and the word that looks like its quotation. -/
theorem clearingWord_answered_apart :
    Command.parse "\x1b[2J" = .error (.unknownCommand "\x1b[2J") ∧
    (Error.unknownCommand "\x1b[2J").reply =
      "error: unknown command \"\\u\x7b1b\x7d[2J\"\n" ∧
    (Error.unknownCommand "\x1b[2J").reply ≠
      (Error.unknownCommand "\\u\x7b1b\x7d[2J").reply := by
  rcases mistakes_answered_apart with ⟨_, _, _, apart, _⟩
  have none {word : String} (other : ∀ verb ∈ Verb.all, verb.name ≠ word) (verb : Verb) :
      verb.name ≠ word := other verb verb.mem_all
  have clearing : Command.parse "\x1b[2J" = .error (.unknownCommand "\x1b[2J") := by
    decide +kernel
  have literal : Command.parse "\\u\x7b1b\x7d[2J" =
      .error (.unknownCommand "\\u\x7b1b\x7d[2J") := by
    decide +kernel
  rcases apart "\x1b[2J" "\\u\x7b1b\x7d[2J" "\x1b[2J" [] "\\u\x7b1b\x7d[2J" []
    (Text.spells_iff.mpr (by decide +kernel)) (Text.spells_iff.mpr (by decide +kernel))
    (none (by decide)) (none (by decide)) (by decide) with ⟨e, e', parsed, parsed', other⟩
  cases clearing.symm.trans parsed
  cases literal.symm.trans parsed'
  exact ⟨clearing, by decide +kernel, other⟩

end Session

end ShardConsole
