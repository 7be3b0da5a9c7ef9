import ShardConsole.Proofs.Console.Conversations
import ShardConsole.Proofs.Console.Grammar
import ShardConsole.Proofs.Pool.Departures
import ShardConsole.Proofs.Text.Mending

/-!
# Mended Lines

What a line can mean that is not well formed.

A line is mended before it is read, so that whatever bytes come are read as some text. The words
of that text are the mended words of the line, and a word that is ill formed is not mended into
the name of a verb, since it shows a replacement character. An ill-formed line is therefore a
mistake, unless its first word is well formed and names a verb that deletes. Then the names are
the mended words behind it, and at least one of them shows that it is mended.

So a session whose workers are alive takes any bytes at all and goes on, as long as nobody else
cuts it short. It ends with its input, or with a line that says `quit` in just these bytes.

## Main definitions

* `Framer.body`, `Framer.chomp`: What is read of a line, and of a text.
* `Command.Shows`: What a name shows of the bytes that it is mended from.
* `Command.AsksToLeave`: A line of bytes that says to quit.

## Theorems

* `Framer.text_encode`: A well-formed line is read as it is.
* `Command.parse_of_illFormed`: What an ill-formed line can mean.
* `Command.asksToLeave_iff`: No other bytes are read as the wish to leave.
* `Console.Run.not_dispatch`: Living workers can be reached.
* `Console.Run.ended_cases`: How a session ends whose workers are alive.
* `Console.garbled_lines_harmless`: What ill-formed bytes can do.
-/

namespace ShardConsole

namespace Framer

open Utf8 (encode mend WellFormed)

/-- A line without the carriage return at its end, if it has one. -/
def body (line : List UInt8) : List UInt8 :=
  if line.getLast? = some carriageReturn then line.dropLast else line

/-- A text without the carriage return at its end, if it has one. -/
def chomp (text : String) : String :=
  if text.toList.getLast? = some '\r' then String.ofList text.toList.dropLast else text

theorem text_eq (line : List UInt8) : text line = mend (body line) := rfl

-- A carriage return at the end of a text is one at the end of its bytes, and the other way round.
theorem body_encode (text : String) : body (encode text) = encode (chomp text) := by
  rcases text.toList.eq_nil_or_concat with none | ⟨front, c, whole⟩
  · rw [String.toList_eq_nil_iff.mp none]
    rfl
  · rw [List.concat_eq_append] at whole
    have bytes : encode text = front.flatMap String.utf8EncodeChar ++ String.utf8EncodeChar c := by
      rw [encode, whole, List.flatMap_append, List.flatMap_singleton]
    have last : (encode text).getLast? = (String.utf8EncodeChar c).getLast? := by
      rw [bytes, List.getLast?_append_of_ne_nil _ String.utf8EncodeChar_ne_nil]
    rw [body, chomp, last, whole, List.getLast?_concat]
    by_cases ends : c = '\r'
    · subst ends
      have one : String.utf8EncodeChar '\r' = [carriageReturn] := by decide
      rw [one, List.getLast?_singleton, if_pos rfl, if_pos rfl, bytes, one, List.dropLast_concat,
        List.dropLast_concat, Utf8.encode_ofList]
    · have other : (String.utf8EncodeChar c).getLast? ≠ some carriageReturn := by
        intro same
        have code := (Utf8.last_encodeChar same (by decide)).2
        exact ends (Char.toNat_inj.mp code)
      rw [if_neg other, if_neg (by simpa using ends)]

/-- A well-formed line is read as it is, without the carriage return at its end. -/
theorem text_encode (line : String) : text (encode line) = chomp line := by
  rw [text_eq, body_encode, Utf8.mend_encode]

end Framer

namespace Command

open Utf8 (encode mend replacement WellFormed)
open Framer (body)

/-- What a name shows of the bytes that it is mended from: the text that they encode, or a
    replacement character if they encode none. -/
structure Shows (word : List UInt8) (name : String) : Prop where
  mended : name = mend word
  kept : ∀ text, word = encode text → name = text
  marked : ¬WellFormed word → replacement ∈ name.toList

/-- A line of bytes that says to quit. -/
def AsksToLeave (line : List UInt8) : Prop :=
  ∃ text, body line = encode text ∧ Text.Spells text ["quit"]

section Words

variable {line : List UInt8} {words : List (List UInt8)} {word : List UInt8}

theorem shows_mend (word : List UInt8) : Shows word (mend word) where
  mended := rfl
  kept := by
    rintro text rfl
    exact Utf8.mend_encode text
  marked := Utf8.replacement_mem_mend

theorem replacement_not_mem_name (verb : Verb) : replacement ∉ verb.name.toList := by
  have each : ∀ verb ∈ Verb.all, replacement ∉ verb.name.toList := by decide
  exact each verb verb.mem_all

-- Only the bytes of its name are mended into a verb.
theorem eq_encode_of_mend_eq_name {verb : Verb} (same : mend word = verb.name) :
    word = encode verb.name := by
  by_cases wellFormed : WellFormed word
  · rcases wellFormed with ⟨text, rfl⟩
    rw [← same, Utf8.mend_encode]
  · exact absurd (same ▸ Utf8.replacement_mem_mend wellFormed) (replacement_not_mem_name verb)

/-- An ill-formed line is a mistake, or it deletes under the mended words behind the verb, at
    least one of which is ill formed and shows it. -/
theorem parse_of_illFormed (spaced : Text.Spaced Utf8.IsSeparator words (body line))
    (illFormed : ¬WellFormed (body line)) :
    (∃ name, parse (Framer.text line) = .error (.unknownCommand name)) ∨
    (∃ name reason, parse (Framer.text line) = .error (.invalidArguments name reason)) ∨
    ∃ kind args names, parse (Framer.text line) = .ok (some (.delete kind names)) ∧
      words = encode (Verb.delete kind).name :: args ∧ List.Forall₂ Shows args names ∧
      (∃ arg ∈ args, ¬WellFormed arg) ∧ ∃ name ∈ names, replacement ∈ name.toList := by
  have garbled : ∃ word ∈ words, ¬WellFormed word := by
    by_contra none
    push Not at none
    exact illFormed (Utf8.wellFormed_of_spaced spaced none)
  have reads := (parse_eq_iff (Utf8.spells_mend spaced)).mp rfl
  rw [← Framer.text_eq] at reads
  generalize mended : words.map mend = texts at reads
  generalize parse (Framer.text line) = result at reads
  cases reads with
  | unknown => exact Or.inl ⟨_, rfl⟩
  | arguments => exact Or.inr (Or.inl ⟨_, _, rfl⟩)
  | blank =>
      rw [List.map_eq_nil_iff] at mended
      rcases garbled with ⟨word, mem, _⟩
      rw [mended] at mem
      cases mem
  | @command c complete =>
      rcases List.map_eq_cons_iff.mp mended with ⟨verb, args, rfl, name, arguments⟩
      have verb_eq := eq_encode_of_mend_eq_name name
      -- The verb is well formed, so that another word is not.
      have behind : ∃ arg ∈ args, ¬WellFormed arg := by
        rcases garbled with ⟨word, mem, bad⟩
        rcases List.mem_cons.mp mem with rfl | later
        · exact absurd ⟨_, verb_eq⟩ bad
        · exact ⟨word, later, bad⟩
      rcases behind with ⟨arg, mem, bad⟩
      have marked : mend arg ∈ c.arguments := arguments ▸ List.mem_map_of_mem mem
      cases c with
      | help | stats | list | quit => cases marked
      | delete kind names =>
          refine Or.inr (Or.inr ⟨kind, args, names, rfl, by rw [verb_eq]; rfl, ?_,
            ⟨arg, mem, bad⟩, mend arg, marked, Utf8.replacement_mem_mend bad⟩)
          have names_eq : names = args.map mend := arguments.symm
          rw [names_eq, List.forall₂_map_right_iff, List.forall₂_same]
          exact fun word _ => shows_mend word

/-- No other bytes are read as the wish to leave. -/
theorem asksToLeave_iff : AsksToLeave line ↔ parse (Framer.text line) = .ok (some .quit) := by
  constructor
  · rintro ⟨text, same, spells⟩
    rw [Framer.text_eq, same, Utf8.mend_encode, parse_eq_iff spells]
    exact .command (c := .quit) trivial
  · intro parsed
    have spells := Text.spells_words (Framer.text line)
    have quits := (reads_command_iff.mp ((parse_eq_iff spells).mp parsed)).2
    have wellFormed : WellFormed (body line) := by
      by_contra illFormed
      rcases Text.exists_spaced Utf8.isSeparator_ne_nil (body line) with ⟨words, spaced⟩
      rcases parse_of_illFormed spaced illFormed with
        ⟨_, other⟩ | ⟨_, _, other⟩ | ⟨_, _, _, other, _⟩ <;> cases parsed.symm.trans other
    rcases wellFormed with ⟨text, same⟩
    refine ⟨text, same, ?_⟩
    rw [Framer.text_eq, same, Utf8.mend_encode] at spells quits
    rw [quits] at spells
    exact spells

end Words

end Command

namespace Console

open Framer (body linesOf)
open Session (received taken results)
open Utf8 (encode replacement WellFormed)

section Workers

variable {start c c' : Console} {h h₁ h₂ : List Moment} {m : Moment} {s : SessionId} {i : Nat}
  {command : Command} {cause : Unavailable}

-- Nobody who is alive at the end of a run was dead at its beginning.
theorem allAlive_of_run {p p' : Pool} {g : List Pool.Moment} (run : Pool.Run p g p')
    (alive : p'.AllAlive) : p.AllAlive := by
  induction run with
  | start => exact alive
  | next _ act ih => exact ih (alive.of_act? act)

theorem Run.allAlive_before (run : Run start (h₁ ++ m :: h₂) c) (alive : c.pool.AllAlive) :
    m.before.pool.AllAlive :=
  allAlive_of_run (Run.pool run.onward) alive

-- The execution of a command fails only with a call that has failed.
theorem Executed.failed_call (executed : Executed h s i command (.error (.dispatch cause))) :
    ∃ m ∈ h, ∃ call, m.before.pool.result? call = some (.error cause) := by
  generalize failed : (.error (.dispatch cause) : Except Error String) = result at executed
  cases executed with
  | @called call reply m _ _ mem _ _ _ returned =>
      cases reply with
      | ok reply =>
          rcases outcome_of_ok command reply with ⟨text, same⟩
          rw [same] at failed
          cases failed
      | error cause' =>
          cases failed
          exact ⟨m, mem, call, returned⟩
  | atOnce begun =>
      subst failed
      rcases begun with ⟨_, _, _, _, _, _, came⟩
      cases command with
      | help | stats | quit | delete => cases came
      | list kind =>
          rw [execute] at came
          split at came <;> cases came

/-- Living workers can be reached. -/
theorem Run.not_dispatch (run : Run start h c) (fresh : start.IsFresh) (alive : c.pool.AllAlive) :
    ¬Executed h s i command (.error (.dispatch cause)) := by
  intro executed
  rcases executed.failed_call with ⟨m, mem, call, returned⟩
  rcases List.append_of_mem mem with ⟨h₁, h₂, rfl⟩
  have living := run.allAlive_before alive
  have pool := Run.pool run.split.1
  rcases pool.phase_of_result fresh.pool living returned with ⟨_, hc, phase⟩
  rcases pool.returned_at fresh.pool living hc phase with ⟨_, _, _, _, _, _, _, _, _, _, same⟩
  cases same

end Workers

section Endings

variable {start c : Console} {h : List Moment} {s : SessionId} {seat : Seat}

/-- A session that nothing cuts short and whose workers are alive has ended because its input has
    ended and every line has been taken, or because the line that was taken last says to quit. -/
theorem Run.ended_cases (run : Run start h c) (fresh : start.IsFresh)
    (hs : c.seats[s]? = some seat) (calm : seat.session.Calm) (alive : c.pool.AllAlive)
    (short : ∀ line ∈ linesOf (received (history s h)),
      line.length ≤ seat.session.framer.maxLength) {how : Except Error Unit}
    (stage : seat.session.stage = .ended how) :
    (how = .ok () ∧ seat.session.inputEnded = true ∧
      taken (history s h) = linesOf (received (history s h))) ∨
    (how = .error .quit ∧ ∃ line, (taken (history s h)).getLast? = some line ∧
      Command.AsksToLeave line) := by
  have converses := run.converses fresh hs calm short
  cases how with
  | ok =>
      rcases (converses.ended _ stage).2.2.2 rfl with ⟨ended, all⟩
      exact Or.inl ⟨rfl, ended, all⟩
  | error e =>
      rcases converses.reason e stage with ⟨line, last, failed, ⟨rfl, parsed⟩ | ⟨cause, rfl⟩⟩
      · exact Or.inr ⟨rfl, line, last, Command.asksToLeave_iff.mpr parsed⟩
      · -- The last line has failed at a worker that was dead.
        exfalso
        rw [List.getLast?_eq_getElem?] at last failed
        rw [(converses.ended _ stage).2.1] at failed
        cases run.handled fresh hs last failed with
        | mistaken _ protocol => cases protocol
        | failed _ _ executed => exact run.not_dispatch fresh alive executed

end Endings

/-- Ill-formed bytes do not turn into another command.

    A well-formed line is read as the text that it encodes, without a carriage return at its end.
    The bytes of any line are words and blanks, and if the line is ill formed it is a mistake, or
    a deletion of the words behind its verb: each well-formed one is deleted as the text that it
    encodes, each other one shows a replacement character, and there is one that does. Therefore
    no bytes end a session whose workers are alive and which nothing else cuts short before its
    input ends, unless they are a line that says to quit. Nor does it break down, unless no
    listing at all can be carried out because the result buffer is too large for a channel. -/
theorem garbled_lines_harmless :
    (∀ text, Command.parse (Framer.text (encode text)) = Command.parse (Framer.chomp text)) ∧
    (∀ line, ∃ words, Text.Spaced Utf8.IsSeparator words (body line)) ∧
    (∀ line words, Text.Spaced Utf8.IsSeparator words (body line) → ¬WellFormed (body line) →
      (∃ name, Command.parse (Framer.text line) = .error (.unknownCommand name)) ∨
      (∃ name reason,
        Command.parse (Framer.text line) = .error (.invalidArguments name reason)) ∨
      ∃ kind args names, Command.parse (Framer.text line) = .ok (some (.delete kind names)) ∧
        words = encode (Verb.delete kind).name :: args ∧ List.Forall₂ Command.Shows args names ∧
        (∃ arg ∈ args, ¬WellFormed arg) ∧ ∃ name ∈ names, replacement ∈ name.toList) ∧
    ∀ (start c : Console) (h : List Moment) (s : SessionId) (seat : Seat), Run start h c →
      start.IsFresh → c.seats[s]? = some seat → seat.session.Calm → c.pool.AllAlive →
      (∀ line ∈ linesOf (received (history s h)),
        line.length ≤ seat.session.framer.maxLength) →
      (∀ how, seat.session.stage = .ended how →
        (how = .ok () ∧ seat.session.inputEnded = true ∧
          taken (history s h) = linesOf (received (history s h))) ∨
        (how = .error .quit ∧ ∃ line, (taken (history s h)).getLast? = some line ∧
          Command.AsksToLeave line)) ∧
      (seat.session.stage = .broken → Channel.maxCapacity < c.resultBuffer) :=
  ⟨fun text => by rw [Framer.text_encode],
    fun line => Text.exists_spaced Utf8.isSeparator_ne_nil (body line),
    fun _ _ spaced illFormed => Command.parse_of_illFormed spaced illFormed,
    fun _ _ _ _ _ run fresh hs calm alive short =>
      ⟨fun _ stage => run.ended_cases fresh hs calm alive short stage,
        run.exceeds_of_broken fresh hs⟩⟩

/-- A deletion of two sets, the name of the first of which is cut off in the middle of a
    character. -/
def garbledDeletion : List UInt8 :=
  encode "delsets a" ++ [0xC3] ++ encode "\u00a0b"

/-- An operator sends that line, and then the wish to leave. -/
def garbledConversation : List Action :=
  [.opened "" 64 none, .sent 0 (garbledDeletion ++ encode "\nquit\r\n"),
    .step (.session 0 .begin), .step (.session 0 .prompt), .step (.session 0 (.read 20)),
    .step (.session 0 .take), .step (.execute 0)] ++
  List.map (fun step => .step (.pool step))
    [.submit 0, .submit 0, .take 0, .dropWork 0, .finish 0, .signal 0, .conclude 0] ++
  [.step (.resume 0), .step (.session 0 (.write 15)), .step (.session 0 .begin),
    .step (.session 0 .prompt), .step (.session 0 .take), .step (.execute 0),
    .step (.session 0 (.write (encode Command.farewell).length))]

theorem garbledConversation_goes_on :
    Command.parse (Framer.text garbledDeletion) = .ok (some (.delete .set ["a\uFFFD", "b"])) ∧
    (∃ args, List.Forall₂ Command.Shows args ["a\uFFFD", "b"] ∧ ∃ arg ∈ args, ¬WellFormed arg) ∧
    ∃ h c seat, Run (start 1 16) h c ∧ c.seats[0]? = some seat ∧
      seat.session.stage = .ended (.error .quit) ∧ (taken (history 0 h)).length = 2 ∧
      ∃ line, (taken (history 0 h)).getLast? = some line ∧ Command.AsksToLeave line := by
  rcases garbled_lines_harmless with ⟨_, cut, garbled, ends⟩
  have parsed : Command.parse (Framer.text garbledDeletion) =
      .ok (some (.delete .set ["a\uFFFD", "b"])) := by decide +kernel
  have illFormed : ¬WellFormed (body garbledDeletion) := by
    rintro ⟨text, same⟩
    have mended := congrArg (fun bytes => encode (Utf8.mend bytes)) same
    rw [Utf8.mend_encode, ← same] at mended
    exact absurd mended (by decide +kernel)
  refine ⟨parsed, ?_, ?_⟩
  · rcases cut garbledDeletion with ⟨words, spaced⟩
    rcases garbled garbledDeletion words spaced illFormed with
      ⟨_, other⟩ | ⟨_, _, other⟩ | ⟨kind, args, names, deletes, _, shows, bad, _⟩
    · cases parsed.symm.trans other
    · cases parsed.symm.trans other
    · cases parsed.symm.trans deletes
      exact ⟨args, shows, bad⟩
  · have done : (Trace.perform? react? [] (start 1 16) garbledConversation).map (fun r =>
        (r.2.seats[0]?.map fun seat => (seat.session.stage, seat.session.cancelled,
          seat.session.outlet, seat.session.framer.maxLength),
          r.2.pool.workers.all Pool.Worker.isAlive)) =
        some (some (.ended (.error .quit), false, .free, 64), true) := by
      decide +kernel
    have lines : (Trace.perform? react? [] (start 1 16) garbledConversation).map (fun r =>
        ((linesOf (received (history 0 r.1))).all (·.length ≤ 64),
          (taken (history 0 r.1)).length)) = some (true, 2) := by
      decide +kernel
    rcases Option.map_eq_some_iff.mp done with ⟨⟨h, c⟩, performed, facts⟩
    rw [performed, Option.map_some, Option.some.injEq, Prod.mk.injEq] at lines
    rw [Prod.mk.injEq] at facts
    rcases facts with ⟨facts, alive⟩
    rcases Option.map_eq_some_iff.mp facts with ⟨seat, hs, facts⟩
    simp only [Prod.mk.injEq] at facts
    rcases facts with ⟨stage, uncancelled, taken, longest⟩
    have run : Run (start 1 16) h c := Trace.of_perform? .start performed
    have calm : seat.session.Calm := ⟨uncancelled, by simp [taken], by simp [stage]⟩
    have short : ∀ line ∈ linesOf (received (history 0 h)),
        line.length ≤ seat.session.framer.maxLength := by
      intro line mem
      rw [longest]
      simpa using List.all_eq_true.mp lines.1 line mem
    refine ⟨h, c, seat, run, hs, stage, lines.2, ?_⟩
    rcases (ends _ c h 0 seat run (isFresh_start 1 16) hs calm (Pool.allAlive_of_all alive)
      short).1 _ stage with ⟨other, _⟩ | ⟨_, quits⟩
    · cases other
    · exact quits

end Console

end ShardConsole
