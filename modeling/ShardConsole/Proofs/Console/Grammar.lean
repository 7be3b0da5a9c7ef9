import ShardConsole.Console.Command
import ShardConsole.Proofs.Text.Words

/-!
# The Grammar of Commands

Which lines are commands.

What a line means depends on its words alone. `Command.Reads` lists what words can mean, one rule
for each kind of outcome, and says nothing about how a verb is looked up: a command is read from
its own words, a verb with a wrong number of arguments is reported under its name, and a first
word that is no verb is reported itself. No words match two rules, and every line has words, so
the rules say for each line what is read from it.

## Main definitions

* `Verb.Admits`: So many arguments are right for a verb.
* `Verb.complaint`: What is said about a wrong number of arguments.
* `Command.Reads`: What words can mean.

## Theorems

* `Command.eq_ok_of_apply`, `Command.eq_error_of_apply`: What a verb makes of its arguments.
* `Command.ofWords_eq_iff`: What is read from words is what they mean.
* `Command.parse_eq_iff`: What is read from a line is what its words mean.
* `Command.parse_grammar`: Which lines are commands, and which are mistakes.
-/

namespace ShardConsole

namespace Verb

/-- So many arguments are right for a verb: one or more for those that delete, and else none. -/
def Admits : Verb → List String → Prop
  | delete _, args => args ≠ []
  | _, args => args = []

/-- What is said about a wrong number of arguments. -/
def complaint : Verb → String
  | delete _ => "expected at least one metric name"
  | _ => "takes no arguments"

section Names

variable {verb verb' : Verb} {args : List String} {word : String}

/-- No two verbs have one name. -/
theorem name_injective (same : verb.name = verb'.name) : verb = verb' := by
  have found : ofName? verb.name = some verb := ofName?_eq_some_iff.mpr rfl
  rw [same, ofName?_eq_some_iff.mpr rfl] at found
  exact (Option.some.inj found).symm

theorem ofName?_eq_none_iff : ofName? word = none ↔ ∀ verb : Verb, verb.name ≠ word := by
  constructor
  · rintro none verb rfl
    rw [ofName?_eq_some_iff.mpr rfl] at none
    cases none
  · intro other
    cases found : ofName? word with
    | none => rfl
    | some verb => exact absurd (ofName?_eq_some_iff.mp found).symm (other verb)

theorem mem_all (verb : Verb) : verb ∈ all := by
  rcases verb with _ | _ | kind | kind | _
  · decide
  · decide
  · cases kind <;> decide
  · cases kind <;> decide
  · decide

/-- The names of the verbs are these eleven words. -/
theorem exists_name_iff : (∃ verb : Verb, verb.name = word) ↔
    word ∈ ["help", "stats", "counters", "timers", "gauges", "sets", "delcounters", "deltimers",
      "delgauges", "delsets", "quit"] := by
  have names : Verb.all.map Verb.name =
      ["help", "stats", "counters", "timers", "gauges", "sets", "delcounters", "deltimers",
        "delgauges", "delsets", "quit"] := by decide
  rw [← names, List.mem_map]
  exact ⟨fun ⟨verb, same⟩ => ⟨verb, mem_all verb, same⟩, fun ⟨verb, _, same⟩ => ⟨verb, same⟩⟩

end Names

end Verb

namespace Command

/-- What words can mean. -/
inductive Reads : List String → Except Error (Option Command) → Prop
  /-- No words mean nothing. -/
  | blank : Reads [] (.ok none)
  /-- The words of a command mean the command. -/
  | command {c : Command} (complete : c.IsComplete) : Reads c.words (.ok (some c))
  /-- A verb with a wrong number of arguments is a mistake. -/
  | arguments {verb : Verb} {args : List String} (wrong : ¬verb.Admits args) :
      Reads (verb.name :: args) (.error (.invalidArguments verb.name verb.complaint))
  /-- So is a first word that is no verb. -/
  | unknown {name : String} {args : List String} (none : ∀ verb : Verb, verb.name ≠ name) :
      Reads (name :: args) (.error (.unknownCommand name))

section Reading

variable {verb : Verb} {args words : List String} {c : Command} {e : Error} {line : String}
  {result : Except Error (Option Command)}

theorem isComplete_iff : c.IsComplete ↔ c.verb.Admits c.arguments := by
  cases c with
  | delete kind names => exact Iff.rfl
  | help | stats | list | quit => exact ⟨fun _ => rfl, fun _ => trivial⟩

-- The words of a command are its verb's name and its arguments, and no other command has them.
theorem words_eq_iff : verb.name :: args = c.words ↔ verb = c.verb ∧ args = c.arguments := by
  rw [words, name, List.cons.injEq]
  exact and_congr_left fun _ => ⟨fun same => Verb.name_injective same, fun same => by rw [same]⟩

/-- With the right number of arguments a verb makes the command that consists of them. -/
theorem eq_ok_of_apply (applied : verb.apply args = .ok c) :
    c.IsComplete ∧ verb = c.verb ∧ args = c.arguments := by
  cases verb with
  | delete kind =>
      cases args with
      | nil => cases applied
      | cons first rest =>
          cases applied
          exact ⟨List.cons_ne_nil _ _, rfl, rfl⟩
  | help | stats | list | quit =>
      cases args with
      | nil =>
          cases applied
          exact ⟨trivial, rfl, rfl⟩
      | cons first rest => cases applied

/-- With a wrong number of arguments a verb complains under its name. -/
theorem eq_error_of_apply (applied : verb.apply args = .error e) :
    ¬verb.Admits args ∧ e = .invalidArguments verb.name verb.complaint := by
  cases verb with
  | delete kind =>
      cases args with
      | nil =>
          cases applied
          exact ⟨fun some => some rfl, rfl⟩
      | cons first rest => cases applied
  | help | stats | list | quit =>
      cases args with
      | nil => cases applied
      | cons first rest =>
          cases applied
          exact ⟨List.cons_ne_nil _ _, rfl⟩

theorem reads_ofWords (words : List String) : Reads words (ofWords words) := by
  cases words with
  | nil => exact .blank
  | cons word args =>
      cases found : Verb.ofName? word with
      | none =>
          simp only [ofWords, found]
          exact .unknown (Verb.ofName?_eq_none_iff.mp found)
      | some verb =>
          cases Verb.ofName?_eq_some_iff.mp found
          simp only [ofWords, found]
          cases applied : verb.apply args with
          | ok c =>
              rcases eq_ok_of_apply applied with ⟨complete, rfl, rfl⟩
              exact .command complete
          | error e =>
              rcases eq_error_of_apply applied with ⟨wrong, rfl⟩
              exact .arguments wrong

theorem Reads.ofWords_eq (reads : Reads words result) : ofWords words = result := by
  cases reads with
  | blank => rfl
  | command complete => exact ofWords_words complete
  | @arguments verb args wrong =>
      have found : Verb.ofName? verb.name = some verb := Verb.ofName?_eq_some_iff.mpr rfl
      simp only [ofWords, found]
      cases applied : verb.apply args with
      | ok c =>
          rcases eq_ok_of_apply applied with ⟨complete, rfl, rfl⟩
          exact absurd (isComplete_iff.mp complete) wrong
      | error e =>
          rw [(eq_error_of_apply applied).2]
          rfl
  | unknown none => simp only [ofWords, Verb.ofName?_eq_none_iff.mpr none]

/-- What is read from words is what they mean. -/
theorem ofWords_eq_iff : ofWords words = result ↔ Reads words result := by
  constructor
  · rintro rfl
    exact reads_ofWords words
  · exact Reads.ofWords_eq

theorem reads_blank_iff : Reads words (.ok none) ↔ words = [] := by
  constructor
  · rintro ⟨⟩
    rfl
  · rintro rfl
    exact .blank

theorem reads_command_iff : Reads words (.ok (some c)) ↔ c.IsComplete ∧ words = c.words := by
  constructor
  · rintro ⟨⟩
    exact ⟨‹_›, rfl⟩
  · rintro ⟨complete, rfl⟩
    exact .command complete

theorem reads_arguments_iff {name reason : String} :
    Reads words (.error (.invalidArguments name reason)) ↔ ∃ verb : Verb, ∃ args,
      words = verb.name :: args ∧ ¬verb.Admits args ∧ name = verb.name ∧
        reason = verb.complaint := by
  constructor
  · rintro ⟨⟩
    exact ⟨_, _, rfl, ‹_›, rfl, rfl⟩
  · rintro ⟨verb, args, rfl, wrong, rfl, rfl⟩
    exact .arguments wrong

theorem reads_unknown_iff {name : String} : Reads words (.error (.unknownCommand name)) ↔
    words.head? = some name ∧ ∀ verb : Verb, verb.name ≠ name := by
  constructor
  · rintro ⟨⟩
    exact ⟨rfl, ‹_›⟩
  · rintro ⟨first, none⟩
    cases words with
    | nil => cases first
    | cons word args =>
        cases first
        exact .unknown none

/-- What is read from a line is what the words mean that it is written with. -/
theorem parse_eq_iff (spells : Text.Spells line words) :
    parse line = result ↔ Reads words result := by
  rw [parse, ← Text.spells_iff.mp spells, ofWords_eq_iff]

end Reading

/-- What is read from a line.

    Every line is written with words, and with no others than these. No words mean nothing; the
    words of a command, which has a name to delete if it deletes, mean the command; one of the
    eleven verbs with a wrong number of arguments is reported under its name, and any other first
    word is reported itself. There is no other case. So a deletion is read from any line on which
    its words stand with blanks between them, whatever blanks stand around them, and two lines
    with the same words are read alike. -/
theorem parse_grammar :
    (∀ line, ∃! words, Text.Spells line words) ∧
    (∀ word, (∃ verb : Verb, verb.name = word) ↔
      word ∈ ["help", "stats", "counters", "timers", "gauges", "sets", "delcounters", "deltimers",
        "delgauges", "delsets", "quit"]) ∧
    (∀ line words, Text.Spells line words →
      (parse line = .ok none ↔ words = []) ∧
      (∀ c, parse line = .ok (some c) ↔ c.IsComplete ∧ words = c.words) ∧
      (∀ name reason, parse line = .error (.invalidArguments name reason) ↔
        ∃ verb : Verb, ∃ args, words = verb.name :: args ∧ ¬verb.Admits args ∧
          name = verb.name ∧ reason = verb.complaint) ∧
      (∀ name, parse line = .error (.unknownCommand name) ↔
        words.head? = some name ∧ ∀ verb : Verb, verb.name ≠ name) ∧
      Reads words (parse line)) ∧
    (∀ kind names front gaps, names ≠ [] → (∀ name ∈ names, Text.IsWord name) →
      Text.IsGap front → (∀ gap ∈ gaps, Text.IsGap gap) → gaps.length = names.length + 1 →
      (∀ gap ∈ gaps.dropLast, gap ≠ "") →
      parse (Text.spread front (delete kind names).words gaps) = .ok (some (.delete kind names))) ∧
    ∀ line line' words, Text.Spells line words → Text.Spells line' words →
      parse line = parse line' := by
  refine ⟨fun line => ⟨_, Text.spells_words line, fun words spells => Text.spells_iff.mp spells⟩,
    fun word => Verb.exists_name_iff, ?_, ?_, ?_⟩
  · intro line words spells
    exact ⟨(parse_eq_iff spells).trans reads_blank_iff,
      fun c => (parse_eq_iff spells).trans reads_command_iff,
      fun name reason => (parse_eq_iff spells).trans reads_arguments_iff,
      fun name => (parse_eq_iff spells).trans reads_unknown_iff, (parse_eq_iff spells).mp rfl⟩
  · intro kind names front gaps some each blank blanks enough apart
    have words : ∀ word ∈ (delete kind names).words, Text.IsWord word := by
      intro word mem
      rcases List.mem_cons.mp mem with rfl | named
      · show Text.IsWord (Verb.delete kind).name
        cases kind <;> decide +kernel
      · exact each word named
    exact (parse_eq_iff (Text.spells_spread words blank blanks enough apart)).mpr (.command some)
  · intro line line' words spells spells'
    exact (parse_eq_iff spells).mpr ((parse_eq_iff spells').mp rfl)

/-- A deletion with blanks of several kinds, a repeated name and a carriage return at the end, and
    two near misses. -/
theorem untidyDeletion_parses :
    parse "\t delcounters  a\u00a0b\u2003a\r" = .ok (some (.delete .counter ["a", "b", "a"])) ∧
    parse "deldelcounters a" = .error (.unknownCommand "deldelcounters") ∧
    parse " delsets\n" =
      .error (.invalidArguments "delsets" "expected at least one metric name") := by
  rcases parse_grammar with ⟨_, names, means, written, _⟩
  refine ⟨?_, ?_, ?_⟩
  · exact written .counter ["a", "b", "a"] "\t " ["  ", "\u00a0", "\u2003", "\r"] (by decide)
      (by decide +kernel) (by decide +kernel) (by decide +kernel) rfl (by decide +kernel)
  · have spells : Text.Spells "deldelcounters a" ["deldelcounters", "a"] :=
      Text.spells_iff.mpr (by decide +kernel)
    rcases means _ _ spells with ⟨_, _, _, unknown, _⟩
    refine (unknown _).mpr ⟨rfl, fun verb same => ?_⟩
    exact absurd ((names _).mp ⟨verb, same⟩) (by decide)
  · have spells : Text.Spells " delsets\n" ["delsets"] :=
      Text.spells_iff.mpr (by decide +kernel)
    rcases means _ _ spells with ⟨_, _, arguments, _, _⟩
    exact (arguments _ _).mpr ⟨.delete .set, [], rfl, fun some => some rfl, rfl, rfl⟩

end Command

end ShardConsole
