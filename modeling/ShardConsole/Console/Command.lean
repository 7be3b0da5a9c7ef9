import ShardConsole.Console.Error
import ShardConsole.Metric.Kind
import ShardConsole.Text.Blank

/-!
# Commands

The commands of the console and how a line of input names one.

A line is cut into words at blanks. The first word is the verb and the others are
its arguments. The verbs that delete take one or more metric names; no other verb
takes arguments. A line without words is no command and no error.

## Main definitions

* `Verb`: What a command does.
* `Command`: A verb with its arguments.
* `Command.ofWords`: The command that words name.
* `Command.parse`: The command that a line names.
* `Command.words`: The words of a command.

## Theorems

* `Verb.ofName?_eq_some_iff`: A word is a verb exactly if it is that verb's name.
* `Command.ofWords_words`: A command is read back from its words.
-/

namespace ShardConsole

/-- What a command does. -/
inductive Verb
  | help
  | stats
  | list (kind : Kind)
  | delete (kind : Kind)
  | quit
deriving DecidableEq

/-- A verb with its arguments. -/
inductive Command
  | help
  | stats
  /-- Lists all metrics of a kind. -/
  | list (kind : Kind)
  /-- Deletes the metrics of a kind that have one of the names. -/
  | delete (kind : Kind) (names : List String)
  | quit
deriving DecidableEq

namespace Verb

/-- Every verb, in the order of the help text. -/
def all : List Verb :=
  [help, stats] ++ Kind.all.map list ++ Kind.all.map delete ++ [quit]

/-- The word for a verb. -/
def name : Verb → String
  | help => "help"
  | stats => "stats"
  | list kind => kind.plural
  | delete kind => "del" ++ kind.plural
  | quit => "quit"

/-- The verb that a word names. -/
def ofName? (word : String) : Option Verb :=
  all.find? (·.name == word)

/-- The command that a verb forms with some arguments. -/
def apply (verb : Verb) (args : List String) : Except Error Command :=
  match verb, args with
  | delete kind, [] =>
    .error (.invalidArguments (delete kind).name "expected at least one metric name")
  | delete kind, names => .ok (.delete kind names)
  | help, [] => .ok .help
  | stats, [] => .ok .stats
  | list kind, [] => .ok (.list kind)
  | quit, [] => .ok .quit
  | verb, _ :: _ => .error (.invalidArguments verb.name "takes no arguments")

/-- A word names a verb exactly if it is that verb's name. -/
theorem ofName?_eq_some_iff {word : String} {verb : Verb} :
    ofName? word = some verb ↔ word = verb.name := by
  constructor
  · intro h
    have := List.find?_some h
    exact (eq_of_beq this).symm
  · rintro rfl
    rcases verb with _ | _ | kind | kind | _
    · rfl
    · rfl
    · cases kind <;> rfl
    · cases kind <;> rfl
    · rfl

end Verb

namespace Command

/-- The verb of a command. -/
def verb : Command → Verb
  | help => .help
  | stats => .stats
  | list kind => .list kind
  | delete kind _ => .delete kind
  | quit => .quit

/-- The arguments of a command. -/
def arguments : Command → List String
  | delete _ names => names
  | _ => []

/-- The word for a command. -/
def name (c : Command) : String :=
  c.verb.name

/-- The words of a command. -/
def words (c : Command) : List String :=
  c.name :: c.arguments

/-- The command that words name; no words name none. -/
def ofWords : List String → Except Error (Option Command)
  | [] => .ok none
  | word :: args =>
    match Verb.ofName? word with
    | none => .error (.unknownCommand word)
    | some verb => (verb.apply args).map some

/-- The command that a line names; a blank line names none. -/
def parse (line : String) : Except Error (Option Command) :=
  ofWords ((Text.words line.toList).map String.ofList)

/-- The commands that can be given: a delete command has at least one name. -/
def IsComplete : Command → Prop
  | delete _ names => names ≠ []
  | _ => True

/-- A complete command is read back from its words. -/
theorem ofWords_words {c : Command} (h : c.IsComplete) : ofWords c.words = .ok (some c) := by
  have hverb : Verb.ofName? c.name = some c.verb := Verb.ofName?_eq_some_iff.2 rfl
  simp only [words, ofWords, hverb]
  rcases c with _ | _ | kind | ⟨kind, names⟩ | _
  · rfl
  · rfl
  · rfl
  · cases names with
    | nil => exact absurd rfl h
    | cons name names => rfl
  · rfl

/-- The answer to the help command. -/
def helpText : String :=
  "Commands: " ++ ", ".intercalate (Verb.all.map Verb.name) ++ "\n"

/-- The answer to the quit command. -/
def farewell : String :=
  "goodbye\n"

/-- The answer to a delete command. -/
def deletedText (count : Nat) (kind : Kind) : String :=
  "deleted " ++ toString count ++ " " ++ kind.plural ++ "\n"

end Command

end ShardConsole
