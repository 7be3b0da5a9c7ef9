import ShardConsole.Config.Basic
import ShardConsole.Text.Blank
import ShardConsole.Text.Scanning
import ShardConsole.Text.Utf8
import ShardConsole.Toml.Document

/-!
# Loading a Configuration

A configuration comes from a TOML file, if there is one, and from variables of the
environment, which override it; the result is validated.

In the file a setting that is not given has its default, and what is no setting is
ignored. A variable that is not valid text counts as not set. A number in a variable
may have blanks around it and one plus sign in front; the variable for the log
format switches it on exactly if it is `true` or `1`.

## Main definitions

* `Config.ofToml`: The configuration of a document.
* `Config.override`: A configuration with variables applied.
* `Config.load`: File, then variables, then validation.
-/

namespace ShardConsole

namespace Config

/-- The setting under a name, or its default if the document does not give it. -/
def setting? {α : Type} (read : Toml.Node → Option α) (standard : α) (entries : Toml.Entries)
    (name : String) : Option α :=
  match entries.lookup name with
  | none => some standard
  | some node => read node

/-- The text that a node is. -/
def nodeText? : Toml.Node → Option String
  | .text s => some s
  | _ => none

/-- The number that a node is, if it is not negative. -/
def nodeWord? : Toml.Node → Option UInt64
  | .integer i => if 0 ≤ i then some (UInt64.ofNat i.toNat) else none
  | _ => none

/-- The truth value that a node is. -/
def nodeTruth? : Toml.Node → Option Bool
  | .truth b => some b
  | _ => none

/-- The configuration that a document gives. -/
def ofEntries? (es : Toml.Entries) : Option Config := do
  return {
    addr := ← setting? nodeText? default.addr es "addr"
    prompt := ← setting? nodeText? default.prompt es "prompt"
    numWorkers := ← setting? nodeWord? default.numWorkers es "num_workers"
    resultBuffer := ← setting? nodeWord? default.resultBuffer es "result_buffer"
    idleTimeoutSecs :=
      ← setting? (fun n => (nodeWord? n).map some) default.idleTimeoutSecs es "idle_timeout_secs"
    maxLineLength := ← setting? nodeWord? default.maxLineLength es "max_line_length"
    logJson := ← setting? nodeTruth? default.logJson es "log_json" }

/-- The configuration of a TOML text. -/
def ofToml (text : String) : Except Fault Config :=
  match (Toml.parse? text).bind ofEntries? with
  | some c => .ok c
  | none => .error .malformed

/-- The number that the text of a variable is: blanks around it and one plus sign in
    front of it do not count, and it has 64 bits. -/
def wordOfText? (text : String) : Option UInt64 :=
  (Text.unsigned? (Text.trim text.toList)).bind fun n =>
    if n < UInt64.size then some (UInt64.ofNat n) else none

/-- The number in a variable. -/
def wordOfVariable (name value : String) : Except Fault UInt64 :=
  match wordOfText? value with
  | some n => .ok n
  | none => .error (.invalid (name ++ " has invalid value " ++ Text.quote value))

/-- The name of the variable for the address. -/
def addrVariable : String := "STATSD_CONSOLE_ADDR"

/-- The name of the variable for the number of shards. -/
def workersVariable : String := "STATSD_CONSOLE_WORKERS"

/-- The name of the variable for the size of the result buffer. -/
def resultBufferVariable : String := "STATSD_CONSOLE_RESULT_BUFFER"

/-- The name of the variable for the idle timeout. -/
def idleTimeoutVariable : String := "STATSD_CONSOLE_IDLE_TIMEOUT_SECS"

/-- The name of the variable for the log format. -/
def logJsonVariable : String := "STATSD_CONSOLE_LOG_JSON"

/-- The names of all variables. -/
def variableNames : List String :=
  [addrVariable, workersVariable, resultBufferVariable, idleTimeoutVariable, logJsonVariable]

/-- The number that a variable gives, or the one that holds if it is not set. -/
def overrideWord (lookup : String → Option String) (name : String) (standard : UInt64) :
    Except Fault UInt64 :=
  match lookup name with
  | none => .ok standard
  | some value => wordOfVariable name value

/-- A configuration with the variables applied that are set. -/
def override (lookup : String → Option String) (c : Config) : Except Fault Config := do
  let numWorkers ← overrideWord lookup workersVariable c.numWorkers
  let resultBuffer ← overrideWord lookup resultBufferVariable c.resultBuffer
  let idleTimeoutSecs ← match lookup idleTimeoutVariable with
    | none => pure c.idleTimeoutSecs
    | some value => (wordOfVariable idleTimeoutVariable value).map some
  return { c with
    addr := (lookup addrVariable).getD c.addr
    numWorkers := numWorkers
    resultBuffer := resultBuffer
    idleTimeoutSecs := idleTimeoutSecs
    logJson := match lookup logJsonVariable with
      | none => c.logJson
      | some value => value == "true" || value == "1" }

/-- Where the text of a configuration comes from. -/
inductive Source
  /-- No file is named. -/
  | absent
  /-- The named file cannot be read. -/
  | missing
  | file (content : List UInt8)

/-- The configuration of a source, before any variable is applied. -/
def ofSource : Source → Except Fault Config
  | .absent => .ok default
  | .missing => .error .unreadable
  | .file content =>
    match Utf8.decode? content with
    | some text => ofToml text
    | none => .error .unreadable

/-- The variables whose values are text. -/
def textVariables (environment : String → Option (List UInt8)) (name : String) : Option String :=
  (environment name).bind Utf8.decode?

/-- The configuration of a program: the file, then the variables, then the rules. -/
def load (source : Source) (environment : String → Option (List UInt8)) :
    Except Fault Config := do
  let c ← ofSource source
  let c ← c.override (textVariables environment)
  c.validate
  return c

end Config

end ShardConsole
