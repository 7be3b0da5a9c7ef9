import ShardConsole.Text.Quoted

/-!
# Configuration

The settings of a console server, what they default to and which of them are valid.

## Main definitions

* `Config`: The settings.
* `Config.validate`: The first rule that the settings break.
* `Config.address`, `Config.workerCount`: Settings as the server uses them.
-/

namespace ShardConsole

/-- The settings of a console server. -/
structure Config where
  /-- The address to listen at; an empty one stands for the default. -/
  addr : String
  /-- The text written before every line of input. -/
  prompt : String
  /-- The number of shards. -/
  numWorkers : UInt64
  /-- How many parts of a listing may wait to be taken. -/
  resultBuffer : UInt64
  /-- After how many seconds without a line a session is closed. -/
  idleTimeoutSecs : Option UInt64
  /-- The greatest number of bytes of a line. -/
  maxLineLength : UInt64
  /-- Whether the log is written as JSON. -/
  logJson : Bool
deriving DecidableEq

namespace Config

/-- Why no configuration could be had. -/
inductive Fault
  /-- The file could not be read as text. -/
  | unreadable
  /-- The text of the file is not a configuration. -/
  | malformed
  /-- A setting has a value that it must not have. -/
  | invalid (reason : String)
deriving DecidableEq

/-- The address that is listened at if none is given. -/
def defaultAddr : String := "0.0.0.0:8126"

/-- The settings that hold where nothing else is said. -/
def default : Config where
  addr := defaultAddr
  prompt := "console> "
  numWorkers := 16
  resultBuffer := 16
  idleTimeoutSecs := none
  maxLineLength := 8192
  logJson := false

instance : Inhabited Config :=
  ⟨default⟩

/-- The greatest number of shards: the numbers of the shards have sixteen bits. -/
def maxWorkers : Nat := 65535

/-- The first rule that the settings break, if they break one. -/
def validate (c : Config) : Except Fault Unit :=
  if c.numWorkers = 0 ∨ maxWorkers < c.numWorkers.toNat then
    .error (.invalid ("num_workers must be between 1 and " ++ toString maxWorkers ++ ", got " ++
      toString c.numWorkers.toNat))
  else if c.resultBuffer = 0 then .error (.invalid "result_buffer must be at least 1")
  else if c.maxLineLength = 0 then .error (.invalid "max_line_length must be at least 1")
  else if c.idleTimeoutSecs = some 0 then
    .error (.invalid "idle_timeout_secs must be at least 1")
  else .ok ()

/-- The address to listen at. -/
def address (c : Config) : String :=
  if c.addr.isEmpty then defaultAddr else c.addr

/-- The number of shards, brought into the range that shard numbers allow. -/
def workerCount (c : Config) : Nat :=
  max (min c.numWorkers.toNat maxWorkers) 1

/-- The text that reports a fault; why a file is unreadable or malformed is not part
    of it. -/
def Fault.message : Fault → String
  | .unreadable => "failed to read config"
  | .malformed => "failed to parse config"
  | .invalid reason => "invalid config: " ++ reason

/-- The line that a program ends with when it has no configuration. -/
def Fault.report : Fault → String
  | .unreadable => "Error: Io"
  | .malformed => "Error: Parse"
  | .invalid reason => "Error: Invalid(" ++ Text.quote reason ++ ")"

end Config

end ShardConsole
