import ShardConsole.Config.Basic
import ShardConsole.Json.Record

/-!
# JSON Form of Configurations

A configuration as a JSON record. Fields that are not given have their default; null
is a value only for the idle timeout, which is then absent.

## Main definitions

* `Config.encode`: The JSON form of a configuration.
* `Config.decode?`: The configuration of a JSON form.
-/

namespace ShardConsole

namespace Config

/-- The names of the fields in declared order. -/
def fieldNames : List String :=
  ["addr", "prompt", "num_workers", "result_buffer", "idle_timeout_secs", "max_line_length",
    "log_json"]

/-- The JSON form of an unsigned number. -/
def encodeWord (n : UInt64) : Json.Value :=
  .ofInt n.toNat

/-- The JSON form of a configuration. -/
def encode (c : Config) : Json.Value :=
  .ofMembers (fieldNames.zip
    [.ofText c.addr, .ofText c.prompt, encodeWord c.numWorkers, encodeWord c.resultBuffer,
      (c.idleTimeoutSecs.map encodeWord).getD .null, encodeWord c.maxLineLength,
      .bool c.logJson])

/-- What a field stands for, or its default if it is not given. -/
def given? {α : Type} (read : Json.Value → Option α) (standard : α) (field : Option Json.Value) :
    Option α :=
  match field with
  | none => some standard
  | some v => read v

/-- The idle timeout of a JSON form. -/
def decodeTimeout? : Json.Value → Option (Option UInt64)
  | .null => some none
  | v => v.toUInt64?.map some

/-- The configuration of a JSON form. -/
def decode? (v : Json.Value) : Option Config := do
  match ← v.fields? fieldNames with
  | [addr, prompt, workers, buffer, timeout, length, json] =>
    return {
      addr := ← given? Json.Value.toText? default.addr addr
      prompt := ← given? Json.Value.toText? default.prompt prompt
      numWorkers := ← given? Json.Value.toUInt64? default.numWorkers workers
      resultBuffer := ← given? Json.Value.toUInt64? default.resultBuffer buffer
      idleTimeoutSecs := ← given? decodeTimeout? default.idleTimeoutSecs timeout
      maxLineLength := ← given? Json.Value.toUInt64? default.maxLineLength length
      logJson := ← given? Json.Value.toBool? default.logJson json }
  | _ => none

end Config

end ShardConsole
