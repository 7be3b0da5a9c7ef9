import ShardConsole.Config.Loading
import ShardConsole.Pool.Basic
import ShardConsole.Proofs.Text.Mending
import ShardConsole.Proofs.Text.Numerals

/-!
# Loading Configurations

Which configuration is loaded, and what is reported if none is.

A source gives a configuration, the variables of the environment change some of its settings, and
the result must satisfy the rules. `Obtained` says what a source gives, `Merged` what the variables
make of it and `Valid` what the rules are, so a configuration is loaded exactly if it is merged and
valid. The rules are only about the result: a setting that breaks one does no harm if a variable
replaces it.

There are seven things that can be wrong, three variables without a number in them and four rules
that are broken. An `Objection` is one of them with its place in a fixed order and with its fault,
and what is reported is the fault of the first one.

## Main definitions

* `Config.Stands`: A text stands for a number of 64 bits.
* `Config.Takes`: What is taken for a setting that may be replaced.
* `Config.Obtained`: What a source gives.
* `Config.Merged`: What the variables make of a configuration.
* `Config.Valid`: The rules.
* `Config.Objection`, `Config.First`: What is wrong, and what is reported of it.

## Theorems

* `Config.ofSource_eq_ok_iff`, `Config.override_eq_ok_iff`, `Config.validate_eq_ok_iff`: What the
  three steps of loading do.
* `Config.load_eq_ok_iff`, `Config.load_eq_error_iff`: Which configuration is loaded, and which
  fault is reported.
* `Config.loading_law`: What comes of loading, for every source and every environment.
-/

namespace ShardConsole

namespace Config

/-- A text stands for a number of 64 bits. -/
def Stands (text : String) (n : UInt64) : Prop :=
  Text.StandsFor text.toList n.toNat

/-- What is taken for a setting that may be replaced: what the replacement stands for if there is
    one, and else what is given. -/
inductive Takes {σ α : Type} (stands : σ → α → Prop) (given : α) : Option σ → α → Prop
  | unset : Takes stands given none given
  | set {replacement : σ} {taken : α} (reads : stands replacement taken) :
      Takes stands given (some replacement) taken

/-- A configuration has what a document gives, and the defaults for what it does not give. -/
structure FillsIn (entries : Toml.Entries) (c : Config) : Prop where
  addr : Takes (fun node addr => nodeText? node = some addr) default.addr
    (entries.lookup "addr") c.addr
  prompt : Takes (fun node prompt => nodeText? node = some prompt) default.prompt
    (entries.lookup "prompt") c.prompt
  numWorkers : Takes (fun node n => nodeWord? node = some n) default.numWorkers
    (entries.lookup "num_workers") c.numWorkers
  resultBuffer : Takes (fun node n => nodeWord? node = some n) default.resultBuffer
    (entries.lookup "result_buffer") c.resultBuffer
  idleTimeoutSecs : Takes (fun node secs => ∃ n, nodeWord? node = some n ∧ secs = some n)
    default.idleTimeoutSecs (entries.lookup "idle_timeout_secs") c.idleTimeoutSecs
  maxLineLength : Takes (fun node n => nodeWord? node = some n) default.maxLineLength
    (entries.lookup "max_line_length") c.maxLineLength
  logJson : Takes (fun node on => nodeTruth? node = some on) default.logJson
    (entries.lookup "log_json") c.logJson

/-- A configuration is obtained from a source, before any variable is applied. -/
inductive Obtained : Source → Config → Prop
  | absent : Obtained .absent default
  | file {text : String} {entries : Toml.Entries} {c : Config}
      (parsed : Toml.parse? text = some entries) (fills : FillsIn entries c) :
      Obtained (.file (Utf8.encode text)) c

/-- The variables make a configuration of the given one. -/
structure Merged (lookup : String → Option String) (given c : Config) : Prop where
  addr : Takes (fun text addr => addr = text) given.addr (lookup addrVariable) c.addr
  prompt : c.prompt = given.prompt
  numWorkers : Takes Stands given.numWorkers (lookup workersVariable) c.numWorkers
  resultBuffer : Takes Stands given.resultBuffer (lookup resultBufferVariable) c.resultBuffer
  idleTimeoutSecs : Takes (fun text secs => ∃ n, Stands text n ∧ secs = some n)
    given.idleTimeoutSecs (lookup idleTimeoutVariable) c.idleTimeoutSecs
  maxLineLength : c.maxLineLength = given.maxLineLength
  logJson : Takes (fun text on => on = true ↔ text = "true" ∨ text = "1") given.logJson
    (lookup logJsonVariable) c.logJson

/-- The rules for a configuration. -/
structure Valid (c : Config) : Prop where
  numWorkers : 1 ≤ c.numWorkers.toNat ∧ c.numWorkers.toNat ≤ 65535
  resultBuffer : 1 ≤ c.resultBuffer.toNat
  maxLineLength : 1 ≤ c.maxLineLength.toNat
  idleTimeoutSecs : ∀ secs ∈ c.idleTimeoutSecs, 1 ≤ secs.toNat

/-- The variables that hold numbers, in the order in which they are looked at. -/
def numericVariables : List String :=
  [workersVariable, resultBufferVariable, idleTimeoutVariable]

/-- A variable that should hold a number has another value, with its place in the order of all that
    can be wrong and with its fault. -/
inductive Garbled (lookup : String → Option String) : Nat → Fault → Prop
  | value {place : Nat} {name text : String} (numeric : numericVariables[place]? = some name)
      (set : lookup name = some text) (unreadable : ∀ n, ¬Stands text n) :
      Garbled lookup place (.invalid (name ++ " has invalid value " ++ Text.quote text))

/-- A configuration breaks a rule, with the place and the fault of that. -/
inductive Broken (c : Config) : Nat → Fault → Prop
  | numWorkers (outside : c.numWorkers.toNat < 1 ∨ 65535 < c.numWorkers.toNat) :
      Broken c 3 (.invalid ("num_workers must be between 1 and 65535, got " ++
        toString c.numWorkers.toNat))
  | resultBuffer (none : c.resultBuffer.toNat < 1) :
      Broken c 4 (.invalid "result_buffer must be at least 1")
  | maxLineLength (none : c.maxLineLength.toNat < 1) :
      Broken c 5 (.invalid "max_line_length must be at least 1")
  | idleTimeoutSecs {secs : UInt64} (set : c.idleTimeoutSecs = some secs)
      (none : secs.toNat < 1) :
      Broken c 6 (.invalid "idle_timeout_secs must be at least 1")

/-- Something is wrong. A rule is only broken by settings that the variables have been merged
    into. -/
inductive Objection (lookup : String → Option String) (given : Config) (place : Nat)
    (fault : Fault) : Prop
  | value (garbled : Garbled lookup place fault)
  | rule {c : Config} (merged : Merged lookup given c) (broken : Broken c place fault)

/-- A fault is the first of what is wrong. -/
def First (wrong : Nat → Fault → Prop) (fault : Fault) : Prop :=
  ∃ place, wrong place fault ∧ ∀ earlier < place, ∀ other, ¬wrong earlier other

section Attempts

variable {α β : Type} {attempt : Except Fault α} {next : α → Except Fault β} {b : β} {fault : Fault}

theorem bind_eq_ok_iff : attempt.bind next = .ok b ↔ ∃ a, attempt = .ok a ∧ next a = .ok b := by
  cases attempt <;> simp [Except.bind]

theorem bind_eq_error_iff : attempt.bind next = .error fault ↔
    attempt = .error fault ∨ ∃ a, attempt = .ok a ∧ next a = .error fault := by
  cases attempt <;> simp [Except.bind]

end Attempts

section Settings

variable {σ α : Type} {stands : σ → α → Prop} {given taken : α} {replacement : σ}

@[simp] theorem takes_none_iff : Takes stands given none taken ↔ given = taken := by
  constructor
  · intro takes
    cases takes with
    | unset => rfl
  · rintro rfl
    exact .unset

@[simp] theorem takes_some_iff :
    Takes stands given (some replacement) taken ↔ stands replacement taken := by
  constructor
  · intro takes
    cases takes with
    | set reads => exact reads
  · exact .set

/-- What has been taken stays if it is what is given. -/
theorem Takes.again {replacement? : Option σ} (takes : Takes stands given replacement? taken) :
    Takes stands taken replacement? taken := by
  cases takes with
  | unset => exact .unset
  | set reads => exact .set reads

/-- What a document says of a setting. -/
theorem setting?_eq_some_iff {read : Toml.Node → Option α} {standard : α} {es : Toml.Entries}
    {name : String} : setting? read standard es name = some taken ↔
      Takes (fun node taken => read node = some taken) standard (es.lookup name) taken := by
  rw [setting?]
  cases es.lookup name <;> simp

end Settings

section Variables

variable {lookup : String → Option String} {name text : String} {given n : UInt64} {fault : Fault}
  {f c d : Config}

theorem wordOfText?_eq_some_iff : wordOfText? text = some n ↔ Stands text n := by
  rw [wordOfText?, Option.bind_eq_some_iff, Stands]
  constructor
  · rintro ⟨m, read, fits⟩
    rcases Option.ite_none_right_eq_some.mp fits with ⟨small, same⟩
    cases same
    rw [UInt64.toNat_ofNat_of_lt' small]
    exact Text.unsigned?_trim_eq_some_iff.mp read
  · intro stands
    refine ⟨n.toNat, Text.unsigned?_trim_eq_some_iff.mpr stands, ?_⟩
    rw [if_pos n.toNat_lt_size, UInt64.ofNat_toNat]

theorem wordOfVariable_eq_ok_iff : wordOfVariable name text = .ok n ↔ Stands text n := by
  rw [wordOfVariable, ← wordOfText?_eq_some_iff]
  cases wordOfText? text <;> simp

theorem wordOfVariable_eq_error_iff : wordOfVariable name text = .error fault ↔
    (∀ n, ¬Stands text n) ∧
      fault = .invalid (name ++ " has invalid value " ++ Text.quote text) := by
  simp only [← wordOfText?_eq_some_iff]
  rw [wordOfVariable]
  cases wordOfText? text <;> simp [eq_comm]

/-- What a variable makes of a number. -/
theorem overrideWord_eq_ok_iff :
    overrideWord lookup name given = .ok n ↔ Takes Stands given (lookup name) n := by
  rw [overrideWord]
  cases lookup name <;> simp [wordOfVariable_eq_ok_iff]

-- A number is only reported if its variable does not hold one.
theorem garbled_of_overrideWord {place : Nat} (numeric : numericVariables[place]? = some name)
    (failed : overrideWord lookup name given = .error fault) : Garbled lookup place fault := by
  rw [overrideWord] at failed
  cases set : lookup name with
  | none =>
      rw [set] at failed
      cases failed
  | some text =>
      rw [set] at failed
      rcases wordOfVariable_eq_error_iff.mp failed with ⟨unreadable, rfl⟩
      exact .value numeric set unreadable

/-- The idle timeout with its variable applied. -/
def overrideTimeout (lookup : String → Option String) (given : Option UInt64) :
    Except Fault (Option UInt64) :=
  match lookup idleTimeoutVariable with
  | none => .ok given
  | some value => (wordOfVariable idleTimeoutVariable value).map some

theorem map_some_eq_ok_iff {attempt : Except Fault UInt64} {secs : Option UInt64} :
    attempt.map some = .ok secs ↔ ∃ n, attempt = .ok n ∧ secs = some n := by
  cases attempt <;> simp [Except.map, eq_comm]

theorem map_some_eq_error_iff {attempt : Except Fault UInt64} :
    attempt.map some = .error fault ↔ attempt = .error fault := by
  cases attempt <;> simp [Except.map]

theorem overrideTimeout_eq_ok_iff {present secs : Option UInt64} :
    overrideTimeout lookup present = .ok secs ↔
      Takes (fun text secs => ∃ n, Stands text n ∧ secs = some n) present
        (lookup idleTimeoutVariable) secs := by
  rw [overrideTimeout]
  cases lookup idleTimeoutVariable <;> simp [map_some_eq_ok_iff, wordOfVariable_eq_ok_iff]

theorem garbled_of_overrideTimeout {present : Option UInt64}
    (failed : overrideTimeout lookup present = .error fault) : Garbled lookup 2 fault := by
  rw [overrideTimeout] at failed
  cases set : lookup idleTimeoutVariable with
  | none =>
      rw [set] at failed
      cases failed
  | some text =>
      rw [set] at failed
      rcases wordOfVariable_eq_error_iff.mp (map_some_eq_error_iff.mp failed) with
        ⟨unreadable, rfl⟩
      exact .value rfl set unreadable

/-- The configuration in which the settings have been replaced. -/
def assembled (lookup : String → Option String) (c : Config) (numWorkers resultBuffer : UInt64)
    (idleTimeoutSecs : Option UInt64) : Config :=
  { c with
    addr := (lookup addrVariable).getD c.addr
    numWorkers := numWorkers
    resultBuffer := resultBuffer
    idleTimeoutSecs := idleTimeoutSecs
    logJson := match lookup logJsonVariable with
      | none => c.logJson
      | some value => value == "true" || value == "1" }

theorem override_eq : override lookup c =
    (overrideWord lookup workersVariable c.numWorkers).bind fun numWorkers =>
      (overrideWord lookup resultBufferVariable c.resultBuffer).bind fun resultBuffer =>
        (overrideTimeout lookup c.idleTimeoutSecs).bind fun idleTimeoutSecs =>
          .ok (assembled lookup c numWorkers resultBuffer idleTimeoutSecs) := by
  rw [override, overrideTimeout]
  cases lookup idleTimeoutVariable <;> rfl

theorem assembled_eq_iff {numWorkers resultBuffer : UInt64} {idleTimeoutSecs : Option UInt64} :
    assembled lookup f numWorkers resultBuffer idleTimeoutSecs = c ↔
      Takes (fun text addr => addr = text) f.addr (lookup addrVariable) c.addr ∧
      c.prompt = f.prompt ∧ c.numWorkers = numWorkers ∧ c.resultBuffer = resultBuffer ∧
      c.idleTimeoutSecs = idleTimeoutSecs ∧ c.maxLineLength = f.maxLineLength ∧
      Takes (fun text on => on = true ↔ text = "true" ∨ text = "1") f.logJson
        (lookup logJsonVariable) c.logJson := by
  have same (value : String) (on : Bool) : on = (value == "true" || value == "1") ↔
      (on = true ↔ value = "true" ∨ value = "1") := by
    cases on <;> simp
  rcases c with ⟨⟩
  cases lookup_addr : lookup addrVariable <;> cases lookup_json : lookup logJsonVariable <;>
    simp [assembled, lookup_addr, lookup_json, same, eq_comm]

/-- What the variables make of a configuration. -/
theorem override_eq_ok_iff : override lookup f = .ok c ↔ Merged lookup f c := by
  simp only [override_eq, bind_eq_ok_iff, overrideWord_eq_ok_iff, overrideTimeout_eq_ok_iff,
    Except.ok.injEq, assembled_eq_iff]
  constructor
  · rintro ⟨_, workers, _, buffer, _, timeout, addr, prompt, rfl, rfl, rfl, length, json⟩
    exact ⟨addr, prompt, workers, buffer, timeout, length, json⟩
  · intro merged
    exact ⟨_, merged.numWorkers, _, merged.resultBuffer, _, merged.idleTimeoutSecs, merged.addr,
      merged.prompt, rfl, rfl, rfl, merged.maxLineLength, merged.logJson⟩

/-- There is one configuration that the variables make of another one at most. -/
theorem Merged.unique (merged : Merged lookup f c) (other : Merged lookup f d) : c = d :=
  Except.ok.inj ((override_eq_ok_iff.mpr merged).symm.trans (override_eq_ok_iff.mpr other))

-- A variable is not garbled if something was taken for the number that it should hold.
theorem not_garbled_of_takes {α : Type} {stands : String → α → Prop} {present taken : α}
    {place : Nat} (numeric : numericVariables[place]? = some name)
    (numeral : ∀ {text taken}, stands text taken → ∃ n, Stands text n)
    (takes : Takes stands present (lookup name) taken) : ¬Garbled lookup place fault := by
  rintro ⟨numeric', set, unreadable⟩
  cases numeric.symm.trans numeric'
  rw [set, takes_some_iff] at takes
  rcases numeral takes with ⟨n, stands⟩
  exact unreadable n stands

theorem not_garbled_of_word {place : Nat} (numeric : numericVariables[place]? = some name)
    (takes : Takes Stands given (lookup name) n) : ¬Garbled lookup place fault :=
  not_garbled_of_takes numeric (fun stands => ⟨_, stands⟩) takes

/-- Variables that can be merged hold numbers where they should. -/
theorem Merged.not_garbled (merged : Merged lookup f c) {place : Nat} :
    ¬Garbled lookup place fault := by
  rcases place with _ | _ | _ | place
  · exact not_garbled_of_word rfl merged.numWorkers
  · exact not_garbled_of_word rfl merged.resultBuffer
  · exact not_garbled_of_takes rfl (fun ⟨n, stands, _⟩ => ⟨n, stands⟩) merged.idleTimeoutSecs
  · rintro ⟨numeric, _, _⟩
    cases numeric

/-- The variable that is reported is the first one that is garbled. -/
theorem first_of_override (failed : override lookup f = .error fault) :
    First (Garbled lookup) fault := by
  have first : numericVariables[0]? = some workersVariable := rfl
  have second : numericVariables[1]? = some resultBufferVariable := rfl
  simp only [override_eq, bind_eq_error_iff, overrideWord_eq_ok_iff] at failed
  rcases failed with failed | ⟨_, workers, failed | ⟨_, buffer, failed | ⟨_, _, failed⟩⟩⟩
  · refine ⟨0, garbled_of_overrideWord first failed, ?_⟩
    exact fun _ before => absurd before (Nat.not_lt_zero _)
  · refine ⟨1, garbled_of_overrideWord second failed, ?_⟩
    intro earlier before other
    cases Nat.lt_one_iff.mp before
    exact not_garbled_of_word first workers
  · refine ⟨2, garbled_of_overrideTimeout failed, ?_⟩
    intro earlier before other
    rcases earlier with _ | _ | earlier
    · exact not_garbled_of_word first workers
    · exact not_garbled_of_word second buffer
    · omega
  · cases failed

/-- The variables can be merged exactly if each of those that should hold a number does. -/
theorem exists_merged_iff : (∃ c, Merged lookup f c) ↔
    ∀ name ∈ numericVariables, ∀ text, lookup name = some text → ∃ n, Stands text n := by
  constructor
  · rintro ⟨c, merged⟩ name numeric text set
    rcases List.mem_iff_getElem?.mp numeric with ⟨place, numeric⟩
    by_contra unreadable
    exact merged.not_garbled (.value numeric set (not_exists.mp unreadable))
  · intro readable
    cases overridden : override lookup f with
    | ok c => exact ⟨c, override_eq_ok_iff.mp overridden⟩
    | error fault =>
        rcases first_of_override overridden with ⟨_, ⟨numeric, set, unreadable⟩, _⟩
        rcases readable _ (List.mem_of_getElem? numeric) _ set with ⟨n, stands⟩
        exact absurd stands (unreadable n)

end Variables

section Sources

variable {source : Source} {c : Config} {entries : Toml.Entries}

theorem ofEntries?_eq_some_iff : ofEntries? entries = some c ↔ FillsIn entries c := by
  simp only [ofEntries?, bind, pure, Option.bind_eq_some_iff, setting?_eq_some_iff,
    Option.map_eq_some_iff, Option.some.injEq]
  constructor
  · rintro ⟨_, addr, _, prompt, _, workers, _, buffer, _, timeout, _, length, _, json, rfl⟩
    exact ⟨addr, prompt, workers, buffer, by simpa only [eq_comm] using timeout, length, json⟩
  · intro fills
    exact ⟨_, fills.addr, _, fills.prompt, _, fills.numWorkers, _, fills.resultBuffer, _,
      by simpa only [eq_comm] using fills.idleTimeoutSecs, _, fills.maxLineLength, _,
      fills.logJson, rfl⟩

theorem ofToml_eq_ok_iff {text : String} : ofToml text = .ok c ↔
    ∃ entries, Toml.parse? text = some entries ∧ FillsIn entries c := by
  simp only [← ofEntries?_eq_some_iff, ← Option.bind_eq_some_iff]
  rw [ofToml]
  cases (Toml.parse? text).bind ofEntries? <;> simp

/-- What a source gives. -/
theorem ofSource_eq_ok_iff : ofSource source = .ok c ↔ Obtained source c := by
  cases source with
  | absent =>
      constructor
      · rintro ⟨⟩
        exact .absent
      · rintro ⟨⟩
        rfl
  | missing =>
      constructor <;> rintro ⟨⟩
  | file content =>
      rw [ofSource]
      constructor
      · intro given
        cases decoded : Utf8.decode? content with
        | none =>
            rw [decoded] at given
            cases given
        | some text =>
            rw [decoded] at given
            rcases ofToml_eq_ok_iff.mp given with ⟨entries, parsed, fills⟩
            rw [Utf8.decode?_eq_some_iff.mp decoded]
            exact .file parsed fills
      · rintro ⟨⟩
        rename_i text entries parsed fills
        rw [Utf8.decode?_eq_some_iff.mpr rfl]
        exact ofToml_eq_ok_iff.mpr ⟨entries, parsed, fills⟩

/-- A source gives one configuration at most. -/
theorem Obtained.unique {d : Config} (obtained : Obtained source c)
    (again : Obtained source d) : c = d :=
  Except.ok.inj ((ofSource_eq_ok_iff.mpr obtained).symm.trans (ofSource_eq_ok_iff.mpr again))

end Sources

section Rules

variable {c : Config} {fault : Fault}

theorem word_eq_zero_iff {n : UInt64} : n = 0 ↔ n.toNat < 1 := by
  rw [← UInt64.toNat_inj, Nat.lt_one_iff]
  rfl

theorem timeout_eq_zero_iff {secs? : Option UInt64} :
    secs? = some 0 ↔ ∃ secs, secs? = some secs ∧ secs.toNat < 1 := by
  simp only [← word_eq_zero_iff, exists_eq_right]

theorem Valid.not_broken (valid : Valid c) {place : Nat} : ¬Broken c place fault := by
  rintro (outside | none | none | ⟨set, none⟩)
  · have inside := valid.numWorkers
    omega
  · have some := valid.resultBuffer
    omega
  · have some := valid.maxLineLength
    omega
  · have some := valid.idleTimeoutSecs _ set
    omega

/-- The rule that is reported is the first one that is broken. -/
theorem first_of_validate (failed : c.validate = .error fault) : First (Broken c) fault := by
  simp only [validate, word_eq_zero_iff, timeout_eq_zero_iff] at failed
  split_ifs at failed with outside buffer length timeout
  · cases failed
    refine ⟨3, .numWorkers outside, ?_⟩
    rintro _ before _ ⟨⟩ <;> omega
  · cases failed
    refine ⟨4, .resultBuffer buffer, ?_⟩
    rintro _ before _ (broken | _ | _ | _)
    · exact outside broken
    all_goals omega
  · cases failed
    refine ⟨5, .maxLineLength length, ?_⟩
    rintro _ before _ (broken | broken | _ | _)
    · exact outside broken
    · exact buffer broken
    all_goals omega
  · cases failed
    rcases timeout with ⟨secs, set, none⟩
    refine ⟨6, .idleTimeoutSecs set none, ?_⟩
    rintro _ before _ (broken | broken | broken | _)
    · exact outside broken
    · exact buffer broken
    · exact length broken
    · omega

/-- A configuration passes if no rule is broken. -/
theorem validate_eq_ok_iff : c.validate = .ok () ↔ Valid c := by
  constructor
  · intro passed
    simp only [validate, word_eq_zero_iff, timeout_eq_zero_iff] at passed
    split_ifs at passed with outside buffer length timeout
    rw [maxWorkers] at outside
    refine ⟨by omega, by omega, by omega, fun secs set => ?_⟩
    by_contra none
    exact timeout ⟨secs, set, by omega⟩
  · intro valid
    cases checked : c.validate with
    | ok _ => rfl
    | error fault =>
        rcases first_of_validate checked with ⟨_, broken, _⟩
        exact absurd broken valid.not_broken

end Rules

section Objections

variable {lookup : String → Option String} {f c : Config} {place : Nat} {fault other : Fault}

theorem Objection.unique (objection : Objection lookup f place fault)
    (again : Objection lookup f place other) : fault = other := by
  cases objection with
  | value garbled =>
      cases again with
      | value again =>
          rcases garbled with ⟨numeric, set, _⟩
          rcases again with ⟨numeric', set', _⟩
          cases numeric.symm.trans numeric'
          cases set.symm.trans set'
          rfl
      | rule merged _ => exact absurd garbled merged.not_garbled
  | rule merged broken =>
      cases again with
      | value garbled => exact absurd garbled merged.not_garbled
      | rule merged' again =>
          cases merged.unique merged'
          cases broken <;> cases again <;> rfl

/-- There is one fault at most that is the first. -/
theorem First.unique (first : First (Objection lookup f) fault)
    (again : First (Objection lookup f) other) : fault = other := by
  rcases first with ⟨place, wrong, least⟩
  rcases again with ⟨place', wrong', least'⟩
  rcases Nat.lt_trichotomy place place' with less | rfl | less
  · exact absurd wrong (least' place less fault)
  · exact wrong.unique wrong'
  · exact absurd wrong' (least place' less other)

-- A rule can only be broken once the variables have been merged, and so no variable is garbled.
theorem Merged.first_of_broken (merged : Merged lookup f c) (first : First (Broken c) fault) :
    First (Objection lookup f) fault := by
  rcases first with ⟨place, broken, least⟩
  refine ⟨place, .rule merged broken, fun earlier before other objection => ?_⟩
  cases objection with
  | value garbled => exact merged.not_garbled garbled
  | rule merged' broken' =>
      cases merged.unique merged'
      exact least earlier before other broken'

-- A garbled variable keeps all rules from being broken.
theorem first_of_garbled (first : First (Garbled lookup) fault) :
    First (Objection lookup f) fault := by
  rcases first with ⟨place, garbled, least⟩
  refine ⟨place, .value garbled, fun earlier before other objection => ?_⟩
  cases objection with
  | value garbled' => exact least earlier before other garbled'
  | rule merged _ => exact merged.not_garbled garbled

end Objections

section Results

variable {source : Source} {environment : String → Option (List UInt8)} {f c : Config}
  {fault : Fault}

theorem load_eq : load source environment = (ofSource source).bind fun f =>
    (override (textVariables environment) f).bind fun c => c.validate.bind fun _ => .ok c :=
  rfl

/-- Which configuration is loaded. -/
theorem load_eq_ok_iff : load source environment = .ok c ↔
    ∃ f, Obtained source f ∧ Merged (textVariables environment) f c ∧ Valid c := by
  simp only [load_eq, bind_eq_ok_iff, ofSource_eq_ok_iff, override_eq_ok_iff, ← validate_eq_ok_iff]
  constructor
  · rintro ⟨f, obtained, _, merged, _, valid, ⟨⟩⟩
    exact ⟨f, obtained, merged, valid⟩
  · rintro ⟨f, obtained, merged, valid⟩
    exact ⟨f, obtained, c, merged, (), valid, rfl⟩

-- What is reported is the first objection.
theorem first_of_load (obtained : Obtained source f)
    (failed : load source environment = .error fault) :
    First (Objection (textVariables environment) f) fault := by
  rw [load_eq] at failed
  rcases bind_eq_error_iff.mp failed with unread | ⟨_, read, failed⟩
  · rw [ofSource_eq_ok_iff.mpr obtained] at unread
    cases unread
  · cases obtained.unique (ofSource_eq_ok_iff.mp read)
    rcases bind_eq_error_iff.mp failed with failed | ⟨c, overridden, failed⟩
    · exact first_of_garbled (first_of_override failed)
    · rcases bind_eq_error_iff.mp failed with failed | ⟨_, _, ⟨⟩⟩
      exact (override_eq_ok_iff.mp overridden).first_of_broken (first_of_validate failed)

/-- Which fault is reported if a source gives a configuration. -/
theorem load_eq_error_iff (obtained : Obtained source f) :
    load source environment = .error fault ↔
      First (Objection (textVariables environment) f) fault := by
  refine ⟨first_of_load obtained, fun first => ?_⟩
  cases loaded : load source environment with
  | error other => rw [(first_of_load obtained loaded).unique first]
  | ok c =>
      rcases load_eq_ok_iff.mp loaded with ⟨f', obtained', merged, valid⟩
      cases obtained.unique obtained'
      rcases first with ⟨_, objection, _⟩
      cases objection with
      | value garbled => exact absurd garbled merged.not_garbled
      | rule merged' broken =>
          cases merged.unique merged'
          exact absurd broken valid.not_broken

/-- A variable is set if its value is the encoding of a text. -/
theorem textVariables_eq_some_iff {name text : String} :
    textVariables environment name = some text ↔
      environment name = some (Utf8.encode text) := by
  rw [textVariables, Option.bind_eq_some_iff]
  constructor
  · rintro ⟨bytes, set, decoded⟩
    rw [set, Utf8.decode?_eq_some_iff.mp decoded]
  · intro set
    exact ⟨_, set, Utf8.decode?_eq_some_iff.mpr rfl⟩

/-- Variables that have been merged change nothing more. -/
theorem Merged.again {lookup : String → Option String} (merged : Merged lookup f c) :
    Merged lookup c c where
  addr := merged.addr.again
  prompt := rfl
  numWorkers := merged.numWorkers.again
  resultBuffer := merged.resultBuffer.again
  idleTimeoutSecs := merged.idleTimeoutSecs.again
  maxLineLength := rfl
  logJson := merged.logJson.again

/-- The number of shards of a valid configuration is the one that it gives. -/
theorem Valid.workerCount_eq (valid : Valid c) : c.workerCount = c.numWorkers.toNat := by
  have inside := valid.numWorkers
  rw [workerCount, maxWorkers]
  omega

/-- What comes of loading if a source gives a configuration, be it the default or that of a file in
    which settings may be absent.

    A configuration is loaded exactly if each variable that should hold a number does and what the
    variables make of the given configuration is valid, and what is loaded is just that. It is not
    changed by the same variables again, and it has as many shards as it says, numbered from zero.
    If none is loaded, what is reported is the first objection: to the variables for the number of
    shards, the result buffer and the idle timeout, and then to the number of shards, the result
    buffer, the length of lines and the idle timeout that the variables have been merged into. -/
theorem loading_law (given : ofSource source = .ok f) (environment : String → Option (List UInt8)) :
    Obtained source f ∧
    (∀ name text, textVariables environment name = some text ↔
      environment name = some (Utf8.encode text)) ∧
    ((∃ c, load source environment = .ok c) ↔
      (∀ name ∈ numericVariables, ∀ text,
        textVariables environment name = some text → ∃ n, Stands text n) ∧
      ∀ c, Merged (textVariables environment) f c → Valid c) ∧
    (∀ c, load source environment = .ok c ↔
      Merged (textVariables environment) f c ∧ Valid c) ∧
    (∀ c, load source environment = .ok c →
      c.override (textVariables environment) = .ok c ∧ c.workerCount = c.numWorkers.toNat ∧
      (Pool.start c.workerCount).workers.size = c.numWorkers.toNat ∧
      ∀ w, (Pool.start c.workerCount).workers[w]? =
        if w < c.numWorkers.toNat then some Pool.Worker.start else none) ∧
    ∀ fault, load source environment = .error fault ↔
      First (Objection (textVariables environment) f) fault := by
  have obtained : Obtained source f := ofSource_eq_ok_iff.mp given
  have loaded (c : Config) : load source environment = .ok c ↔
      Merged (textVariables environment) f c ∧ Valid c := by
    rw [load_eq_ok_iff]
    constructor
    · rintro ⟨_, obtained', merged, valid⟩
      cases obtained.unique obtained'
      exact ⟨merged, valid⟩
    · exact fun ⟨merged, valid⟩ => ⟨f, obtained, merged, valid⟩
  refine ⟨obtained, fun _ _ => textVariables_eq_some_iff, ?_, loaded, ?_,
    fun _ => load_eq_error_iff obtained⟩
  · rw [← exists_merged_iff]
    constructor
    · rintro ⟨c, given⟩
      rcases (loaded c).mp given with ⟨merged, valid⟩
      exact ⟨⟨c, merged⟩, fun d other => merged.unique other ▸ valid⟩
    · rintro ⟨⟨c, merged⟩, valid⟩
      exact ⟨c, (loaded c).mpr ⟨merged, valid c merged⟩⟩
  · intro c given
    rcases (loaded c).mp given with ⟨merged, valid⟩
    have count := valid.workerCount_eq
    have least : max c.numWorkers.toNat 1 = c.numWorkers.toNat := Nat.max_eq_left valid.numWorkers.1
    refine ⟨override_eq_ok_iff.mpr merged.again, count, ?_, fun w => ?_⟩
    · rw [count, Pool.start, Array.size_replicate, least]
    · rw [count, Pool.start, Array.getElem?_replicate, least]

end Results

/-- A file with a number of shards that is not allowed. -/
def rejectedFile : List UInt8 :=
  Utf8.encode "num_workers = 0\nprompt = \"> \"\nunknown = true\n"

/-- Variables that give another number of shards, and a log format that is not known. -/
def correctingVariables (name : String) : Option (List UInt8) :=
  if name = workersVariable then some (Utf8.encode " +7 ")
  else if name = logJsonVariable then some (Utf8.encode "TRUE")
  else none

/-- A bad setting of a file does no harm if a good variable replaces it, and is reported if none
    does. -/
theorem rejectedFile_corrected :
    ofSource (.file rejectedFile) =
      .ok { default with numWorkers := 0, prompt := "> " } ∧
    load (.file rejectedFile) correctingVariables =
      .ok { default with numWorkers := 7, prompt := "> " } ∧
    (Pool.start (workerCount { default with numWorkers := 7, prompt := "> " })).workers.size = 7 ∧
    load (.file rejectedFile) (fun _ => none) =
      .error (.invalid "num_workers must be between 1 and 65535, got 0") := by
  have given : ofSource (.file rejectedFile) =
      .ok { default with numWorkers := 0, prompt := "> " } := by
    decide +kernel
  have loaded : load (.file rejectedFile) correctingVariables =
      .ok { default with numWorkers := 7, prompt := "> " } := by
    decide +kernel
  rcases loading_law given correctingVariables with ⟨_, _, _, _, outcome, _⟩
  rcases outcome _ loaded with ⟨_, _, workers, _⟩
  exact ⟨given, loaded, workers, by decide +kernel⟩

end Config

end ShardConsole
