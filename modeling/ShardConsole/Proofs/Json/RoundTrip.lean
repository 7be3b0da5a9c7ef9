import ShardConsole.Config.Encoding
import ShardConsole.Metric.Encoding
import ShardConsole.Proofs.Config.Loading
import ShardConsole.Proofs.Json.Records
import ShardConsole.Proofs.Metric.WrittenTags

/-!
# Tags, Metrics and Configurations as JSON

What is written as JSON is read back as it was.

There are many texts for the same tags, the same metric or the same configuration: with blanks and
escapes, with fields in any order or without names, with members that are no fields, with settings
left out. `Shown` says for each of the three which JSON values stand for it. One of these texts is
the one that is written, and what is read from any of them is written as this one again, so two
texts stand for the same thing exactly if the same text is written for both. This is said only of
metrics that are counted or collected: a double that is no number is written as null and cannot be
read back.

## Main definitions

* `Tags.Shown`, `Metric.Shown`, `Config.Shown`: The JSON values that stand for a thing.
* `Metric.Exact`: A metric without a double in it.
* `Json.RoundTrips`: What is written is read back, and is the only thing that is ever written.

## Theorems

* `Tags.decode?_eq_some_iff`, `Metric.decode?_eq_some_iff`, `Config.decode?_eq_some_iff`: What is
  read from JSON values.
* `Json.written_round_trips`: Tags, metrics and configurations are read back from what they are
  written as.
-/

namespace ShardConsole

namespace Json

namespace Value

variable {v : Value}

theorem toText?_eq_some_iff {s : String} : v.toText? = some s ↔ v = .ofText s := by
  cases v <;> simp [toText?, ofText]

theorem toBool?_eq_some_iff {b : Bool} : v.toBool? = some b ↔ v = .bool b := by
  cases v <;> simp [toBool?]

theorem toInt64?_ofInt (n : Int64) : (ofInt n.toInt).toInt64? = some n := by
  have least := Int64.le_iff_toInt_le.mp (Int64.minValue_le n)
  have greatest := Int64.le_iff_toInt_le.mp (Int64.le_maxValue n)
  rw [ofInt, toInt64?, Numeral.toInt?_ofInt, Option.bind_some, if_pos ⟨least, greatest⟩,
    Int64.ofInt_toInt]

theorem toUInt64?_encodeWord (n : UInt64) : (Config.encodeWord n).toUInt64? = some n := by
  rw [Config.encodeWord, ofInt, toUInt64?, Numeral.toInt?_ofInt, Option.bind_some, if_pos,
    Int.toNat_natCast, UInt64.ofNat_toNat]
  exact ⟨Int.natCast_nonneg _, n.toNat_lt_size⟩

theorem proper_ofInt (i : Int) : (ofInt i).Proper :=
  .number (Numeral.proper_ofInt i)

end Value

end Json

namespace Tags

/-- The JSON values that stand for tags: records whose only field is an object of texts. Of two
    texts with one name the later one counts. -/
inductive Shown (v : Json.Value) : Tags → Prop
  | record (pairs : List (String × String))
      (gives : Json.Gives ["tags"]
        [some (.ofMembers (pairs.map fun (key, value) => (key, .ofText value)))] v) :
      Shown v (ofPairs pairs)

theorem pairOf?_eq_some_iff {member : Option String × Json.Value} {pair : String × String} :
    pairOf? member = some pair ↔ member = (some pair.1, .ofText pair.2) := by
  constructor
  · intro read
    unfold pairOf? at read
    split at read
    · cases read
      rfl
    · cases read
  · rintro rfl
    rfl

theorem ofObject?_eq_some_iff {v : Json.Value} {t : Tags} : ofObject? v = some t ↔
    ∃ pairs : List (String × String),
      v = .ofMembers (pairs.map fun (key, value) => (key, .ofText value)) ∧ t = ofPairs pairs := by
  have shape (members : List (Option String × Json.Value)) (pairs : List (String × String)) :
      members.mapM pairOf? = some pairs ↔
        members = pairs.map fun pair => (some pair.1, .ofText pair.2) := by
    rw [Text.mapM_eq_some_iff, ← List.forall₂_eq_eq_eq, List.forall₂_map_right_iff]
    simp only [pairOf?_eq_some_iff]
  constructor
  · intro read
    cases v with
    | object members =>
        rcases Option.map_eq_some_iff.mp read with ⟨pairs, found, rfl⟩
        rw [(shape members pairs).mp found]
        exact ⟨pairs, by simp [Json.Value.ofMembers], rfl⟩
    | null | bool | number | string | array => cases read
  · rintro ⟨pairs, rfl, rfl⟩
    refine Option.map_eq_some_iff.mpr ⟨pairs, (shape _ pairs).mpr ?_, rfl⟩
    simp

/-- What is read as tags. -/
theorem decode?_eq_some_iff {v : Json.Value} {t : Tags} : decode? v = some t ↔ Shown v t := by
  constructor
  · intro read
    rcases Option.bind_eq_some_iff.mp read with ⟨fields, found, read⟩
    split at read
    · rcases ofObject?_eq_some_iff.mp read with ⟨pairs, rfl, rfl⟩
      exact .record pairs (Json.Value.fields?_eq_some_iff.mp found)
    · cases read
  · rintro ⟨pairs, gives⟩
    rw [decode?, Json.Value.fields?_eq_some_iff.mpr gives]
    exact ofObject?_eq_some_iff.mpr ⟨pairs, rfl, rfl⟩

theorem shown_encode (t : Tags) : Shown t.encode t := by
  have gives := Json.gives_zip ["tags"]
    [.ofMembers (t.toList.map fun (key, value) => (key, .ofText value))]
    (by decide) rfl
  have shown := Shown.record t.toList gives
  rwa [ofPairs_toList] at shown

theorem proper_encode (t : Tags) : t.encode.Proper := by
  refine .object fun member mem => ?_
  cases List.mem_singleton.mp mem
  refine .object fun member mem => ?_
  rcases List.mem_map.mp mem with ⟨pair, _, rfl⟩
  exact .text pair.2

end Tags

namespace Value

/-- The JSON values that stand for what a metric carries: objects whose only member is named for the
    kind. -/
inductive Shown : Json.Value → Value → Prop
  | counter {v : Json.Value} {amount : Int64} (reads : v.toInt64? = some amount) :
      Shown (.ofMembers [("Counter", v)]) (.counter amount)
  | timer {v : Json.Value} {sample : Double} (reads : v.toDouble? = some sample) :
      Shown (.ofMembers [("Timer", v)]) (.timer sample)
  | gauge {v : Json.Value} {level : Double} (reads : v.toDouble? = some level) :
      Shown (.ofMembers [("Gauge", v)]) (.gauge level)
  | set (member : String) : Shown (.ofMembers [("Set", .ofText member)]) (.set member)

theorem decode?_eq_some_iff {v : Json.Value} {a : Value} : decode? v = some a ↔ Shown v a := by
  constructor
  · intro read
    unfold decode? at read
    split at read
    · rename_i name payload
      rcases Option.bind_eq_some_iff.mp read with ⟨kind, known, read⟩
      cases eq_of_beq (List.find?_some (p := fun k => Kind.singular k == name) known)
      cases kind <;> rcases Option.map_eq_some_iff.mp read with ⟨content, reads, rfl⟩
      · exact .counter reads
      · exact .timer reads
      · exact .gauge reads
      · cases Json.Value.toText?_eq_some_iff.mp reads
        exact .set content
    · cases read
  · rintro (reads | reads | reads | ⟨member⟩)
    · exact Option.map_eq_some_iff.mpr ⟨_, reads, rfl⟩
    · exact Option.map_eq_some_iff.mpr ⟨_, reads, rfl⟩
    · exact Option.map_eq_some_iff.mpr ⟨_, reads, rfl⟩
    · rfl

end Value

namespace Metric

/-- The JSON values that stand for a metric: records with its name, its tags and its value. -/
inductive Shown (v : Json.Value) (m : Metric) : Prop
  | record {tags value : Json.Value} (tagged : Tags.Shown tags m.tags)
      (carries : Value.Shown value m.value)
      (gives : Json.Gives ["name", "tags", "value"]
        [some (.ofText m.name), some tags, some value] v)

/-- What is read as a metric. -/
theorem decode?_eq_some_iff {v : Json.Value} {m : Metric} : decode? v = some m ↔ Shown v m := by
  constructor
  · intro read
    rcases Option.bind_eq_some_iff.mp read with ⟨fields, found, read⟩
    have gives := Json.Value.fields?_eq_some_iff.mp found
    split at read
    · simp only [Option.bind_eq_bind, Option.bind_eq_some_iff, Option.pure_def,
        Json.Value.toText?_eq_some_iff, Tags.decode?_eq_some_iff,
        Value.decode?_eq_some_iff, Option.some.injEq] at read
      rcases read with ⟨name, rfl, tags, tagged, value, carries, rfl⟩
      exact .record tagged carries gives
    · cases read
  · rintro ⟨tagged, carries, gives⟩
    rw [decode?, Json.Value.fields?_eq_some_iff.mpr gives]
    simp [Tags.decode?_eq_some_iff.mpr tagged,
      Value.decode?_eq_some_iff.mpr carries, Json.Value.toText?, Json.Value.ofText]

/-- A metric without a double in it: it is counted, or its members are collected. -/
inductive Exact : Metric → Prop
  | counter (name : String) (tags : Tags) (amount : Int64) : Exact ⟨name, tags, .counter amount⟩
  | set (name : String) (tags : Tags) (member : String) : Exact ⟨name, tags, .set member⟩

theorem Exact.shown_encode {m : Metric} (exact' : m.Exact) : Shown m.encode m := by
  have gives := Json.gives_zip ["name", "tags", "value"]
    [.ofText m.name, m.tags.encode, m.value.encode] (by decide) rfl
  refine .record (Tags.shown_encode m.tags) ?_ gives
  cases exact' with
  | counter name tags amount => exact .counter (Json.Value.toInt64?_ofInt amount)
  | set name tags member => exact .set member

theorem Exact.proper_encode {m : Metric} (exact' : m.Exact) : m.encode.Proper := by
  have value : m.value.encode.Proper := by
    refine .object fun member mem => ?_
    cases List.mem_singleton.mp mem
    cases exact' with
    | counter name tags amount => exact Json.Value.proper_ofInt _
    | set name tags member => exact .text member
  refine .object fun member mem => ?_
  simp only [List.mem_cons, List.not_mem_nil, or_false] at mem
  rcases mem with rfl | rfl | rfl
  · exact .text m.name
  · exact m.tags.proper_encode
  · exact value

end Metric

namespace Config

/-- The JSON values that stand for a configuration: records in which every field may be missing, and
    then has its default. -/
inductive Shown (v : Json.Value) (c : Config) : Prop
  | record {addr prompt numWorkers resultBuffer idleTimeoutSecs maxLineLength logJson :
        Option Json.Value}
      (gives : Json.Gives fieldNames
        [addr, prompt, numWorkers, resultBuffer, idleTimeoutSecs, maxLineLength, logJson] v)
      (addr : Takes (fun v s => v = .ofText s) default.addr addr c.addr)
      (prompt : Takes (fun v s => v = .ofText s) default.prompt prompt c.prompt)
      (numWorkers : Takes (fun v n => v.toUInt64? = some n) default.numWorkers numWorkers
        c.numWorkers)
      (resultBuffer : Takes (fun v n => v.toUInt64? = some n) default.resultBuffer resultBuffer
        c.resultBuffer)
      (idleTimeoutSecs : Takes (fun v secs => v = .null ∧ secs = none ∨
          ∃ n, v.toUInt64? = some n ∧ secs = some n)
        default.idleTimeoutSecs idleTimeoutSecs c.idleTimeoutSecs)
      (maxLineLength : Takes (fun v n => v.toUInt64? = some n) default.maxLineLength maxLineLength
        c.maxLineLength)
      (logJson : Takes (fun v b => v = .bool b) default.logJson logJson c.logJson)

theorem given?_eq_some_iff {α : Type} {read : Json.Value → Option α} {standard a : α}
    {field : Option Json.Value} : given? read standard field = some a ↔
      Takes (fun v a => read v = some a) standard field a := by
  cases field <;> simp [given?]

theorem decodeTimeout?_eq_some_iff {v : Json.Value} {secs : Option UInt64} :
    decodeTimeout? v = some secs ↔ v = .null ∧ secs = none ∨
      ∃ n, v.toUInt64? = some n ∧ secs = some n := by
  by_cases null : v = .null
  · subst null
    simp [decodeTimeout?, Json.Value.toUInt64?, eq_comm]
  · rw [decodeTimeout?, Option.map_eq_some_iff]
    · simp [null, eq_comm]
    · exact null

/-- What is read as a configuration. -/
theorem decode?_eq_some_iff {v : Json.Value} {c : Config} : decode? v = some c ↔ Shown v c := by
  constructor
  · intro read
    rcases Option.bind_eq_some_iff.mp read with ⟨fields, found, read⟩
    have gives := Json.Value.fields?_eq_some_iff.mp found
    split at read
    · simp only [Option.bind_eq_bind, Option.bind_eq_some_iff, Option.pure_def, given?_eq_some_iff,
        Json.Value.toText?_eq_some_iff, Json.Value.toBool?_eq_some_iff,
        decodeTimeout?_eq_some_iff, Option.some.injEq] at read
      rcases read with ⟨_, addr, _, prompt, _, workers, _, buffer, _, timeout, _, length, _, json,
        rfl⟩
      exact .record gives addr prompt workers buffer timeout length json
    · cases read
  · rintro ⟨gives, addr, prompt, workers, buffer, timeout, length, json⟩
    rw [decode?, Json.Value.fields?_eq_some_iff.mpr gives]
    simp only [Option.bind_eq_bind, Option.bind_eq_some_iff, Option.pure_def, given?_eq_some_iff,
      Json.Value.toText?_eq_some_iff, Json.Value.toBool?_eq_some_iff,
      decodeTimeout?_eq_some_iff, Option.some.injEq, Option.bind_some]
    exact ⟨_, addr, _, prompt, _, workers, _, buffer, _, timeout, _, length, _, json, rfl⟩

theorem shown_encode (c : Config) : Shown c.encode c := by
  have gives := Json.gives_zip fieldNames
    [.ofText c.addr, .ofText c.prompt, encodeWord c.numWorkers, encodeWord c.resultBuffer,
      (c.idleTimeoutSecs.map encodeWord).getD .null, encodeWord c.maxLineLength, .bool c.logJson]
    (by decide) rfl
  have word (n standard : UInt64) :
      Takes (fun v n => Json.Value.toUInt64? v = some n) standard (some (encodeWord n)) n :=
    .set (Json.Value.toUInt64?_encodeWord n)
  refine .record gives (.set rfl) (.set rfl) (word _ _) (word _ _) (.set ?_) (word _ _) (.set rfl)
  cases c.idleTimeoutSecs with
  | none => exact .inl ⟨rfl, rfl⟩
  | some n => exact .inr ⟨n, Json.Value.toUInt64?_encodeWord n, rfl⟩

theorem proper_encode (c : Config) : c.encode.Proper := by
  have word (n : UInt64) : (encodeWord n).Proper := Json.Value.proper_ofInt n.toNat
  have timeout : ((c.idleTimeoutSecs.map encodeWord).getD .null).Proper := by
    cases c.idleTimeoutSecs with
    | none => exact .null
    | some n => exact word n
  refine .object fun member mem => ?_
  simp only [fieldNames, List.zip_cons_cons, List.zip_nil_left, List.mem_cons, List.not_mem_nil,
    or_false] at mem
  rcases mem with rfl | rfl | rfl | rfl | rfl | rfl | rfl
  · exact .text c.addr
  · exact .text c.prompt
  · exact word c.numWorkers
  · exact word c.resultBuffer
  · exact timeout
  · exact word c.maxLineLength
  · exact .bool c.logJson

end Config

namespace Json

/-- What a text of JSON is read as. -/
def readText? {α : Type} (decode? : Value → Option α) (text : String) : Option α :=
  (parse? text).bind decode?

/-- What is written is read back, for the things for which nothing is lost in writing. Whatever text
    they have been read from, they are written as one and the same text, and different things as
    different texts. -/
structure RoundTrips {α : Type} (encode : α → Value) (decode? : Value → Option α)
    (Shown : Value → α → Prop) (Exact : α → Prop) : Prop where
  shown : ∀ v a, decode? v = some a ↔ Shown v a
  back : ∀ a, Exact a → readText? decode? (encode a).text = some a
  same_iff : ∀ s t a b, readText? decode? s = some a → readText? decode? t = some b →
    Exact a → Exact b → (a = b ↔ (encode a).text = (encode b).text)

theorem RoundTrips.of_proper {α : Type} {encode : α → Value} {decode? : Value → Option α}
    {Shown : Value → α → Prop} {Exact : α → Prop} (shown : ∀ v a, decode? v = some a ↔ Shown v a)
    (encoded : ∀ a, Exact a → Shown (encode a) a) (proper : ∀ a, Exact a → (encode a).Proper) :
    RoundTrips encode decode? Shown Exact := by
  have back (a : α) (exact' : Exact a) : readText? decode? (encode a).text = some a := by
    rw [readText?, Value.parse?_text (proper a exact'), Option.bind_some, shown]
    exact encoded a exact'
  refine ⟨shown, back, fun _ _ a b _ _ exact' exact'' => ⟨fun same => same ▸ rfl, fun same => ?_⟩⟩
  have read := back a exact'
  rw [same, back b exact''] at read
  exact (Option.some.inj read).symm

/-- Tags, metrics that are counted or collected, and configurations are read back from what they are
    written as. -/
theorem written_round_trips :
    RoundTrips Tags.encode Tags.decode? Tags.Shown (fun _ => True) ∧
    RoundTrips Metric.encode Metric.decode? Metric.Shown Metric.Exact ∧
    RoundTrips Config.encode Config.decode? Config.Shown (fun _ => True) :=
  ⟨.of_proper (fun _ _ => Tags.decode?_eq_some_iff) (fun t _ => t.shown_encode)
      (fun t _ => t.proper_encode),
    .of_proper (fun _ _ => Metric.decode?_eq_some_iff) (fun _ exact' => exact'.shown_encode)
      (fun _ exact' => exact'.proper_encode),
    .of_proper (fun _ _ => Config.decode?_eq_some_iff) (fun c _ => c.shown_encode)
      (fun c _ => c.proper_encode)⟩

/-- An array may end early, and an object may have members that are no fields; what is not given has
    its default in both. -/
example :
    (readText? Config.decode? "[\"\\u0061\"]").map (·.addr) = some "a" ∧
    readText? Config.decode? "[\"\\u0061\"]" =
      readText? Config.decode? "\x7b \"extra\": [1, null], \"addr\": \"a\" \x7d" := by
  decide +kernel

end Json

end ShardConsole
