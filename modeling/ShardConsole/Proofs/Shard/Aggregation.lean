import Mathlib.Data.List.DropRight
import Mathlib.Data.List.Induction
import ShardConsole.Proofs.Shard.Entries

/-!
# Aggregation

What a shard holds after metrics and deletions in any order.

An entry belongs to a kind, a name and a written tag set. Of all that has happened to a shard, only
the metrics that were received for the entry since its name was last deleted from its kind matter
to it. If there are none, there is no entry. Otherwise its total is what these metrics come to in
the order of their arrival: a counter adds up and stops at the ends of the 64-bit range after each
addition, a timer collects, a gauge keeps the last level and a set keeps the distinct members.

So what happens to different names or in different kinds may come in any order among each other,
and so may metrics of one name with different tags, as long as no deletion of the name comes
between them.

## Main definitions

* `Operation`: What can happen to a shard.
* `Shard.ofOperations`: The shard that operations make of an empty one.
* `arrivals`: The values received for an entry since its name was last deleted.
* `Kind.summary`: What values come to.
* `Aggregates`: A shard has the totals of what was received.
* `Reordered`: Operations in another order that makes no difference to a name.

## Theorems

* `Shard.total?_receive_self`, `Shard.total?_receive_of_ne`, `Shard.total?_delete`: What an
  operation does to an entry.
* `Shard.total?_ofOperations`: An entry is what was received for it.
* `filter_of_reordered`: Another order that makes no difference leaves what touches an entry as
  it is.
* `Shard.aggregation_law`: What a shard holds after any operations.
-/

namespace ShardConsole

/-- What can happen to a shard: a metric is received, or a name is deleted from a kind. -/
inductive Operation
  | receive (m : Metric)
  | delete (kind : Kind) (name : String)

namespace Operation

/-- Whether an operation deletes a name from a kind. -/
def deletes (kind : Kind) (name : String) : Operation → Bool
  | receive _ => false
  | delete other removed => other = kind ∧ removed = name

/-- Whether an operation has to do with a name of a kind. -/
def concerns (kind : Kind) (name : String) : Operation → Bool
  | receive m => m.kind = kind ∧ m.name = name
  | delete other removed => other = kind ∧ removed = name

/-- The value that an operation brings to an entry. -/
def value? (kind : Kind) (name key : String) : Operation → Option Value
  | receive m => if m.kind = kind ∧ m.name = name ∧ m.tags.text = key then some m.value else none
  | delete _ _ => none

/-- Whether an operation has to do with an entry: it deletes the name or brings a value. -/
def touches (kind : Kind) (name key : String) (op : Operation) : Bool :=
  op.deletes kind name || (op.value? kind name key).isSome

end Operation

/-- The values received for an entry since its name was last deleted from its kind, in the order
    of their arrival. -/
def arrivals (kind : Kind) (name key : String) (operations : List Operation) : List Value :=
  (operations.rtakeWhile fun op => !op.deletes kind name).filterMap (Operation.value? kind name key)

/-- Metrics of one name with different tags that come right after one another may change
    places. -/
inductive Reordered : List Operation → List Operation → Prop
  | nil : Reordered [] []
  | cons {first last : List Operation} (op : Operation) (rest : Reordered first last) :
      Reordered (op :: first) (op :: last)
  | swap {m m' : Metric} (rest : List Operation) (tags : m.tags.text ≠ m'.tags.text) :
      Reordered (.receive m :: .receive m' :: rest) (.receive m' :: .receive m :: rest)
  | trans {first middle last : List Operation} (left : Reordered first middle)
      (right : Reordered middle last) : Reordered first last

namespace Value

/-- The amount of a counter. -/
def amount? : Value → Option Int64
  | counter amount => some amount
  | _ => none

/-- The sample of a timer. -/
def sample? : Value → Option Double
  | timer sample => some sample
  | _ => none

/-- The level of a gauge. -/
def level? : Value → Option Double
  | gauge level => some level
  | _ => none

/-- The member of a set. -/
def member? : Value → Option String
  | set member => some member
  | _ => none

end Value

/-- What values of a kind come to, one after the other. -/
def Kind.summary : (kind : Kind) → List Value → kind.Total
  | .counter, values => (values.filterMap Value.amount?).foldl addClamped 0
  | .timer, values => ⟨(values.filterMap Value.sample?).toArray⟩
  | .gauge, values => ((values.filterMap Value.level?).getLast?).getD Double.zero
  | .set, values => ⟨(values.filterMap Value.member?).foldl Std.ExtTreeSet.insert ∅⟩

/-- The number of the 64-bit range that is nearest to a number. -/
def saturated (n : Int) : Int :=
  max Int64.minValue.toInt (min Int64.maxValue.toInt n)

namespace Shard

/-- What a shard has under a kind, a name and a written tag set. -/
def total? (s : Shard) (kind : Kind) (name key : String) : Option kind.Total :=
  (s.collection kind).total? name key

/-- A shard after an operation. -/
def apply (s : Shard) : Operation → Shard
  | .receive m => s.receive m
  | .delete kind name => s.delete kind name

/-- The shard that operations make of an empty one. -/
def ofOperations (operations : List Operation) : Shard :=
  operations.foldl apply empty

end Shard

/-- A shard has the totals of what was received in the course of some operations. -/
structure Aggregates (operations : List Operation) (s : Shard) : Prop where
  /-- An entry is there exactly if a metric was received for it after the last deletion of its
      name. -/
  present : ∀ kind name key, (s.total? kind name key).isSome ↔
    ∃ earlier m later, operations = earlier ++ .receive m :: later ∧ m.kind = kind ∧
      m.name = name ∧ m.tags.text = key ∧ .delete kind name ∉ later
  /-- A counter is the sum of its amounts, kept within the 64-bit range after each addition. -/
  counter : ∀ name key sum, s.total? .counter name key = some sum →
    sum.toInt = ((arrivals .counter name key operations).filterMap Value.amount?).foldl
      (fun sum amount => saturated (sum + amount.toInt)) 0
  /-- A timer has its samples in the order of their arrival. -/
  timer : ∀ name key samples, s.total? .timer name key = some samples →
    samples.toArray.toList = (arrivals .timer name key operations).filterMap Value.sample?
  /-- A gauge has its last level. -/
  gauge : ∀ name key level, s.total? .gauge name key = some level →
    ((arrivals .gauge name key operations).filterMap Value.level?).getLast? = some level
  /-- A set has its distinct members. -/
  set : ∀ name key members, s.total? .set name key = some members → ∀ member,
    member ∈ members.toSet ↔
      member ∈ (arrivals .set name key operations).filterMap Value.member?

theorem Reordered.refl (operations : List Operation) : Reordered operations operations := by
  induction operations with
  | nil => exact .nil
  | cons op _ ih => exact ih.cons op

section Received

variable {kind : Kind} {name key : String} {operations : List Operation} {op : Operation}
  {m : Metric}

theorem concerns_of_touches (h : op.touches kind name key = true) :
    op.concerns kind name = true := by
  cases op with
  | receive m =>
      simp only [Operation.touches, Operation.deletes, Operation.value?, Bool.false_or] at h
      split at h
      · rename_i mine
        simp [Operation.concerns, mine]
      · cases h
  | delete =>
      simpa [Operation.touches, Operation.deletes, Operation.value?, Operation.concerns] using h

theorem arrivals_nil : arrivals kind name key [] = [] := rfl

-- A deletion of the name takes away what was received before it.
theorem arrivals_of_deletes (deletes : op.deletes kind name = true) :
    arrivals kind name key (operations ++ [op]) = [] := by
  rw [arrivals, List.rtakeWhile_concat_neg _ _ _ (by simp [deletes]), List.filterMap_nil]

-- Otherwise what was received stays, and the value that the operation brings is added.
theorem arrivals_snoc (keeps : op.deletes kind name = false) :
    arrivals kind name key (operations ++ [op]) =
      arrivals kind name key operations ++ (op.value? kind name key).toList := by
  rw [arrivals, List.rtakeWhile_concat_pos _ _ _ (by simp [keeps]), List.filterMap_append]
  cases value : op.value? kind name key <;> simp [arrivals, value]

/-- What does not touch an entry does not matter to what was received for it. -/
theorem arrivals_filter (operations : List Operation) :
    arrivals kind name key (operations.filter (Operation.touches kind name key)) =
      arrivals kind name key operations := by
  induction operations using List.reverseRecOn with
  | nil => rfl
  | append_singleton rest op ih =>
      rw [List.filter_append, List.filter_singleton]
      by_cases deletes : op.deletes kind name = true
      · simp [Operation.touches, deletes, arrivals_of_deletes]
      · have keeps : op.deletes kind name = false := Bool.not_eq_true _ ▸ deletes
        cases value : op.value? kind name key with
        | none =>
            rw [arrivals_snoc keeps, value]
            simp [Operation.touches, keeps, value, ih]
        | some v =>
            rw [arrivals_snoc keeps, value]
            simp [Operation.touches, keeps, value, arrivals_snoc, ih]

/-- Another order that makes no difference to a name leaves what touches an entry as it is. -/
theorem filter_of_reordered {first last : List Operation} (kind : Kind) (name key : String)
    (reordered : Reordered first last) :
    first.filter (Operation.touches kind name key) =
      last.filter (Operation.touches kind name key) := by
  induction reordered with
  | nil => rfl
  | cons op _ ih => rw [List.filter_cons, List.filter_cons, ih]
  | @swap m m' rest tags =>
      -- Metrics with different tags cannot both have to do with the entry.
      by_cases mine : m.tags.text = key
      · have other : m'.tags.text ≠ key := fun same => tags (mine.trans same.symm)
        simp [List.filter_cons, Operation.touches, Operation.deletes, Operation.value?, other]
      · simp [List.filter_cons, Operation.touches, Operation.deletes, Operation.value?, mine]
  | trans _ _ left right => exact left.trans right

theorem deletes_iff : op.deletes kind name = true ↔ op = .delete kind name := by
  cases op <;> simp [Operation.deletes]

theorem value?_eq_some_iff {v : Value} : op.value? kind name key = some v ↔
    ∃ m, op = .receive m ∧ m.kind = kind ∧ m.name = name ∧ m.tags.text = key ∧ m.value = v := by
  cases op <;> simp [Operation.value?, and_assoc]

/-- The values that arrive for an entry are of its kind. -/
theorem kind_of_mem_arrivals {v : Value} (mem : v ∈ arrivals kind name key operations) :
    v.kind = kind := by
  rcases List.mem_filterMap.mp mem with ⟨op, _, brings⟩
  rcases value?_eq_some_iff.mp brings with ⟨m, _, rfl, _, _, rfl⟩
  rfl

/-- Something arrives for an entry exactly if a metric is received for it after the last deletion
    of its name. -/
theorem arrivals_ne_nil_iff : arrivals kind name key operations ≠ [] ↔
    ∃ earlier m later, operations = earlier ++ .receive m :: later ∧ m.kind = kind ∧
      m.name = name ∧ m.tags.text = key ∧ .delete kind name ∉ later := by
  constructor
  · intro some
    rcases List.exists_mem_of_ne_nil _ some with ⟨v, mem⟩
    rcases List.mem_filterMap.mp mem with ⟨op, since, brings⟩
    rcases value?_eq_some_iff.mp brings with ⟨m, rfl, hk, hn, ht, _⟩
    -- No deletion of the name is among what has happened since the last one.
    have keeps (op' : Operation) (h : op' ∈ operations.rtakeWhile fun op => !op.deletes kind name) :
        op' ≠ .delete kind name := by
      rintro rfl
      have := List.mem_rtakeWhile_imp h
      simp [Operation.deletes] at this
    rcases List.rtakeWhile_suffix (fun op => !op.deletes kind name) operations with ⟨before, split⟩
    rcases List.append_of_mem since with ⟨first, last, parts⟩
    refine ⟨before ++ first, m, last, ?_, hk, hn, ht, ?_⟩
    · rw [List.append_assoc, ← parts, split]
    · intro gone
      exact keeps _ (by rw [parts]; simp [gone]) rfl
  · rintro ⟨earlier, m, later, rfl, rfl, rfl, rfl, keeps⟩
    refine List.ne_nil_of_mem (a := m.value) ?_
    induction later using List.reverseRecOn with
    | nil =>
        rw [arrivals_snoc rfl]
        simp [Operation.value?]
    | append_singleton rest op ih =>
        have other : op.deletes m.kind m.name = false := by
          by_contra deletes
          rw [Bool.not_eq_false, deletes_iff] at deletes
          exact keeps (by simp [deletes])
        rw [← List.cons_append, ← List.append_assoc, arrivals_snoc other]
        exact List.mem_append_left _ (ih fun gone => keeps (List.mem_append_left _ gone))

end Received

section Summaries

variable {kind : Kind} {values : List Value}

theorem summary_nil (kind : Kind) : kind.summary [] = Total.start := by
  cases kind <;> rfl

/-- A value that arrives is merged into what the earlier ones come to. -/
theorem summary_snoc (values : List Value) (v : Value) :
    v.kind.summary (values ++ [v]) = v.addTo (v.kind.summary values) := by
  cases v <;> simp [Value.kind, Kind.summary, Value.addTo, Value.amount?, Value.sample?,
    Value.level?, Value.member?]

theorem toInt_addClamped (a b : Int64) :
    (addClamped a b).toInt = saturated (a.toInt + b.toInt) := by
  have order : Int64.minValue.toInt ≤ Int64.maxValue.toInt := by decide
  rw [addClamped, saturated, Int64.ofIntClamp]
  by_cases low : Int64.minValue.toInt ≤ a.toInt + b.toInt
  · by_cases high : a.toInt + b.toInt ≤ Int64.maxValue.toInt
    · rw [dif_pos low, dif_pos high, Int64.toInt_ofIntLE]
      omega
    · rw [dif_pos low, dif_neg high]
      omega
  · rw [dif_neg low]
    omega

/-- Amounts added up within the 64-bit range. -/
theorem toInt_foldl_addClamped (amounts : List Int64) (sum : Int64) :
    (amounts.foldl addClamped sum).toInt =
      amounts.foldl (fun sum amount => saturated (sum + amount.toInt)) sum.toInt := by
  induction amounts generalizing sum with
  | nil => rfl
  | cons amount rest ih => rw [List.foldl_cons, List.foldl_cons, ih, toInt_addClamped]

theorem mem_foldl_insert (members : List String) (set : Std.ExtTreeSet String) (member : String) :
    member ∈ members.foldl Std.ExtTreeSet.insert set ↔ member ∈ set ∨ member ∈ members := by
  induction members generalizing set with
  | nil => simp
  | cons first rest ih =>
      rw [List.foldl_cons, ih, Std.ExtTreeSet.mem_insert, Std.LawfulEqCmp.compare_eq_iff_eq,
        List.mem_cons]
      tauto

-- The level that comes last, if there is one at all.
theorem getLast?_levels (gauges : ∀ v ∈ values, v.kind = .gauge) (some : values ≠ []) :
    (values.filterMap Value.level?).getLast? = Option.some (Kind.gauge.summary values) := by
  have levels : values.filterMap Value.level? ≠ [] := by
    rcases List.exists_mem_of_ne_nil values some with ⟨v, mem⟩
    have gauge := gauges v mem
    cases v with
    | gauge level => exact List.ne_nil_of_mem (List.mem_filterMap.mpr ⟨_, mem, rfl⟩)
    | _ => cases gauge
  rw [Kind.summary, List.getLast?_eq_some_getLast levels, Option.getD_some]

end Summaries

namespace Shard

variable {s : Shard} {kind : Kind} {name key : String} {m : Metric}

/-- The entry of a metric after it has been received. -/
theorem total?_receive_self (s : Shard) (m : Metric) :
    (s.receive m).total? m.kind m.name m.tags.text =
      some (m.value.addTo ((s.total? m.kind m.name m.tags.text).getD Total.start)) := by
  rw [total?, receive, collection_modify_self]
  exact (Collection.total?_update _ _ _ _ _ _).trans (if_pos ⟨rfl, rfl⟩)

/-- All other entries stay as they are. -/
theorem total?_receive_of_ne (other : ¬ (m.kind = kind ∧ m.name = name ∧ m.tags.text = key)) :
    (s.receive m).total? kind name key = s.total? kind name key := by
  by_cases hk : kind = m.kind
  · subst hk
    rw [total?, receive, collection_modify_self]
    refine (Collection.total?_update _ _ _ _ _ _).trans (if_neg fun mine => other ?_)
    exact ⟨rfl, mine.1.symm, mine.2.symm⟩
  · rw [total?, receive, collection_modify_of_ne s hk, total?]

/-- A deletion takes away the entries of its kind and its name. -/
theorem total?_delete (s : Shard) (removed : Kind) (gone : String) :
    (s.delete removed gone).total? kind name key =
      if removed = kind ∧ gone = name then none else s.total? kind name key := by
  by_cases hk : kind = removed
  · subst hk
    rw [total?, delete, collection_modify_self, Collection.total?_delete]
    by_cases hn : name = gone
    · rw [if_pos hn, if_pos ⟨rfl, hn.symm⟩]
    · rw [if_neg hn, if_neg fun both => hn both.2.symm, total?]
  · rw [total?, delete, collection_modify_of_ne s hk, if_neg fun both => hk both.1.symm, total?]

theorem ofOperations_snoc (operations : List Operation) (op : Operation) :
    ofOperations (operations ++ [op]) = (ofOperations operations).apply op := by
  rw [ofOperations, List.foldl_append]
  rfl

-- What was received for an entry comes to its start if nothing was.
theorem getD_total? {values : List Value}
    (h : s.total? kind name key = if values = [] then none else some (kind.summary values)) :
    (s.total? kind name key).getD Total.start = kind.summary values := by
  rw [h]
  by_cases none : values = []
  · rw [if_pos none, none, summary_nil, Option.getD_none]
  · rw [if_neg none, Option.getD_some]

/-- An entry is there if something was received for it, and it is what that comes to. -/
theorem total?_ofOperations (operations : List Operation) (kind : Kind) (name key : String) :
    (ofOperations operations).total? kind name key =
      if arrivals kind name key operations = [] then none
      else some (kind.summary (arrivals kind name key operations)) := by
  induction operations using List.reverseRecOn with
  | nil =>
      rw [if_pos (arrivals_nil), total?]
      cases kind <;> exact Collection.total?_empty
  | append_singleton rest op ih =>
      rw [ofOperations_snoc]
      cases op with
      | receive m =>
          rw [arrivals_snoc rfl]
          by_cases mine : m.kind = kind ∧ m.name = name ∧ m.tags.text = key
          · have brings : (Operation.receive m).value? kind name key = some m.value := if_pos mine
            rcases mine with ⟨rfl, rfl, rfl⟩
            rw [brings, Option.toList_some, if_neg (by simp), apply, total?_receive_self,
              getD_total? ih]
            exact congrArg some (summary_snoc _ _).symm
          · have brings : (Operation.receive m).value? kind name key = none := if_neg mine
            rw [brings, Option.toList_none, List.append_nil, apply, total?_receive_of_ne mine, ih]
      | delete removed gone =>
          rw [apply, total?_delete]
          by_cases deletes : removed = kind ∧ gone = name
          · rw [if_pos deletes, arrivals_of_deletes (by simpa [Operation.deletes] using deletes),
              if_pos rfl]
          · have keeps : (Operation.delete removed gone).deletes kind name = false := by
              simpa [Operation.deletes] using deletes
            rw [if_neg deletes, arrivals_snoc keeps, Operation.value?, Option.toList_none,
              List.append_nil, ih]

-- A change of the collection of one kind leaves those of the other kinds as they are.
theorem built_modify (built : ∀ kind, (s.collection kind).Built) {changed : Kind}
    {change : Collection changed.Total → Collection changed.Total}
    (step : (change (s.collection changed)).Built) (kind : Kind) :
    ((s.modify changed change).collection kind).Built := by
  by_cases hk : kind = changed
  · subst hk
    rwa [collection_modify_self]
  · rw [collection_modify_of_ne _ hk]
    exact built kind

/-- An operation updates a collection of a shard or deletes a name from it. -/
theorem built_apply (built : ∀ kind, (s.collection kind).Built) (op : Operation) (kind : Kind) :
    ((s.apply op).collection kind).Built := by
  cases op with
  | receive m => exact built_modify built ((built m.kind).update _ _ _) kind
  | delete removed gone => exact built_modify built ((built removed).delete gone) kind

theorem built_ofOperations (operations : List Operation) (kind : Kind) :
    ((ofOperations operations).collection kind).Built := by
  induction operations using List.reverseRecOn generalizing kind with
  | nil => cases kind <;> exact .empty
  | append_singleton rest op ih =>
      rw [ofOperations_snoc]
      exact built_apply ih op kind

/-- Operations that bring the same to all entries lead to the same shard. -/
theorem ofOperations_eq {first last : List Operation}
    (same : ∀ kind name key, arrivals kind name key first = arrivals kind name key last) :
    ofOperations first = ofOperations last := by
  refine ext_totals? fun kind name => ?_
  have collections :
      (ofOperations first).collection kind = (ofOperations last).collection kind := by
    refine Collection.ext_total? (built_ofOperations first kind).filled
      (built_ofOperations last kind).filled fun name key => ?_
    have entry := total?_ofOperations first kind name key
    rw [same, ← total?_ofOperations last] at entry
    exact entry
  rw [totals?, totals?, collections]

/-- The totals of a shard are what was received. -/
theorem aggregates_ofOperations (operations : List Operation) :
    Aggregates operations (ofOperations operations) := by
  -- An entry that is there is the summary of what was received for it, which is something.
  have entry {kind : Kind} {name key : String} {total : kind.Total}
      (h : (ofOperations operations).total? kind name key = some total) :
      arrivals kind name key operations ≠ [] ∧
        total = kind.summary (arrivals kind name key operations) := by
    rw [total?_ofOperations] at h
    by_cases none : arrivals kind name key operations = []
    · rw [if_pos none] at h
      cases h
    · rw [if_neg none] at h
      exact ⟨none, (Option.some.inj h).symm⟩
  constructor
  · intro kind name key
    rw [← arrivals_ne_nil_iff, total?_ofOperations]
    by_cases none : arrivals kind name key operations = [] <;> simp [none]
  · intro name key sum h
    rw [(entry h).2, Kind.summary, toInt_foldl_addClamped]
    rfl
  · intro name key samples h
    rw [(entry h).2, Kind.summary]
  · intro name key level h
    rcases entry h with ⟨some, rfl⟩
    exact getLast?_levels (fun v mem => kind_of_mem_arrivals mem) some
  · intro name key members h member
    rw [(entry h).2, Kind.summary, mem_foldl_insert]
    simp

/-- The law of aggregation.

    After any metrics and deletions, an entry of a shard that was empty at first is there exactly
    if a metric was received for it after the last deletion of its name, and its total is what
    these metrics come to: a sum that is kept within the 64-bit range after each addition, the
    samples in the order of their arrival, the last level or the distinct members. If for every
    kind and every name the same has happened, but for the order of metrics with different tags
    between two deletions, then the shards are equal. -/
theorem aggregation_law (operations : List Operation) :
    Aggregates operations (ofOperations operations) ∧
    ∀ others, (∀ kind name, Reordered (operations.filter (Operation.concerns kind name))
        (others.filter (Operation.concerns kind name))) →
      ofOperations others = ofOperations operations := by
  refine ⟨aggregates_ofOperations operations, ?_⟩
  intro others reordered
  refine (ofOperations_eq fun kind name key => ?_).symm
  -- What touches an entry concerns its name.
  have concerned (ops : List Operation) :
      (ops.filter (Operation.concerns kind name)).filter (Operation.touches kind name key) =
        ops.filter (Operation.touches kind name key) := by
    rw [List.filter_filter]
    refine List.filter_congr fun op _ => ?_
    rw [Bool.and_eq_left_iff_imp]
    exact concerns_of_touches
  have touching := filter_of_reordered kind name key (reordered kind name)
  rw [concerned, concerned] at touching
  rw [← arrivals_filter operations, touching, arrivals_filter]

/-- A counter that reaches the end of its range and comes back from it, among other metrics and a
    deletion of a timer that has its name. -/
def orderly : List Operation :=
  [.receive ⟨"a", .parse "host:x", .counter Int64.maxValue⟩,
    .receive ⟨"a", .parse "host:y", .counter 7⟩,
    .receive ⟨"a", .parse "host:x", .counter 5⟩, .delete .timer "a",
    .receive ⟨"b", .empty, .set "m"⟩, .receive ⟨"a", .parse "host:x", .counter (-3)⟩]

/-- The same in another order. -/
def shuffled : List Operation :=
  [.receive ⟨"b", .empty, .set "m"⟩, .receive ⟨"a", .parse "host:y", .counter 7⟩,
    .receive ⟨"a", .parse "host:x", .counter Int64.maxValue⟩,
    .receive ⟨"a", .parse "host:x", .counter 5⟩,
    .receive ⟨"a", .parse "host:x", .counter (-3)⟩, .delete .timer "a"]

theorem orderly_aggregates : ofOperations shuffled = ofOperations orderly ∧
    ∃ sum, (ofOperations orderly).total? .counter "a" "host:x" = some sum ∧
      sum.toInt = 9223372036854775804 := by
  have tags : (Tags.parse "host:x").text = "host:x" ∧ (Tags.parse "host:y").text = "host:y" := by
    decide +kernel
  rcases aggregation_law orderly with ⟨aggregates, same⟩
  refine ⟨same shuffled ?_, ?_⟩
  · intro kind name
    by_cases counted : kind = .counter ∧ name = "a"
    · -- The metrics with other tags come first in one order and second in the other one.
      rcases counted with ⟨rfl, rfl⟩
      have apart : (Tags.parse "host:x").text ≠ (Tags.parse "host:y").text := by
        rw [tags.1, tags.2]
        decide
      exact .swap _ apart
    · have alike : orderly.filter (Operation.concerns kind name) =
          shuffled.filter (Operation.concerns kind name) := by
        cases kind with
        | counter =>
            have other : "a" ≠ name := fun same => counted ⟨rfl, same.symm⟩
            simp [orderly, shuffled, Operation.concerns, Metric.kind, Value.kind, other]
        | _ =>
            simp [orderly, shuffled, Operation.concerns, Metric.kind, Value.kind, List.filter_cons]
      rw [alike]
      exact .refl _
  · have there : ((ofOperations orderly).total? .counter "a" "host:x").isSome := by
      refine (aggregates.present .counter "a" "host:x").mpr ⟨orderly.dropLast, _, [], rfl, rfl, rfl,
        tags.1, List.not_mem_nil⟩
    rcases Option.isSome_iff_exists.mp there with ⟨sum, some⟩
    refine ⟨sum, some, ?_⟩
    rw [aggregates.counter _ _ _ some]
    decide +kernel

end Shard

end ShardConsole
