import Mathlib.Algebra.Order.BigOperators.Group.List
import Mathlib.Algebra.Ring.Int.Defs
import ShardConsole.Proofs.Shard.Aggregation

/-!
# Counters

How far the sum of a counter can be trusted.

A counter adds up the amounts that it receives and stops at the ends of the 64-bit range, where it
drops what does not fit. What has been dropped is not made up for later, so in general the sum
depends on the order in which the amounts arrive. It does not as long as nothing is dropped, and
then it is exact. Nor does it when all amounts have the same sign: once at the end of the range, the
counter can only stay there. In any case a counter never turns around: an amount moves it in its own
direction or not at all, and greater amounts never leave it with less.

## Main definitions

* `amounts`: The amounts that have been received for a counter.
* `exactSum`: What amounts come to when nothing is dropped.
* `Fits`: No sum on the way leaves the 64-bit range.
* `OneWay`: Amounts of the same sign.
* `Counts`: A sum is what amounts come to.

## Theorems

* `clampedSum_of_fits`, `clampedSum_of_oneWay`: When the order makes no difference.
* `clampedSum_mono`: Greater amounts come to no less.
* `Shard.counter_trustworthy`: What the sum of a counter says about the amounts.
-/

namespace ShardConsole

/-- The amounts that have been received for a counter since its name was last deleted, in the order
    of their arrival. -/
def amounts (name key : String) (operations : List Operation) : List Int64 :=
  (arrivals .counter name key operations).filterMap Value.amount?

/-- What amounts come to when nothing is dropped. -/
def exactSum (amounts : List Int64) : Int :=
  (amounts.map Int64.toInt).sum

/-- What amounts come to, added one after the other to a number, when after each addition
    everything outside of the 64-bit range is dropped. -/
def clampedSum (sum : Int) (amounts : List Int64) : Int :=
  amounts.foldl (fun sum amount => saturated (sum + amount.toInt)) sum

/-- Whether a number is in the 64-bit range. -/
def InRange (n : Int) : Prop :=
  Int64.minValue.toInt ≤ n ∧ n ≤ Int64.maxValue.toInt

/-- No sum on the way leaves the 64-bit range. -/
def Fits (amounts : List Int64) : Prop :=
  ∀ front, front <+: amounts → InRange (exactSum front)

/-- Amounts of which none is negative, or none is positive. -/
def OneWay (amounts : List Int64) : Prop :=
  (∀ amount ∈ amounts, 0 ≤ amount) ∨ ∀ amount ∈ amounts, amount ≤ 0

instance (n : Int) : Decidable (InRange n) :=
  inferInstanceAs (Decidable (_ ∧ _))

instance (amounts : List Int64) : Decidable (Fits amounts) :=
  decidable_of_iff (∀ front ∈ amounts.inits, InRange (exactSum front)) (by simp [Fits])

-- Only the amounts are looked at, and not all numbers of 64 bits.
instance (amounts : List Int64) : Decidable (OneWay amounts) :=
  have : Decidable (∀ amount ∈ amounts, 0 ≤ amount) := List.decidableBAll _ amounts
  have : Decidable (∀ amount ∈ amounts, amount ≤ 0) := List.decidableBAll _ amounts
  inferInstanceAs (Decidable (_ ∨ _))

/-- A sum is what amounts come to. -/
structure Counts (amounts : List Int64) (sum : Int64) : Prop where
  inRange : InRange sum.toInt
  /-- As long as nothing is dropped the sum is exact. -/
  exact : Fits amounts → sum.toInt = exactSum amounts
  /-- What amounts of the same sign come to is dropped only at the end. -/
  oneWay : OneWay amounts → sum.toInt = saturated (exactSum amounts)

section Sums

variable {front xs ys : List Int64} {x : Int64} {m n : Int}

@[simp] theorem exactSum_snoc (xs : List Int64) (x : Int64) :
    exactSum (xs ++ [x]) = exactSum xs + x.toInt := by
  simp [exactSum]

theorem exactSum_perm (same : xs.Perm ys) : exactSum xs = exactSum ys :=
  (same.map Int64.toInt).sum_eq

@[simp] theorem clampedSum_snoc (n : Int) (xs : List Int64) (x : Int64) :
    clampedSum n (xs ++ [x]) = saturated (clampedSum n xs + x.toInt) := by
  simp [clampedSum]

theorem saturated_of_inRange (inside : InRange n) : saturated n = n := by
  rw [saturated, Int.min_eq_right inside.2, Int.max_eq_right inside.1]

theorem saturated_mono (le : m ≤ n) : saturated m ≤ saturated n := by
  unfold saturated
  omega

theorem inRange_toInt (x : Int64) : InRange x.toInt :=
  ⟨Int64.le_iff_toInt_le.mp (Int64.minValue_le x), Int64.le_iff_toInt_le.mp (Int64.le_maxValue x)⟩

theorem Fits.of_append (fits : Fits (xs ++ [x])) : Fits xs :=
  fun front before => fits front (before.trans (List.prefix_append xs [x]))

theorem OneWay.of_append (oneWay : OneWay (xs ++ [x])) : OneWay xs :=
  oneWay.imp (fun up amount mem => up amount (List.mem_append_left _ mem))
    fun down amount mem => down amount (List.mem_append_left _ mem)

theorem OneWay.perm (oneWay : OneWay xs) (same : ys.Perm xs) : OneWay ys :=
  oneWay.imp (fun up amount mem => up amount (same.mem_iff.mp mem))
    fun down amount mem => down amount (same.mem_iff.mp mem)

/-- As long as every sum on the way fits, nothing is dropped. -/
theorem clampedSum_of_fits (fits : Fits xs) : clampedSum 0 xs = exactSum xs := by
  induction xs using List.reverseRecOn with
  | nil => rfl
  | append_singleton xs x ih =>
      rw [clampedSum_snoc, ih fits.of_append, ← exactSum_snoc]
      exact saturated_of_inRange (fits _ List.prefix_rfl)

-- What has been dropped on the way would have to be dropped at the end as well.
theorem saturated_add_of_oneWay (oneWay : OneWay (xs ++ [x])) :
    saturated (saturated (exactSum xs) + x.toInt) = saturated (exactSum xs + x.toInt) := by
  have low : Int64.minValue.toInt ≤ 0 := by decide
  have high : 0 ≤ Int64.maxValue.toInt := by decide
  have last : x ∈ xs ++ [x] := List.mem_append_right _ List.mem_cons_self
  have zero : (0 : Int64).toInt = 0 := by decide
  rcases oneWay with up | down
  · have sum : 0 ≤ exactSum xs := by
      refine List.sum_nonneg fun n mem => ?_
      rcases List.mem_map.mp mem with ⟨amount, before, rfl⟩
      exact zero ▸ Int64.le_iff_toInt_le.mp (up amount (List.mem_append_left _ before))
    have more : 0 ≤ x.toInt := zero ▸ Int64.le_iff_toInt_le.mp (up x last)
    unfold saturated
    omega
  · have sum : exactSum xs ≤ 0 := by
      rw [exactSum, ← nsmul_zero (xs.map Int64.toInt).length]
      refine List.sum_le_card_nsmul _ 0 fun n mem => ?_
      rcases List.mem_map.mp mem with ⟨amount, before, rfl⟩
      exact zero ▸ Int64.le_iff_toInt_le.mp (down amount (List.mem_append_left _ before))
    have less : x.toInt ≤ 0 := zero ▸ Int64.le_iff_toInt_le.mp (down x last)
    unfold saturated
    omega

/-- Amounts of the same sign come to their exact sum, of which everything outside of the range is
    dropped. -/
theorem clampedSum_of_oneWay (oneWay : OneWay xs) :
    clampedSum 0 xs = saturated (exactSum xs) := by
  induction xs using List.reverseRecOn with
  | nil => decide
  | append_singleton xs x ih =>
      rw [clampedSum_snoc, ih oneWay.of_append, saturated_add_of_oneWay oneWay, exactSum_snoc]

/-- Greater amounts come to no less. -/
theorem clampedSum_mono (le : m ≤ n) (greater : List.Forall₂ (· ≤ ·) xs ys) :
    clampedSum m xs ≤ clampedSum n ys := by
  induction greater generalizing m n with
  | nil => exact le
  | cons head _ ih =>
      exact ih (saturated_mono (Int.add_le_add le (Int64.le_iff_toInt_le.mp head)))

-- An amount moves a sum within the range in its own direction, or not at all.
theorem le_addClamped_iff (sum amount : Int64) :
    (0 ≤ amount → sum ≤ addClamped sum amount) ∧ (amount ≤ 0 → addClamped sum amount ≤ sum) := by
  have zero : (0 : Int64).toInt = 0 := by decide
  have inside := inRange_toInt sum
  rw [InRange] at inside
  simp only [Int64.le_iff_toInt_le, toInt_addClamped, zero, saturated]
  omega

end Sums

namespace Shard

variable {operations : List Operation} {name key : String} {sum : Int64}

-- Everything that arrives for a counter is an amount.
theorem amounts_eq_nil_iff :
    amounts name key operations = [] ↔ arrivals .counter name key operations = [] := by
  constructor
  · intro none
    by_contra some
    rcases List.exists_mem_of_ne_nil _ some with ⟨v, mem⟩
    have counter := kind_of_mem_arrivals mem
    cases v with
    | counter amount =>
        have there : amount ∈ amounts name key operations := List.mem_filterMap.mpr ⟨_, mem, rfl⟩
        rw [none] at there
        cases there
    | _ => cases counter
  · intro none
    rw [amounts, none, List.filterMap_nil]

/-- A counter is the sum of its amounts, from which everything outside of the range has been
    dropped after each addition. -/
theorem toInt_counter (stored : (ofOperations operations).total? .counter name key = some sum) :
    sum.toInt = clampedSum 0 (amounts name key operations) :=
  (aggregates_ofOperations operations).counter name key sum stored

theorem counts_counter (stored : (ofOperations operations).total? .counter name key = some sum) :
    Counts (amounts name key operations) sum where
  inRange := inRange_toInt sum
  exact fits := (toInt_counter stored).trans (clampedSum_of_fits fits)
  oneWay oneWay := (toInt_counter stored).trans (clampedSum_of_oneWay oneWay)

/-- What the sum of a counter says about the amounts that it has received.

    After any metrics and deletions a counter is there exactly if an amount was received for it
    since its name was last deleted. Its sum is in the 64-bit range, it is exact if no sum on the
    way leaves the range, and amounts of the same sign give their exact sum clamped to the range.
    A further amount moves it in its own direction or not at all. Another order of the same amounts
    gives the same sum if no sum on the way leaves the range in either order, or if the amounts
    have the same sign, and amounts that are greater one by one give no lesser sum. -/
theorem counter_trustworthy (operations : List Operation) (name key : String) :
    (((ofOperations operations).total? .counter name key).isSome ↔
      amounts name key operations ≠ []) ∧
    ∀ sum, (ofOperations operations).total? .counter name key = some sum →
      Counts (amounts name key operations) sum ∧
      (∀ amount tags, tags.text = key → ∃ next, ((ofOperations operations).receive
          ⟨name, tags, .counter amount⟩).total? .counter name key = some next ∧
        (0 ≤ amount → sum ≤ next) ∧ (amount ≤ 0 → next ≤ sum)) ∧
      ∀ others other, (ofOperations others).total? .counter name key = some other →
        ((amounts name key others).Perm (amounts name key operations) →
          (Fits (amounts name key operations) ∧ Fits (amounts name key others) ∨
            OneWay (amounts name key operations)) → other = sum) ∧
        (List.Forall₂ (· ≤ ·) (amounts name key operations) (amounts name key others) →
          sum ≤ other) := by
  refine ⟨?_, ?_⟩
  · rw [total?_ofOperations, ne_eq, amounts_eq_nil_iff]
    by_cases none : arrivals .counter name key operations = [] <;> simp [none]
  intro sum stored
  have counts := counts_counter stored
  refine ⟨counts, ?_, ?_⟩
  · rintro amount tags rfl
    have received :=
      total?_receive_self (ofOperations operations) ⟨name, tags, .counter amount⟩
    have before : ((ofOperations operations).total? .counter name tags.text).getD Total.start =
      sum := by rw [stored, Option.getD_some]
    refine ⟨addClamped sum amount, ?_, le_addClamped_iff sum amount⟩
    exact received.trans (congrArg (fun sum => some (addClamped sum amount)) before)
  intro others other stored'
  have counts' := counts_counter stored'
  refine ⟨fun same unharmed => Int64.toInt_inj.mp ?_, fun greater => ?_⟩
  · rcases unharmed with ⟨fits, fits'⟩ | oneWay
    · rw [counts.exact fits, counts'.exact fits', exactSum_perm same]
    · rw [counts.oneWay oneWay, counts'.oneWay (oneWay.perm same), exactSum_perm same]
  · rw [Int64.le_iff_toInt_le, toInt_counter stored, toInt_counter stored']
    exact clampedSum_mono (Int.le_refl 0) greater

/-- Amounts for one counter, one after the other. -/
def countUp (amounts : List Int64) : List Operation :=
  amounts.map fun amount => .receive ⟨"a", .empty, .counter amount⟩

/-- A sum that comes close to the end of the range and goes back, the same amounts in another order,
    and with an amount that is greater, so that the sum is clamped. -/
theorem countUp_trustworthy : ∃ sum other more,
    (ofOperations (countUp [9223372036854775800, -7, 5])).total? .counter "a" "" = some sum ∧
    (ofOperations (countUp [-7, 5, 9223372036854775800])).total? .counter "a" "" = some other ∧
    (ofOperations (countUp [9223372036854775800, 9, 5])).total? .counter "a" "" = some more ∧
    sum.toInt = 9223372036854775798 ∧ other = sum ∧ sum ≤ more ∧
    more.toInt = 9223372036854775807 := by
  have received : amounts "a" "" (countUp [9223372036854775800, -7, 5]) =
        [9223372036854775800, -7, 5] ∧
      amounts "a" "" (countUp [-7, 5, 9223372036854775800]) = [-7, 5, 9223372036854775800] ∧
      amounts "a" "" (countUp [9223372036854775800, 9, 5]) = [9223372036854775800, 9, 5] := by
    decide +kernel
  rcases received with ⟨first, second, third⟩
  have law := counter_trustworthy (countUp [9223372036854775800, -7, 5]) "a" ""
  have law' := counter_trustworthy (countUp [-7, 5, 9223372036854775800]) "a" ""
  have law'' := counter_trustworthy (countUp [9223372036854775800, 9, 5]) "a" ""
  rw [first] at law
  rw [second] at law'
  rw [third] at law''
  rcases Option.isSome_iff_exists.mp (law.1.mpr (by decide)) with ⟨sum, stored⟩
  rcases Option.isSome_iff_exists.mp (law'.1.mpr (by decide)) with ⟨other, stored'⟩
  rcases Option.isSome_iff_exists.mp (law''.1.mpr (by decide)) with ⟨more, stored''⟩
  rcases law.2 sum stored with ⟨counts, _, orders⟩
  refine ⟨sum, other, more, stored, stored', stored'', ?_, ?_, ?_, ?_⟩
  · rw [counts.exact (by decide)]
    decide
  · refine (orders _ other stored').1 ?_ (Or.inl ⟨by decide, ?_⟩)
    · rw [second]
      decide
    · rw [second]
      decide
  · refine (orders _ more stored'').2 ?_
    rw [third]
    decide
  · rw [(law''.2 more stored'').1.oneWay (by decide)]
    decide

end Shard

end ShardConsole
