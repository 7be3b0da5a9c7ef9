import ShardConsole.Json.Record
import ShardConsole.Proofs.Json.CanonicalTexts
import ShardConsole.Proofs.Text.Pieces

/-!
# Reading JSON Records

Which fields a record has.

A record is an object or an array. In an object only the names count: the order of the members does
not matter, and neither do members that are no fields. In an array only the places count. `Gives`
says this without a reader, and the reader of records finds just what is given.

## Main definitions

* `Gives`: The fields that a value gives as a record.

## Theorems

* `Value.fields?_eq_some_iff`: The reader of records finds what is given.
* `gives_zip`: A record with all its fields in declared order gives them.
-/

namespace ShardConsole

namespace Json

/-- The fields with the given names that a value gives as a record: as an object in which at most
    one value stands under each name, or as an array that may end early. -/
inductive Gives (names : List String) : List (Option Value) → Value → Prop
  | object {members : List (String × Value)} {fields : List (Option Value)}
      (found : List.Forall₂ (fun name field => under members name = field.toList) names fields) :
      Gives names fields (.ofMembers members)
  | array {items : List Value} {left : Nat} (fits : items.length + left = names.length) :
      Gives names (items.map some ++ List.replicate left none) (.array items)

section Fields

variable {names : List String} {name : String} {members : List (String × Value)} {v : Value}
  {fields : List (Option Value)}

theorem named?_eq_some_iff {given : List (Option String × Value)} : named? given = some members ↔
    given = members.map fun (name, v) => (some name, v) := by
  rw [named?, Text.mapM_eq_some_iff, ← List.forall₂_eq_eq_eq, List.forall₂_map_right_iff]
  refine iff_of_eq (congrArg (fun r => List.Forall₂ r given members) ?_)
  funext ⟨name, v⟩ ⟨name', v'⟩
  cases name <;> simp

theorem fieldOf?_eq_some_iff {field : Option Value} :
    fieldOf? members name = some field ↔ under members name = field.toList := by
  rw [fieldOf?]
  cases under members name with
  | nil => cases field <;> simp
  | cons v rest => cases rest <;> cases field <;> simp

theorem mapM_fieldOf?_eq_some_iff : names.mapM (fieldOf? members) = some fields ↔
    List.Forall₂ (fun name field => under members name = field.toList) names fields := by
  simp only [Text.mapM_eq_some_iff, fieldOf?_eq_some_iff]

/-- The reader of records finds what is given. -/
theorem Value.fields?_eq_some_iff : v.fields? names = some fields ↔ Gives names fields v := by
  constructor
  · intro found
    cases v with
    | object given =>
        rcases Option.bind_eq_some_iff.mp found with ⟨members, named, found⟩
        rw [named?_eq_some_iff.mp named]
        exact .object (mapM_fieldOf?_eq_some_iff.mp found)
    | array items =>
        rcases Option.ite_none_right_eq_some.mp found with ⟨fits, same⟩
        cases same
        exact .array (Nat.add_sub_cancel' fits)
    | null | bool | number | string => cases found
  · intro gives
    cases gives with
    | object found =>
        exact Option.bind_eq_some_iff.mpr
          ⟨_, named?_eq_some_iff.mpr rfl, mapM_fieldOf?_eq_some_iff.mpr found⟩
    | @array items left fits =>
        refine Option.ite_none_right_eq_some.mpr ⟨by omega, ?_⟩
        rw [← fits, Nat.add_sub_cancel_left]

theorem under_eq_nil (unknown : name ∉ members.map Prod.fst) : under members name = [] := by
  rw [under, List.filterMap_eq_nil_iff]
  intro member mem
  exact if_neg fun same => unknown (List.mem_map.mpr ⟨member, mem, same⟩)

theorem under_cons (member : String × Value) : under (member :: members) name =
    (if member.1 = name then [member.2] else []) ++ under members name := by
  rw [under, List.filterMap_cons]
  by_cases same : member.1 = name <;> simp [same, under]

theorem under_of_mem (distinct : (members.map Prod.fst).Nodup) (mem : (name, v) ∈ members) :
    under members name = [v] := by
  induction members with
  | nil => cases mem
  | cons member members ih =>
      rcases List.nodup_cons.mp distinct with ⟨unknown, distinct⟩
      rw [under_cons]
      rcases List.mem_cons.mp mem with rfl | mem
      · rw [if_pos rfl, under_eq_nil unknown, List.append_nil]
      · have other : member.1 ≠ name := fun same =>
          unknown (List.mem_map.mpr ⟨_, mem, same.symm⟩)
        rw [if_neg other, List.nil_append, ih distinct mem]

/-- A record with all its fields in declared order gives them. -/
theorem gives_zip (names : List String) (values : List Value) (distinct : names.Nodup)
    (all : names.length = values.length) :
    Gives names (values.map some) (.ofMembers (names.zip values)) := by
  refine .object (List.forall₂_map_right_iff.mpr (List.forall₂_iff_zip.mpr ⟨all, fun mem => ?_⟩))
  refine under_of_mem ?_ mem
  rwa [List.map_fst_zip all.le]

end Fields

end Json

end ShardConsole
