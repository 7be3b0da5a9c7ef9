import ShardConsole.Json.Value

/-!
# JSON Records

The two forms in which a record with named fields can be given: an object with the
fields in any order, or an array of the fields in their declared order.

In an object, members that are no fields are skipped and no field may be given
twice. An array may not be longer than the record. A field that is not given is
left open, and it is for the record to say what that means.

## Main definitions

* `member?`: The only value under a name.
* `Value.fields?`: The fields of a record.
-/

namespace ShardConsole

namespace Json

/-- The values that stand under a name. -/
def under (members : List (String × Value)) (name : String) : List Value :=
  members.filterMap fun (n, v) => if n = name then some v else none

/-- The field with a name: the only value under it, or open if there is none. Two
    values under it are an error. -/
def fieldOf? (members : List (String × Value)) (name : String) : Option (Option Value) :=
  match under members name with
  | [] => some none
  | [v] => some (some v)
  | _ => none

/-- Members whose names all stand for texts. -/
def named? (members : List (Option String × Value)) : Option (List (String × Value)) :=
  members.mapM fun (name, v) => name.map fun n => (n, v)

/-- The fields of a record with the given names, in that order. -/
def Value.fields? (names : List String) : Value → Option (List (Option Value))
  | .object members => (named? members).bind fun members => names.mapM (fieldOf? members)
  | .array items =>
    if items.length ≤ names.length then
      some (items.map some ++ List.replicate (names.length - items.length) none)
    else none
  | _ => none

end Json

end ShardConsole
