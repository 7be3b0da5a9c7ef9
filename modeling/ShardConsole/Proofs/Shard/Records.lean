import Std.Data.String.ToInt
import ShardConsole.Proofs.Shard.Entries
import ShardConsole.Proofs.Text.Pieces

/-!
# Records of Collections

What a listing shows, and what can be read back from it.

A listing adds to what is already written, and it adds one record for each entry, in the order of
the entries. A record is ended by a line feed. So a listing leaves no line open, and where the
listings of several shards stand one after the other, a line belongs to one record of one of them.

Nothing is escaped in a record, and still the records of counters can be told apart, since a line
can be read from its two ends. A sum has no equals sign, so the last one of a line is where the sum
begins. If names have no opening brace, the first one of what is left is where the tags begin, and
the tags go on to the closing brace at the end. What a name or the tags contain besides does not
matter, but for line feeds. Since a collection is determined by its entries, it is determined by
its listing.

## Main definitions

* `Entry.line`: The record of an entry without its line feed.
* `Entry.Plain`: An entry that can be read back.
* `Entry.ofLine?`: The counter that a line shows.
* `Collection.ofText`: The counters that a listing shows.
* `Collection.Faithful`: A listing shows the entries of the collection.
* `Collection.Apart`: Listings can be put one after the other.

## Theorems

* `Entry.ofLine?_line`: A plain counter is read back from its line.
* `Collection.faithful`: A listing shows the entries of the collection.
* `Collection.apart`: Listings can be put one after the other.
* `Collection.ofText_text`: Plain counters are read back from their listing.
* `Collection.listings_faithful`: Listings are faithful, can be put one after the other, and
  determine the collection if its entries are plain counters.
-/

namespace ShardConsole

namespace Entry

section Line

variable {V : Type} [Total V]

/-- The record of an entry without its line feed. -/
def line (e : Entry V) : List Char :=
  e.name.toList ++ (if e.tags = "" then [] else '\x7b' :: (e.tags.toList ++ ['\x7d'])) ++
    '=' :: (Total.text e.total).toList

theorem toList_record (e : Entry V) : e.record.toList = e.line ++ ['\n'] := by
  by_cases untagged : e.tags = ""
  · simp [record, line, untagged]
  · simp [record, line, untagged]

theorem finished_record (e : Entry V) : Text.Finished e.record.toList := by
  rw [toList_record]
  exact Text.finished_line e.line

end Line

/-- An entry whose name has no opening brace, with no line feed in its name or its tags. -/
def Plain {V : Type} (e : Entry V) : Prop :=
  '\x7b' ∉ e.name.toList ∧ '\n' ∉ e.name.toList ∧ '\n' ∉ e.tags.toList

instance {V : Type} (e : Entry V) : Decidable e.Plain :=
  inferInstanceAs (Decidable (_ ∧ _ ∧ _))

/-- The counter that a line shows. Behind the last equals sign stands the sum. Before it stand
    the name, which ends at the first opening brace, and the tags, which are followed by a closing
    brace. -/
def ofLine? (line : List Char) : Option (Entry Int64) :=
  let head := (line.rdropWhile (· ≠ '=')).dropLast
  (String.ofList (line.rtakeWhile (· ≠ '='))).toInt?.map fun sum =>
    ⟨String.ofList (head.takeWhile (· ≠ '\x7b')),
      String.ofList ((head.dropWhile (· ≠ '\x7b')).tail.dropLast), Int64.ofInt sum⟩

section Reading

variable {e : Entry Int64} {n : Int64} {c : Char}

-- A sum is written with digits, and with a sign if it is negative.
theorem of_mem_sum (mem : c ∈ (Total.text n).toList) : c = '-' ∨ c.isDigit = true := by
  have digit {m : Nat} (hc : c ∈ m.repr.toList) : c.isDigit = true := by
    rw [Nat.toList_repr] at hc
    exact Nat.isDigit_of_mem_toDigits (by omega) (by omega) hc
  have written : Total.text n = n.toInt.repr := rfl
  rw [written, Int.repr_eq_if] at mem
  by_cases nonneg : 0 ≤ n.toInt
  · rw [if_pos nonneg] at mem
    exact Or.inr (digit mem)
  · rw [if_neg nonneg, String.toList_append] at mem
    rcases List.mem_append.mp mem with sign | mem
    · exact Or.inl (List.mem_singleton.mp sign)
    · exact Or.inr (digit mem)

theorem not_mem_sum (sign : c ≠ '-') (digit : c.isDigit = false) :
    c ∉ (Total.text n).toList := by
  intro mem
  rcases of_mem_sum mem with same | same
  · exact sign same
  · rw [digit] at same
    cases same

theorem not_mem_line (plain : e.Plain) : '\n' ∉ e.line := by
  rcases plain with ⟨_, name, tags⟩
  have sum : '\n' ∉ (Total.text e.total).toList := not_mem_sum (by decide) (by decide)
  by_cases untagged : e.tags = ""
  · simp [line, untagged, name, sum]
  · simp [line, untagged, name, tags, sum]

/-- A plain counter is read back from its line. -/
theorem ofLine?_line (plain : e.Plain) : ofLine? e.line = some e := by
  have sum := Text.decide_ne_of_not_mem (not_mem_sum (n := e.total) (c := '=') (by decide) rfl)
  have name := Text.decide_ne_of_not_mem plain.1
  have written : String.ofList (Total.text e.total).toList = e.total.toInt.repr :=
    String.ofList_toList
  -- The line is cut at its last equals sign, and what is before it at its first brace.
  rw [ofLine?, line, Text.rdropWhile_append_cons sum (by decide),
    Text.rtakeWhile_append_cons sum (by decide), written, Int.toInt?_repr, Option.map_some,
    Int64.ofInt_toInt, List.dropLast_concat, List.takeWhile_append_of_pos name,
    List.dropWhile_append_of_pos name]
  by_cases untagged : e.tags = ""
  · simp only [if_pos untagged, List.takeWhile_nil, List.dropWhile_nil, List.tail_nil,
      List.dropLast_nil, List.append_nil, String.ofList_toList, String.ofList_nil]
    rw [← untagged]
  · simp [untagged]

end Reading

end Entry

namespace Collection

section Listings

variable {V : Type} [Total V]

/-- A listing shows the entries of the collection. -/
structure Faithful (c : Collection V) : Prop where
  /-- A listing adds a record for each entry to what is already written. -/
  adds : ∀ out, c.render out = out ++ String.join (c.entries.map Entry.record)
  /-- The entries are what the collection has under names and tag sets. -/
  shown : ∀ e, e ∈ c.entries ↔ c.total? e.name e.tags = some e.total
  /-- They come in strictly ascending order. -/
  ordered : c.entries.Pairwise Entry.Precedes
  /-- An entry without tags is shown with its name and its total. -/
  untagged : ∀ e ∈ c.entries, e.tags = "" → e.record = e.name ++ "=" ++ Total.text e.total ++ "\n"
  /-- An entry with tags has them in braces behind its name. -/
  tagged : ∀ e ∈ c.entries, e.tags ≠ "" →
    e.record = e.name ++ "\x7b" ++ e.tags ++ "\x7d" ++ "=" ++ Total.text e.total ++ "\n"
  /-- A listing leaves no line open. -/
  finished : Text.Finished c.text.toList

/-- Listings can be put one after the other. -/
structure Apart (parts : List (Collection V)) : Prop where
  /-- Together they are made up of the records of all entries. -/
  records : String.join (parts.map text) =
    String.join ((parts.flatMap entries).map Entry.record)
  /-- A line of them belongs to one record. -/
  lines : Text.lines (String.join (parts.map text)).toList =
    (parts.flatMap entries).flatMap fun e => Text.lines e.record.toList
  /-- They leave no line open, however many of them there are. -/
  finished : Text.Finished (String.join (parts.map text)).toList

theorem toList_text (c : Collection V) :
    c.text.toList = c.entries.flatMap fun e => e.record.toList := by
  rw [text_eq_join, String.toList_join, List.flatMap_map]

/-- A listing shows the entries of the collection. -/
theorem faithful (c : Collection V) : c.Faithful where
  adds := c.render_eq_append
  shown e := mem_entries_iff
  ordered := c.entries_ordered
  untagged e _ none := by
    rw [Entry.record, none]
    simp
  tagged e _ some := by
    rw [Entry.record]
    simp [some, String.append_assoc]
  finished := by
    rw [toList_text]
    exact Text.finished_flatMap fun e _ => e.finished_record

/-- Listings can be put one after the other. -/
theorem apart (parts : List (Collection V)) : Apart parts := by
  have records : String.join (parts.map text) =
      String.join ((parts.flatMap entries).map Entry.record) := by
    rw [List.map_flatMap, Shard.join_flatMap, List.map_congr_left fun c _ => c.text_eq_join]
  have written : (String.join (parts.map text)).toList =
      (parts.flatMap entries).flatMap fun e => e.record.toList := by
    rw [records, String.toList_join, List.flatMap_map]
  constructor
  · exact records
  · rw [written, Text.lines_flatMap fun e _ => e.finished_record]
  · rw [written]
    exact Text.finished_flatMap fun e _ => e.finished_record

end Listings

section Reading

variable {c d : Collection Int64}

/-- The counters that a listing shows. -/
def ofText (s : List Char) : List (Entry Int64) :=
  (Text.lines s).filterMap Entry.ofLine?

/-- Plain counters are read back from their listing. -/
theorem ofText_text (plain : ∀ e ∈ c.entries, e.Plain) : ofText c.text.toList = c.entries := by
  have lines : ∀ e ∈ c.entries, (Text.lines e.record.toList).filterMap Entry.ofLine? = [e] := by
    intro e he
    rw [e.toList_record, Text.lines_line (Entry.not_mem_line (plain e he)),
      List.filterMap_cons_some (Entry.ofLine?_line (plain e he)), List.filterMap_nil]
  rw [ofText, toList_text, Text.lines_flatMap fun e _ => e.finished_record, List.filterMap_flatMap,
    List.flatMap_congr lines, List.flatMap_singleton']

/-- A listing of plain counters determines the collection. -/
theorem eq_of_text (hc : c.Filled) (hd : d.Filled) (plain : ∀ e ∈ c.entries, e.Plain)
    (plain' : ∀ e ∈ d.entries, e.Plain) (same : c.text = d.text) : c = d := by
  have entries : c.entries = d.entries := by
    rw [← ofText_text plain, same, ofText_text plain']
  refine ext_total? hc hd fun name key => Option.ext fun total => ?_
  -- Both have an entry with this total, or neither has.
  rw [← mem_entries_iff (c := c) (e := ⟨name, key, total⟩), entries, mem_entries_iff]

end Reading

/-- A listing shows exactly the entries of its collection, in order and one record each. Listings
    of several shards can be put one after the other in any order. A listing of plain counters
    determines the collection. -/
theorem listings_faithful :
    (∀ {V : Type} [Total V] (c : Collection V), c.Faithful) ∧
      (∀ {V : Type} [Total V] (parts : List (Collection V)), Apart parts) ∧
        ∀ c d : Collection Int64, c.Built → d.Built → (∀ e ∈ c.entries, e.Plain) →
          (∀ e ∈ d.entries, e.Plain) → c.text = d.text → c = d := by
  refine ⟨faithful, apart, ?_⟩
  intro c d hc hd plain plain' same
  exact eq_of_text hc.filled hd.filled plain plain' same

/-- Counters whose names and tags look like parts of a record. -/
def lookalikes : Collection Int64 :=
  ((empty.update "a=1\x7d" .empty (· + 3)).update "b" .empty (· - 2)).update "a=1\x7d"
    (.ofPairs [("\x7b", "=,\x7d"), ("c", "a=1")]) (· - 5)

/-- The same counters, received in another order and with one that is deleted again. -/
def lookalikesReceivedOtherwise : Collection Int64 :=
  ((((empty.update "b" .empty (· - 2)).update "=" .empty (· + 1)).update "a=1\x7d"
    (.ofPairs [("c", "a=1"), ("\x7b", "=,\x7d")]) (· - 5)).update "a=1\x7d" .empty (· + 3)).delete
      "="

theorem lookalikes_determined :
    lookalikes.text = "a=1\x7d=3\na=1\x7d\x7bc:a=1,\x7b:=,\x7d\x7d=-5\nb=-2\n" ∧
      lookalikes = lookalikesReceivedOtherwise := by
  have built : lookalikes.Built := ((Built.empty.update _ _ _).update _ _ _).update _ _ _
  have built' : lookalikesReceivedOtherwise.Built :=
    ((((Built.empty.update _ _ _).update _ _ _).update _ _ _).update _ _ _).delete _
  have text : lookalikes.text =
      "a=1\x7d=3\na=1\x7d\x7bc:a=1,\x7b:=,\x7d\x7d=-5\nb=-2\n" := by
    decide +kernel
  have text' : lookalikesReceivedOtherwise.text = lookalikes.text := by
    decide +kernel
  exact ⟨text, listings_faithful.2.2 _ _ built built' (by decide +kernel) (by decide +kernel)
    text'.symm⟩

end Collection

end ShardConsole
