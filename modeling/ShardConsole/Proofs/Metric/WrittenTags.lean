import ShardConsole.Metric.Tags
import ShardConsole.Proofs.Text.Pieces

/-!
# Written Tags

What the written form of tags keeps, and which tags can be read back from it.

Tags are written as they are, with a colon between a key and its value and a comma between two
tags, and nothing in them is marked or replaced. So a key with a colon or a comma and a value with
a comma make a text that can be taken for other tags. Where there are none of these, the text can
be cut at its commas, and each piece at its first colon, to find the tags again; a value may have
colons. Reading does the same, but it also trims both sides and leaves out a tag with an empty one.
So the tags that are read back as they were are those without such characters and without empty or
untrimmed texts, and these are also all that reading can ever give.

## Main definitions

* `Tags.pieces`, `Tags.accepted`: The pieces of a text between commas, and the tags they stand for.
* `Tags.Separable`: The tags can be told apart in their written form.
* `Tags.Readable`: The tags can be read back from their written form.

## Theorems

* `Tags.ofPairs_toList`, `Tags.get?_ofPairs_iff`: Tags and their pairs.
* `Tags.text_injective`: Tags that can be told apart are not written alike.
* `Tags.accepted_text`: The written form stands for its tags.
* `Tags.readable_parse`: What is read from a text can be read back.
* `Tags.text_round_trip`: Which tags are read back, and what does not matter to reading.
-/

namespace ShardConsole

namespace Tags

/-- The pieces of a text between commas. -/
def pieces (s : String) : List (List Char) :=
  s.toList.splitOnP (· = ',')

/-- The tags that the pieces of a text stand for, in the order of the pieces. -/
def accepted (s : String) : List (String × String) :=
  (pieces s).filterMap pair?

/-- A piece cut at its first colon. -/
def cut? (piece : List Char) : Option (String × String) :=
  match piece.dropWhile (· ≠ ':') with
  | [] => none
  | _ :: value => some (String.ofList (piece.takeWhile (· ≠ ':')), String.ofList value)

/-- No key has a colon or a comma, and no value has a comma. -/
def Separable (t : Tags) : Prop :=
  ∀ pair ∈ t.toList, ':' ∉ pair.1.toList ∧ ',' ∉ pair.1.toList ∧ ',' ∉ pair.2.toList

/-- A text that is neither empty nor begins or ends with a blank. -/
def Solid (s : String) : Prop :=
  s ≠ "" ∧ Text.Trimmed s.toList

/-- No key has a colon or a comma, no value has a comma, and all of them are solid. -/
def Readable (t : Tags) : Prop :=
  t.Separable ∧ ∀ pair ∈ t.toList, Solid pair.1 ∧ Solid pair.2

section Pairs

variable {t : Tags} {key value : String} {pairs : List (String × String)}

theorem mem_toList_iff : (key, value) ∈ t.toList ↔ t.get? key = some value :=
  Std.ExtTreeMap.mem_toList_iff_getElem?_eq_some

/-- Tags with the same values under all keys are equal. -/
theorem ext_get? {t t' : Tags} (same : ∀ key, t.get? key = t'.get? key) : t = t' := by
  cases t
  cases t'
  exact congrArg mk (Std.ExtTreeMap.ext_getElem? same)

theorem ofPairs_snoc (pairs : List (String × String)) (pair : String × String) :
    ofPairs (pairs ++ [pair]) = ⟨(ofPairs pairs).entries.insert pair.1 pair.2⟩ := by
  rw [ofPairs, List.foldl_append]
  rfl

-- The value under a key after one more pair.
theorem get?_ofPairs_snoc (pairs : List (String × String)) (pair : String × String) :
    (ofPairs (pairs ++ [pair])).get? key =
      if pair.1 = key then some pair.2 else (ofPairs pairs).get? key := by
  rw [ofPairs_snoc, get?]
  refine Std.ExtTreeMap.getElem?_insert.trans ?_
  by_cases same : pair.1 = key
  · rw [if_pos (Std.LawfulEqCmp.compare_eq_iff_eq.mpr same), if_pos same]
  · rw [if_neg fun eq => same (Std.LawfulEqCmp.eq_of_compare eq), if_neg same, get?]

/-- Of two pairs with one key the later one counts. -/
theorem get?_ofPairs_iff : (ofPairs pairs).get? key = some value ↔
    ∃ earlier later, pairs = earlier ++ (key, value) :: later ∧ ∀ v, (key, v) ∉ later := by
  induction pairs using List.reverseRecOn with
  | nil =>
      have none : (ofPairs []).get? key = none := Std.ExtTreeMap.getElem?_empty
      simp [none]
  | append_singleton rest pair ih =>
      rw [get?_ofPairs_snoc]
      by_cases same : pair.1 = key
      · rw [if_pos same, Option.some.injEq]
        constructor
        · rintro rfl
          exact ⟨rest, [], by rw [← same], fun v => List.not_mem_nil⟩
        · rintro ⟨earlier, later, split, none⟩
          rcases List.eq_nil_or_concat' later with rfl | ⟨later, last, rfl⟩
          · have eq := (List.append_inj' split rfl).2
            rw [List.singleton_inj.mp eq]
          · -- A pair that comes later than the last one with its key would be this one.
            rw [← List.cons_append, ← List.append_assoc] at split
            have eq := List.singleton_inj.mp (List.append_inj' split rfl).2
            exact absurd (by simp [← eq, ← same]) (none pair.2)
      · rw [if_neg same, ih]
        constructor
        · rintro ⟨earlier, later, rfl, none⟩
          refine ⟨earlier, later ++ [pair], by simp, fun v mem => ?_⟩
          rcases List.mem_append.mp mem with mem | mem
          · exact none v mem
          · exact same (congrArg Prod.fst (List.mem_singleton.mp mem)).symm
        · rintro ⟨earlier, later, split, none⟩
          rcases List.eq_nil_or_concat' later with rfl | ⟨later, last, rfl⟩
          · have eq := List.singleton_inj.mp (List.append_inj' split rfl).2
            exact absurd (congrArg Prod.fst eq) same
          · rw [← List.cons_append, ← List.append_assoc] at split
            exact ⟨earlier, later, (List.append_inj' split rfl).1,
              fun v mem => none v (List.mem_append_left _ mem)⟩

theorem mem_of_get?_ofPairs (h : (ofPairs pairs).get? key = some value) : (key, value) ∈ pairs := by
  rcases get?_ofPairs_iff.mp h with ⟨earlier, later, rfl, _⟩
  simp

/-- Among pairs with distinct keys all of them count. -/
theorem get?_ofPairs_iff_mem (distinct : (pairs.map Prod.fst).Nodup) :
    (ofPairs pairs).get? key = some value ↔ (key, value) ∈ pairs := by
  refine ⟨mem_of_get?_ofPairs, fun mem => ?_⟩
  rcases List.append_of_mem mem with ⟨earlier, later, rfl⟩
  refine get?_ofPairs_iff.mpr ⟨earlier, later, rfl, fun v again => ?_⟩
  rw [List.map_append, List.map_cons, List.nodup_append] at distinct
  exact (List.nodup_cons.mp distinct.2.1).1 (List.mem_map.mpr ⟨(key, v), again, rfl⟩)

theorem nodup_keys (t : Tags) : (t.toList.map Prod.fst).Nodup := by
  rw [toList, Std.ExtTreeMap.map_fst_toList_eq_keys]
  exact Std.ExtTreeMap.nodup_keys

/-- Tags are what their pairs make. -/
theorem ofPairs_toList (t : Tags) : ofPairs t.toList = t := by
  refine ext_get? fun key => Option.ext fun value => ?_
  rw [get?_ofPairs_iff_mem t.nodup_keys, mem_toList_iff]

/-- The order of pairs with distinct keys does not matter. -/
theorem ofPairs_of_perm {pairs' : List (String × String)} (perm : pairs.Perm pairs')
    (distinct : (pairs.map Prod.fst).Nodup) : ofPairs pairs = ofPairs pairs' := by
  have distinct' : (pairs'.map Prod.fst).Nodup := ((perm.map Prod.fst).nodup_iff).mp distinct
  refine ext_get? fun key => Option.ext fun value => ?_
  rw [get?_ofPairs_iff_mem distinct, get?_ofPairs_iff_mem distinct', perm.mem_iff]

end Pairs

section Writing

variable {t : Tags} {pair : String × String} {piece : List Char}

theorem toList_pairText (pair : String × String) :
    (pairText pair).toList = pair.1.toList ++ ':' :: pair.2.toList := by
  simp [pairText]

-- A written tag is cut at its first colon, which is the one behind its key.
theorem takeWhile_pairText (plain : ':' ∉ pair.1.toList) :
    (pairText pair).toList.takeWhile (· ≠ ':') = pair.1.toList := by
  rw [toList_pairText, List.takeWhile_append_of_pos (Text.decide_ne_of_not_mem plain),
    List.takeWhile_cons_of_neg (by simp), List.append_nil]

theorem dropWhile_pairText (plain : ':' ∉ pair.1.toList) :
    (pairText pair).toList.dropWhile (· ≠ ':') = ':' :: pair.2.toList := by
  rw [toList_pairText, List.dropWhile_append_of_pos (Text.decide_ne_of_not_mem plain),
    List.dropWhile_cons_of_neg (by simp)]

theorem cut?_pairText (plain : ':' ∉ pair.1.toList) : cut? (pairText pair).toList = some pair := by
  rw [cut?, dropWhile_pairText plain, takeWhile_pairText plain]
  simp only [String.ofList_toList]

-- The text between commas that tags without commas are written as.
theorem pieces_text (separable : t.Separable) (some : t.toList ≠ []) :
    pieces t.text = t.toList.map fun pair => (pairText pair).toList := by
  have whole : t.text.toList =
      [','].intercalate (t.toList.map fun pair => (pairText pair).toList) := by
    rw [text, String.toList_intercalate, List.map_map]
    rfl
  rw [pieces, whole]
  refine Text.splitOnP_intercalate ?_ (by simpa using some)
  intro piece mem
  rcases List.mem_map.mp mem with ⟨pair, inside, rfl⟩
  rcases separable pair inside with ⟨_, key, value⟩
  simp [toList_pairText, key, value]

/-- Whatever finds each tag in what is written for it finds all tags in the written form. -/
theorem filterMap_pieces_text {find? : List Char → Option (String × String)}
    (separable : t.Separable) (nothing : find? [] = none)
    (finds : ∀ pair ∈ t.toList, find? (pairText pair).toList = some pair) :
    (pieces t.text).filterMap find? = t.toList := by
  by_cases none : t.toList = []
  · rw [text, none, List.map_nil, String.intercalate_nil, pieces, String.toList_empty,
      List.splitOnP_nil, List.filterMap_cons_none nothing, List.filterMap_nil]
  · rw [pieces_text separable none, List.filterMap_map]
    refine (List.filterMap_congr finds).trans ?_
    exact List.filterMap_some

/-- Tags that can be told apart are not written alike. -/
theorem text_injective {t t' : Tags} (separable : t.Separable) (separable' : t'.Separable)
    (alike : t.text = t'.text) : t = t' := by
  have found {t : Tags} (separable : t.Separable) : (pieces t.text).filterMap cut? = t.toList :=
    filterMap_pieces_text separable rfl fun pair mem => cut?_pairText (separable pair mem).1
  rw [← ofPairs_toList t, ← found separable, alike, found separable', ofPairs_toList]

end Writing

section Reading

variable {t : Tags} {pair : String × String} {piece : List Char} {s s' : String}

theorem solid_iff : Solid (String.ofList piece) ↔ piece ≠ [] ∧ Text.Trimmed piece := by
  rw [Solid, String.toList_ofList, Ne, String.ofList_eq_empty_iff]

/-- A tag that is solid is read as it is written. -/
theorem pair?_pairText (plain : ':' ∉ pair.1.toList) (key : Solid pair.1) (value : Solid pair.2) :
    pair? (pairText pair).toList = some pair := by
  have keySome : pair.1.toList ≠ [] := fun none => key.1 (String.toList_eq_nil_iff.mp none)
  have valueSome : pair.2.toList ≠ [] := fun none => value.1 (String.toList_eq_nil_iff.mp none)
  rw [pair?, dropWhile_pairText plain, takeWhile_pairText plain]
  simp only [Text.trim_of_trimmed key.2, Text.trim_of_trimmed value.2]
  rw [if_neg fun empty => empty.elim keySome valueSome, String.ofList_toList, String.ofList_toList]

/-- The tag of a piece without commas is solid, and its key has no colon. -/
theorem of_pair? (plain : ',' ∉ piece) (h : pair? piece = some pair) :
    (':' ∉ pair.1.toList ∧ ',' ∉ pair.1.toList ∧ ',' ∉ pair.2.toList) ∧
      Solid pair.1 ∧ Solid pair.2 := by
  rw [pair?] at h
  split at h
  · cases h
  · rename_i colon value cut
    have before (c : Char) (mem : c ∈ piece.takeWhile (· ≠ ':')) : c ≠ ':' ∧ c ∈ piece :=
      ⟨by simpa using List.mem_takeWhile_imp mem, List.takeWhile_subset _ mem⟩
    have behind (c : Char) (mem : c ∈ value) : c ∈ piece := by
      refine List.dropWhile_subset (· ≠ ':') ?_
      rw [cut]
      exact List.mem_cons_of_mem _ mem
    simp only at h
    split at h
    · cases h
    · rename_i some
      rcases not_or.mp some with ⟨keySome, valueSome⟩
      cases h
      simp only [String.toList_ofList]
      refine ⟨⟨fun mem => ?_, fun mem => ?_, fun mem => ?_⟩,
        solid_iff.mpr ⟨keySome, Text.trimmed_trim _⟩,
        solid_iff.mpr ⟨valueSome, Text.trimmed_trim _⟩⟩
      · exact (before ':' (Text.mem_of_mem_trim mem)).1 rfl
      · exact plain (before ',' (Text.mem_of_mem_trim mem)).2
      · exact plain (behind ',' (Text.mem_of_mem_trim mem))

/-- The written form stands for its tags. -/
theorem accepted_text (readable : t.Readable) : accepted t.text = t.toList := by
  refine filterMap_pieces_text readable.1 rfl fun pair mem => ?_
  rcases readable.2 pair mem with ⟨key, value⟩
  exact pair?_pairText (readable.1 pair mem).1 key value

theorem parse_eq (s : String) : parse s = ofPairs (accepted s) := rfl

/-- What is read from a text can be read back. -/
theorem readable_parse (s : String) : (parse s).Readable := by
  have each (pair : String × String) (mem : pair ∈ (parse s).toList) :
      (':' ∉ pair.1.toList ∧ ',' ∉ pair.1.toList ∧ ',' ∉ pair.2.toList) ∧
        Solid pair.1 ∧ Solid pair.2 := by
    have stands := mem_of_get?_ofPairs (mem_toList_iff.mp mem)
    rcases List.mem_filterMap.mp stands with ⟨piece, cut, h⟩
    have plain : ',' ∉ piece := fun comma => by
      simpa using Text.eq_false_of_mem_splitOnP cut ',' comma
    exact of_pair? plain h
  exact ⟨fun pair mem => (each pair mem).1, fun pair mem => (each pair mem).2⟩

/-- Tags that can be read back are. -/
theorem parse_text (readable : t.Readable) : parse t.text = t := by
  rw [parse_eq, accepted_text readable, ofPairs_toList]

/-- Writing tags and reading them back.

    Tags are read back as they were exactly if no key has a colon or a comma, no value has a comma,
    and no key and no value is empty or begins or ends with a blank; and these are the tags that
    reading can give at all. So what has been read is read back, and two texts that are read as
    tags with one written form are read alike. The order of the pieces between the commas of a text
    does not matter as long as the keys of the tags that they stand for are distinct. Of tags with
    one key the last one is read. -/
theorem text_round_trip :
    (∀ t : Tags, parse t.text = t ↔ t.Readable) ∧
    (∀ t : Tags, t.Readable ↔ ∃ s, parse s = t) ∧
    (∀ s, parse (parse s).text = parse s) ∧
    (∀ s s', (parse s).text = (parse s').text → parse s = parse s') ∧
    (∀ s s', (pieces s).Perm (pieces s') → ((accepted s).map Prod.fst).Nodup →
      parse s' = parse s) ∧
    ∀ s key value, (parse s).get? key = some value ↔
      ∃ earlier later, accepted s = earlier ++ (key, value) :: later ∧ ∀ v, (key, v) ∉ later := by
  refine ⟨fun t => ⟨fun back => back ▸ readable_parse t.text, parse_text⟩,
    fun t => ⟨fun readable => ⟨t.text, parse_text readable⟩, ?_⟩,
    fun s => parse_text (readable_parse s), ?_, ?_, fun s key value => get?_ofPairs_iff⟩
  · rintro ⟨s, rfl⟩
    exact readable_parse s
  · intro s s' alike
    rw [← parse_text (readable_parse s), alike, parse_text (readable_parse s')]
  · intro s s' perm distinct
    exact (ofPairs_of_perm (perm.filterMap pair?) distinct).symm

/-- Pieces in another order, one of which stands for no tag, and what is written for them. -/
theorem untidyPieces_round_trip :
    parse "env:prod,x:, host : web:01 " = parse " host : web:01 ,x:,env:prod" ∧
      parse "env:prod,host:web:01" = parse " host : web:01 ,x:,env:prod" := by
  rcases text_round_trip with ⟨_, _, again, _, order, _⟩
  have written : (parse " host : web:01 ,x:,env:prod").text = "env:prod,host:web:01" := by
    decide +kernel
  refine ⟨order _ _ (by decide +kernel) (by decide +kernel), ?_⟩
  rw [← again " host : web:01 ,x:,env:prod", written]

end Reading

end Tags

end ShardConsole
