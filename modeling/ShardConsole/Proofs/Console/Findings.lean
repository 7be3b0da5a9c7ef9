import ShardConsole.Proofs.Console.Dialogue

/-!
# Streams in Pieces

What is found in a stream does not depend on how its bytes arrive.

A piece may end anywhere: within a line, between a carriage return and the newline behind it, or
in the middle of what makes a line too long. `Framer.findings` is what a framer finds when it
gets one piece after the other, searching what it has before it takes the next piece.
`findingsOf` is what there is to find in the lines of the whole stream. That both are the same
is one induction along the framer, with `finds_next` at each of its steps; the place from which
the search goes on never comes in.

A session takes pieces of any size whenever it waits and finds no line. It finds the same, up to
where it has got.

## Main definitions

* `Framer.Finding`: What is found next in a stream.
* `Framer.findingsOf`: What there is to find in the lines of a stream.
* `Framer.findings`: What a framer finds that gets a stream in pieces.
* `Session.found`: What a session has found.
* `Session.Finds`: What a session has found, and how it has ended if that was the last of it.

## Theorems

* `Framer.findings_eq`: A framer finds what there is to find in the lines of the stream.
* `Session.Run.finds`: What a session has found are its lines, and then what ends its input.
* `Session.found_regardless_of_pieces`: Nothing depends on the pieces.
-/

namespace ShardConsole

namespace Framer

/-- What is found next in a stream. -/
inductive Finding
  | line (bytes : List UInt8)
  | overlong
  | endOfInput
deriving DecidableEq

/-- What there is to find in a stream with the given lines, one after the other. A line that is
    too long is the last that is found, and the end of the input comes after all lines. -/
def findingsOf (maxLength : Nat) : List (List UInt8) → List Finding
  | [] => [.endOfInput]
  | line :: lines =>
    if maxLength < line.length then [.overlong] else .line line :: findingsOf maxLength lines

/-- What a framer finds, one after the other, that gets the given pieces and nothing after them.
    It searches what it has before it takes the next piece. -/
def findings (f : Framer) : List (List UInt8) → List Finding
  | [] =>
    match _ : f.finish with
    | .line bytes rest => .line bytes :: rest.findings []
    | .overlong => [.overlong]
    | .exhausted | .unfinished _ => [.endOfInput]
  | piece :: later =>
    match _ : f.next with
    | .line bytes rest => .line bytes :: rest.findings (piece :: later)
    | .overlong => [.overlong]
    | .unfinished searched => (searched.add piece).findings later
    | .exhausted => [.endOfInput]
termination_by pieces => (pieces.length, f.buffer.length)
decreasing_by
  · exact .right _ (length_of_finish ‹_›)
  · exact .right _ (length_of_next ‹_›)
  · exact .left _ _ (Nat.lt_succ_self _)

section Streams

variable {f : Framer} {maxLength : Nat} {line bytes rest : List UInt8}
  {lines : List (List UInt8)}

theorem findingsOf_line (plain : newline ∉ line) (fits : line.length ≤ maxLength) :
    findingsOf maxLength (linesOf (line ++ newline :: rest)) =
      .line line :: findingsOf maxLength (linesOf rest) := by
  rw [linesOf_line plain, findingsOf, if_neg (Nat.not_lt.mpr fits)]

theorem findingsOf_last (plain : newline ∉ line) (fits : line.length ≤ maxLength)
    (some : line ≠ []) : findingsOf maxLength (linesOf line) = [.line line, .endOfInput] := by
  rw [linesOf_rest plain some, findingsOf, if_neg (Nat.not_lt.mpr fits), findingsOf]

-- Too many bytes without a newline are too many in the stream, whatever comes behind them.
theorem findingsOf_overlong (plain : newline ∉ bytes.take (maxLength + 1))
    (exceeds : maxLength < bytes.length) :
    findingsOf maxLength (linesOf (bytes ++ rest)) = [.overlong] := by
  have length : (bytes.take (maxLength + 1)).length = maxLength + 1 :=
    List.length_take_of_le exceeds
  have some : bytes.take (maxLength + 1) ≠ [] := by
    intro none
    rw [none, List.length_nil] at length
    omega
  rcases @linesOf_front _ (bytes.drop (maxLength + 1) ++ rest) plain some with ⟨line, lines, same⟩
  rw [← List.append_assoc, List.take_append_drop] at same
  rw [same, findingsOf, if_pos]
  rw [List.length_append, length]
  omega

-- Lines that are not too long are found one after the other.
theorem findingsOf_append (fits : ∀ line ∈ lines, line.length ≤ maxLength)
    (more : List (List UInt8)) : findingsOf maxLength (lines ++ more) =
      lines.map .line ++ findingsOf maxLength more := by
  induction lines with
  | nil => rfl
  | cons line lines ih =>
      have first := fits line List.mem_cons_self
      rw [List.cons_append, findingsOf, if_neg (Nat.not_lt.mpr first),
        ih fun other mem => fits other (List.mem_cons_of_mem line mem)]
      rfl

/-- A framer that gets a stream in pieces finds what there is to find in the lines of the whole
    stream. -/
theorem findings_eq (searched : f.Searched) (pieces : List (List UInt8)) :
    f.findings pieces = findingsOf f.maxLength (linesOf (f.buffer ++ pieces.flatten)) := by
  fun_induction findings f pieces with
  | case1 f bytes rest found ih =>
      have finds := finds_finish searched
      rw [found] at finds
      rw [List.flatten_nil, List.append_nil]
      cases finds with
      | line plain fits cut =>
          rw [ih List.not_mem_nil, cut, findingsOf_line plain fits, List.flatten_nil,
            List.append_nil]
      | last _ plain fits some =>
          rw [ih List.not_mem_nil, findingsOf_last plain fits some, List.flatten_nil,
            List.append_nil, linesOf_nil, findingsOf]
  | case2 f found =>
      have finds := finds_finish searched
      rw [found] at finds
      cases finds with
      | overlong plain exceeds => rw [findingsOf_overlong plain exceeds]
  | case3 f found =>
      have finds := finds_finish searched
      rw [found] at finds
      cases finds with
      | exhausted _ none => rw [none, List.flatten_nil, List.append_nil, linesOf_nil, findingsOf]
  | case4 f other found => exact absurd found (f.finish_ne_unfinished other)
  | case5 f piece later bytes rest found ih =>
      have finds := finds_next searched
      rw [found] at finds
      cases finds with
      | line plain fits cut =>
          rw [ih List.not_mem_nil, cut, List.append_assoc, List.cons_append,
            findingsOf_line plain fits]
      | last ended => cases ended
  | case6 f piece later found =>
      have finds := finds_next searched
      rw [found] at finds
      cases finds with
      | overlong plain exceeds => rw [findingsOf_overlong plain exceeds]
  | case7 f piece later next found ih =>
      have finds := finds_next searched
      rw [found] at finds
      cases finds with
      | unfinished _ plain =>
          -- All that has been searched is free of newlines, and the piece comes behind it.
          have still : (Framer.add { f with scanned := f.buffer.length } piece).Searched := by
            rw [Searched, add, List.take_left]
            exact plain
          rw [ih still, List.flatten_cons, ← List.append_assoc]
          rfl
  | case8 f piece later found =>
      have finds := finds_next searched
      rw [found] at finds
      cases finds with
      | exhausted ended => cases ended

end Streams

end Framer

namespace Session

open Framer (Finding linesOf findingsOf)

/-- What is found, without what is left. -/
def Arrival.finding : Arrival → Finding
  | .line bytes _ => .line bytes
  | .overlong => .overlong
  | .endOfInput => .endOfInput

/-- What a session finds at a moment. -/
def foundAt (m : Moment) : List Finding :=
  match m.action with
  | .step _ .take => (m.before.arrival?.map Arrival.finding).toList
  | _ => []

/-- What a session has found, one after the other. -/
def found (h : List Moment) : List Finding :=
  h.flatMap foundAt

@[simp] theorem found_snoc (h : List Moment) (m : Moment) :
    found (h ++ [m]) = found h ++ foundAt m := by
  simp only [found, List.flatMap_append, List.flatMap_singleton]

/-- What a session has found are the lines that it has taken, and then what ends its input, with
    which it has ended itself. -/
inductive Finds (h : List Moment) (s : Session) : Prop
  | lines (same : found h = (taken h).map .line)
  | overlong (stage : s.stage = .ended (.error .lineTooLong))
      (same : found h = (taken h).map .line ++ [.overlong])
      (whole : ∀ later, (s.inputEnded = true → later = []) →
        findingsOf s.framer.maxLength (linesOf (received h ++ later)) = found h)
  | endOfInput (stage : s.stage = .ended (.ok ())) (ended : s.inputEnded = true)
      (same : found h = (taken h).map .line ++ [.endOfInput])
      (whole : findingsOf s.framer.maxLength (linesOf (received h)) = found h)

section Finding

variable {s s' : Session} {e : Event} {h : List Moment}

theorem foundAt_take {now : Nat} {arrival : Arrival} (arrived : s.arrival? = some arrival) :
    foundAt ⟨s, .step now .take⟩ = [arrival.finding] := by
  simp only [foundAt, arrived, Option.map_some, Option.toList_some]

-- What is left to be found when the session finds that a line is too long.
theorem Framed.findings_of_overlong (framed : Framed h s) (arrived : s.arrival? = some .overlong)
    (later : List UInt8) (none : s.inputEnded = true → later = []) :
    findingsOf s.framer.maxLength (linesOf (received h ++ later)) =
      (taken h).map .line ++ [.overlong] := by
  rcases finds_arrival framed.searched with ⟨progress, finds, same⟩
  rw [arrived] at same
  cases finds with
  | overlong plain exceeds =>
      rw [framed.cut later none, Framer.findingsOf_append framed.fits,
        Framer.findingsOf_overlong plain exceeds]
  | line | unfinished | last | exhausted => cases same

-- What happens to a session that is over leaves everything as it was found.
theorem Finds.of_isOver (finds : Finds h s) (change : Change s e s') (past : s.isOver = true) :
    Finds (h ++ [⟨s, e⟩]) s' := by
  have still := (change.stays_of_isOver past).1
  have quiet : sentAt ⟨s, e⟩ = [] ∧ takenAt ⟨s, e⟩ = [] ∧ foundAt ⟨s, e⟩ = [] ∧
      s'.framer = s.framer ∧ (s.inputEnded = true → s'.inputEnded = true) := by
    rcases change.outside_of_isOver past with
      ⟨bytes, rfl, accepted, rfl⟩ | ⟨rfl, rfl⟩ | ⟨_, rfl, rfl⟩ | ⟨rfl, rfl⟩ | ⟨rfl, rfl⟩
    · rw [accepts, past] at accepted
      have none : bytes = [] := by simpa using (Bool.and_eq_true_iff.mp accepted).2
      exact ⟨none, rfl, rfl, rfl, id⟩
    · exact ⟨rfl, rfl, rfl, rfl, fun _ => rfl⟩
    · exact ⟨rfl, rfl, rfl, rfl, id⟩
    · exact ⟨rfl, rfl, rfl, rfl, fun _ => rfl⟩
    · exact ⟨rfl, rfl, rfl, rfl, id⟩
  rcases quiet with ⟨sent, line, none, framer, ended⟩
  have same : found (h ++ [⟨s, e⟩]) = found h := by rw [found_snoc, none, List.append_nil]
  have lines : taken (h ++ [⟨s, e⟩]) = taken h := by rw [taken_snoc, line, List.append_nil]
  have bytes : received (h ++ [⟨s, e⟩]) = received h := by
    rw [received_snoc, sent, List.append_nil]
  cases finds with
  | lines before => exact .lines (by rw [same, lines, before])
  | overlong stage before whole =>
      refine .overlong (still.trans stage) (by rw [same, lines, before]) fun later none => ?_
      rw [framer, bytes, same]
      exact whole later fun was => none (ended was)
  | endOfInput stage was before whole =>
      refine .endOfInput (still.trans stage) (ended was) (by rw [same, lines, before]) ?_
      rw [framer, bytes, same]
      exact whole

theorem Change.finds (change : Change s e s') (framed : Framed h s) (finds : Finds h s) :
    Finds (h ++ [⟨s, e⟩]) s' := by
  by_cases past : s.isOver = true
  · exact finds.of_isOver change past
  have before : found h = (taken h).map .line := by
    cases finds with
    | lines before => exact before
    | overlong stage | endOfInput stage => simp [isOver, stage] at past
  -- What the session finds that does not end it is a line, and it takes the line.
  have onward (lines : List (List UInt8)) (takes : takenAt ⟨s, e⟩ = lines)
      (gives : foundAt ⟨s, e⟩ = lines.map .line) : Finds (h ++ [⟨s, e⟩]) s' :=
    .lines (by rw [found_snoc, taken_snoc, before, takes, gives, List.map_append])
  cases change with
  | order _ arrived | remark _ arrived =>
      exact onward [_] (takenAt_take arrived) (foundAt_take arrived)
  | @overlong now since stage arrived =>
      have line := @takenAt_of_no_line s now (by simp [arrived])
      have same : found (h ++ [⟨s, .step now .take⟩]) = (taken h).map .line ++ [.overlong] := by
        rw [found_snoc, foundAt_take arrived, before]
        rfl
      refine .overlong rfl (by rw [same, taken_snoc, line, List.append_nil]) fun later none => ?_
      rw [same, received_snoc]
      exact (List.append_nil (received h)).symm ▸ framed.findings_of_overlong arrived later none
  | @endOfInput now since stage arrived =>
      have line := @takenAt_of_no_line s now (by simp [arrived])
      have same : found (h ++ [⟨s, .step now .take⟩]) =
          (taken h).map .line ++ [.endOfInput] := by
        rw [found_snoc, foundAt_take arrived, before]
        rfl
      rcases framed.endOfInput arrived with ⟨ended, all⟩
      refine .endOfInput rfl ended (by rw [same, taken_snoc, line, List.append_nil]) ?_
      have whole := Framer.findingsOf_append framed.fits []
      rw [List.append_nil, all] at whole
      rw [same, received_snoc, all]
      exact (List.append_nil (received h)).symm ▸ whole
  | _ => exact onward [] rfl rfl

-- How long a line may be never changes.
theorem Change.maxLength_eq (change : Change s e s') (framed : Framed h s) :
    s'.framer.maxLength = s.framer.maxLength := by
  have line {bytes : List UInt8} {rest : Framer} (arrived : s.arrival? = some (.line bytes rest)) :
      rest.maxLength = s.framer.maxLength := by
    rcases finds_arrival framed.searched with ⟨progress, finds, same⟩
    rw [arrived] at same
    cases finds with
    | line | last => cases same; rfl
    | overlong | unfinished | exhausted => cases same
  cases change with
  | prompt =>
      rcases write_eq (s := s) with ⟨stage, _, after⟩
      rw [after]
  | answered =>
      rcases answer_eq (s := s) with ⟨stage, _, after⟩
      rw [after]
  | order stage arrived => exact line arrived
  | @remark now since bytes rest result stage arrived =>
      rcases answer_eq (s := { s with framer := rest }) with ⟨stage, _, after⟩
      rw [after]
      exact line arrived
  | read stage unfinished =>
      have finds := Framer.finds_next framed.searched
      rw [unfinished] at finds
      cases finds with
      | unfinished => rfl
  | _ => rfl

end Finding

section Runs

variable {prompt : String} {maxLength : Nat} {idleLimit : Option Nat} {cancelled : Bool}
  {s : Session} {h : List Moment} {later : List UInt8}

theorem Run.maxLength_eq (run : Run (start prompt maxLength idleLimit cancelled) h s) :
    s.framer.maxLength = maxLength := by
  induction run with
  | start => rfl
  | next run act ih => exact ((change_of_react? act).maxLength_eq (Run.framed run)).trans ih

/-- What a session has found are the lines that it has taken, and then what ends its input. -/
theorem Run.finds (run : Run (start prompt maxLength idleLimit cancelled) h s) : Finds h s := by
  induction run with
  | start => exact .lines rfl
  | next run act ih => exact (change_of_react? act).finds (Run.framed run) ih

-- What a session has found is the beginning of what there is to find, whatever may still come.
theorem Finds.found_prefix (finds : Finds h s) (framed : Framed h s)
    (none : s.inputEnded = true → later = []) :
    found h <+: findingsOf s.framer.maxLength (linesOf (received h ++ later)) := by
  cases finds with
  | lines same =>
      rw [same, framed.cut later none, Framer.findingsOf_append framed.fits]
      exact List.prefix_append _ _
  | overlong _ _ whole => exact whole later none ▸ List.prefix_rfl
  | endOfInput _ ended _ whole =>
      rw [none ended, List.append_nil]
      exact whole ▸ List.prefix_rfl

/-- What is found in a stream does not depend on how it is cut into pieces.

    A framer that gets the stream in any pieces finds what there is to find in the lines of the
    stream: every line that is not too long, and then the first one that is too long or the end
    of the input. A session gets the stream in any pieces as well and takes them out of its
    inbox in any other pieces, while anything else happens to it. It finds the same, one after
    the other and up to where it has got. What it finds are lines, which it takes, until it has
    found everything; then it has ended itself with that. -/
theorem found_regardless_of_pieces (maxLength : Nat) (pieces : List (List UInt8)) :
    (Framer.start maxLength).findings pieces = findingsOf maxLength (linesOf pieces.flatten) ∧
    ∀ prompt idleLimit cancelled h s later,
      Run (start prompt maxLength idleLimit cancelled) h s →
      (s.inputEnded = true → later = []) → received h ++ later = pieces.flatten →
      found h <+: (Framer.start maxLength).findings pieces ∧
      (found h = (taken h).map .line ∨
        found h = (Framer.start maxLength).findings pieces ∧
          (found h = (taken h).map .line ++ [.overlong] ∧
              s.stage = .ended (.error .lineTooLong) ∨
            found h = (taken h).map .line ++ [.endOfInput] ∧ s.stage = .ended (.ok ()))) := by
  have inPieces : (Framer.start maxLength).findings pieces =
      findingsOf maxLength (linesOf pieces.flatten) :=
    Framer.findings_eq (f := .start maxLength) List.not_mem_nil pieces
  refine ⟨inPieces, ?_⟩
  intro prompt idleLimit cancelled h s later run none whole
  have finds := run.finds
  have upTo := finds.found_prefix run.framed none
  rw [run.maxLength_eq, whole] at upTo
  rw [inPieces]
  refine ⟨upTo, ?_⟩
  cases finds with
  | lines same => exact Or.inl same
  | overlong stage same all =>
      have all := all later none
      rw [run.maxLength_eq, whole] at all
      exact Or.inr ⟨all.symm, Or.inl ⟨same, stage⟩⟩
  | endOfInput stage ended same all =>
      rw [none ended, List.append_nil] at whole
      rw [run.maxLength_eq, whole] at all
      exact Or.inr ⟨all.symm, Or.inr ⟨same, stage⟩⟩

end Runs

/-- A session reads a line that is as long as a line may be, byte by byte and with the newline
    in a piece of its own, and then the beginning of one that is too long. -/
def piecemeal : List Event :=
  [.step 0 .begin, .step 0 .prompt, .step 0 (.write 2), .delivered [97, 98, 13], .step 0 (.read 1),
    .step 0 (.read 2), .delivered [10, 97], .step 0 (.read 1), .step 0 .take, .step 0 (.write 28),
    .step 0 .begin, .step 0 .prompt, .step 0 (.write 2), .step 0 (.read 1),
    .delivered [98, 99, 100], .step 0 (.read 3), .step 0 .take]

theorem piecemeal_found : ∃ h s, Run (start "> " 3 none false) h s ∧
    found h = [.line [97, 98, 13], .overlong] ∧ s.stage = .ended (.error .lineTooLong) ∧
    (Framer.start 3).findings [[97, 98], [13], [10, 97, 98, 99, 100]] = found h := by
  have done : (Trace.perform? react? [] (start "> " 3 none false) piecemeal).map
      (fun r => (received r.1, found r.1, taken r.1)) =
        some ([97, 98, 13, 10, 97, 98, 99, 100], [.line [97, 98, 13], .overlong],
          [[97, 98, 13]]) := by
    decide +kernel
  rcases Option.map_eq_some_iff.mp done with ⟨⟨h, s⟩, performed, facts⟩
  simp only [Prod.mk.injEq] at facts
  rcases facts with ⟨sent, gave, lines⟩
  have run : Run (start "> " 3 none false) h s := Trace.of_perform? .start performed
  have whole : received h ++ [] = [[97, 98], [13], [10, 97, 98, 99, 100]].flatten := by
    rw [sent]
    rfl
  rcases (found_regardless_of_pieces 3 _).2 _ _ _ h s [] run (fun _ => rfl) whole with
    ⟨_, unfinished | ⟨same, ⟨_, stage⟩ | ⟨other, _⟩⟩⟩
  · rw [gave, lines] at unfinished
    cases unfinished
  · exact ⟨h, s, run, gave, stage, same.symm⟩
  · rw [gave, lines] at other
    cases other

end Session

end ShardConsole
