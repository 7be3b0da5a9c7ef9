import ShardConsole.Proofs.Pool.Deliveries

/-!
# Origins of Calls

What a call was made for stays what it is for.

A call is found under the number that it was given when it was made, for as long as the
pool runs. Its work does not change and its purpose keeps its form: what comes in for a
listing is filled in, but a listing does not become a count. A cancellation is never taken
back, so a call that is not cancelled now has not been cancelled at any moment before.

## Main definitions

* `Purpose.form`: A purpose without what has come in for it.

## Theorems

* `CallChange.form_eq`: A purpose keeps its form.
* `CallChange.uncancelled`: A call that is not cancelled was not cancelled before.
* `Run.of_begun`: A call is what it was made as, as far as work and purpose go.
* `Run.listing_of_begun`, `Run.deletion_of_begun`: The calls of the two commands.
* `Run.process_of_begun`: The calls with work of one's own.
-/

namespace ShardConsole

namespace Pool

/-- The forms of purposes. -/
inductive Form
  | listing
  | count
  | completion
deriving DecidableEq

/-- A purpose without what has come in for it. -/
def Purpose.form : Purpose → Form
  | .listing _ => .listing
  | .count => .count
  | .completion => .completion

theorem Purpose.eq_count_of_form {purpose : Purpose} (form : purpose.form = .count) :
    purpose = .count := by
  cases purpose with
  | count => rfl
  | listing => cases form
  | completion => cases form

theorem Purpose.eq_completion_of_form {purpose : Purpose} (form : purpose.form = .completion) :
    purpose = .completion := by
  cases purpose with
  | completion => rfl
  | listing => cases form
  | count => cases form

theorem Purpose.exists_of_form {purpose : Purpose} (form : purpose.form = .listing) :
    ∃ intake, purpose = .listing intake := by
  cases purpose with
  | listing intake => exact ⟨intake, rfl⟩
  | count => cases form
  | completion => cases form

-- What comes in for a call does not change what it is for.
@[simp] theorem Call.form_mapIntake (call : Call) (change : Intake → Intake) :
    (call.mapIntake change).purpose.form = call.purpose.form := by
  rcases call with ⟨_, purpose, _, _, _, _, _⟩
  cases purpose <;> rfl

section Steps

variable {p p' : Pool} {a : Action} {c : CallId} {call call' : Call}

/-- A purpose keeps its form. -/
theorem CallChange.form_eq (change : CallChange p c call a call') :
    call'.purpose.form = call.purpose.form := by
  cases change with
  | _ =>
    simp [Call.dropWork]

/-- A call that is not cancelled was not cancelled before. -/
theorem CallChange.uncancelled (change : CallChange p c call a call')
    (uncancelled : call'.cancelled = false) : call.cancelled = false := by
  cases change with
  | cancel => cases uncancelled
  | _ =>
    simpa using uncancelled

-- An action that makes a call adds it at the end.
theorem Change.call_of_begins (change : Change p a p') (begins : a.Begins call) :
    p'.calls[p.calls.size]? = some call := by
  have last (other : Call) (same : a.Begins other) : other = call := by
    cases begins with
    | list created =>
        cases same with
        | list created' =>
            cases created.symm.trans created'
            rfl
    | delete =>
        cases same
        rfl
    | process =>
        cases same
        rfl
  cases change with
  | @begin _ other begins' =>
      rw [last other begins', Pool.begin, Array.getElem?_push_size]
  | _ => cases begins

end Steps

section Runs

variable {start p : Pool} {h : List Moment} {m : Moment} {c : CallId} {a b : Action}
  {call : Call}

theorem begun_snoc : Begun (h ++ [m]) c a ↔
    Begun h c a ∨ (m.action = a ∧ m.before.calls.size = c ∧ ∃ call, a.Begins call) := by
  simp only [Begun, List.mem_append, List.mem_singleton, or_and_right, exists_or, exists_eq_left]

/-- A call is found under the number that it was given when it was made, and it is what it
    was made as. -/
theorem Run.of_begun (run : Run start h p) (begun : Begun h c a) :
    ∃ first call, a.Begins first ∧ p.calls[c]? = some call ∧ call.work = first.work ∧
      call.purpose.form = first.purpose.form := by
  induction run with
  | start => obtain ⟨_, hm, _⟩ := begun; cases hm
  | next run act ih =>
      have change := change_of_act? act
      rcases begun_snoc.mp begun with before | ⟨rfl, rfl, first, begins⟩
      · rcases ih before with ⟨first, call, begins, hc, work, form⟩
        rcases change.callChange_of hc with ⟨call', hc', changed⟩
        exact ⟨first, call', begins, hc', changed.work_eq.trans work, changed.form_eq.trans form⟩
      · exact ⟨first, first, begins, change.call_of_begins begins, rfl, rfl⟩

-- Every call has been made by an action.
theorem Run.begun_of_call (run : Run start h p) (fresh : IsFresh start)
    (hc : p.calls[c]? = some call) : ∃ a, Begun h c a := by
  induction run generalizing call with
  | start => simp [fresh.calls] at hc
  | next run act ih =>
      rcases (change_of_act? act).callChange hc with ⟨number, begins⟩ | ⟨before, hb, _⟩
      · exact ⟨_, begun_snoc.mpr (Or.inr ⟨rfl, number.symm, call, begins⟩)⟩
      · rcases ih hb with ⟨a, begun⟩
        exact ⟨a, begun_snoc.mpr (Or.inl begun)⟩

-- No two actions make the same call.
theorem Run.begun_unique (run : Run start h p) (first : Begun h c a) (second : Begun h c b) :
    a = b := by
  induction run with
  | start =>
      rcases first with ⟨_, mem, _⟩
      cases mem
  | @next h p p' action run act ih =>
      -- A call that has been made before does not get the next number.
      have earlier {a : Action} (begun : Begun h c a) : p.calls.size ≠ c := by
        rcases Run.of_begun run begun with ⟨_, call, _, hc, _⟩
        exact Nat.ne_of_gt (lt_size_of_call hc)
      rcases begun_snoc.mp first with before | ⟨same, number, _⟩
      · rcases begun_snoc.mp second with before' | ⟨_, number, _⟩
        · exact ih before before'
        · exact absurd number (earlier before)
      · rcases begun_snoc.mp second with before' | ⟨same', _, _⟩
        · exact absurd number (earlier before')
        · exact same.symm.trans same'

-- A call that is there at a moment is there in the end, with its work and its purpose.
theorem Run.call_after {h₁ h₂ : List Moment} {first : Call} (run : Run start (h₁ ++ m :: h₂) p)
    (hf : m.before.calls[c]? = some first) : ∃ call, p.calls[c]? = some call ∧
      call.work = first.work ∧ call.purpose.form = first.purpose.form := by
  induction h₂ using List.reverseRecOn generalizing p with
  | nil =>
      rcases (change_of_act? run.unsnoc.2).callChange_of hf with ⟨call, hc, changed⟩
      exact ⟨call, hc, changed.work_eq, changed.form_eq⟩
  | append_singleton h₂ last ih =>
      rw [← List.cons_append, ← List.append_assoc] at run
      rcases ih run.unsnoc.1 with ⟨before, hb, work, form⟩
      rcases (change_of_act? run.unsnoc.2).callChange_of hb with ⟨call, hc, changed⟩
      exact ⟨call, hc, changed.work_eq.trans work, changed.form_eq.trans form⟩

/-- A call that was made to list a kind lists that kind. -/
theorem Run.listing_of_begun {capacity : Nat} {kind : Kind} {cancelled : Bool}
    (run : Run start h p) (begun : Begun h c (.list capacity kind cancelled))
    (hc : p.calls[c]? = some call) :
    call.work = Work.list kind ∧ ∃ intake, call.purpose = .listing intake := by
  rcases run.of_begun begun with ⟨first, same, begins, hs, work, form⟩
  cases hc.symm.trans hs
  cases begins
  exact ⟨work, Purpose.exists_of_form form⟩

/-- A call that was made to delete names deletes those names and counts them. -/
theorem Run.deletion_of_begun {kind : Kind} {names : List String} {cancelled : Bool}
    (run : Run start h p) (begun : Begun h c (.delete kind names cancelled))
    (hc : p.calls[c]? = some call) :
    call.work = Work.delete kind names ∧ call.purpose = .count := by
  rcases run.of_begun begun with ⟨first, same, begins, hs, work, form⟩
  cases hc.symm.trans hs
  cases begins
  exact ⟨work, Purpose.eq_count_of_form form⟩

/-- A call that was made with work of one's own has that work and waits for its completion. -/
theorem Run.process_of_begun {job : Work} (run : Run start h p)
    (begun : Begun h c (.process job)) (hc : p.calls[c]? = some call) :
    call.work = job ∧ call.purpose = .completion := by
  rcases run.of_begun begun with ⟨first, same, begins, hs, work, form⟩
  cases hc.symm.trans hs
  cases begins
  exact ⟨work, Purpose.eq_completion_of_form form⟩

end Runs

end Pool

end ShardConsole
