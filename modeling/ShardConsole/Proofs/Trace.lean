import Mathlib.Data.List.Induction

/-!
# Traces

The histories of a system that is given by a transition function.

A trace keeps every action together with the state in which it happened, so that whatever a
theorem is about can be read off the history. It grows at its end, and every moment of a trace
ends a trace of its own; an invariant that one more action preserves therefore holds at every
moment of every trace.

## Main definitions

* `Trace.Moment`: An action with the state in which it happened.
* `Trace`: A history of possible actions, from a state to a state.
* `Trace.perform?`: The history that actions lead to, if they are possible.

## Theorems

* `Trace.trans`: A trace goes on where another one has ended.
* `Trace.split`: Every moment of a trace ends a trace.
* `Trace.through`: A trace can be cut in two.
* `Trace.onward`: What comes from a moment on is a trace from there.
* `Trace.pairwise`: What an action never undoes holds between earlier and later states.
* `Trace.of_perform?`: Actions that are possible one after the other make a trace.
* `Trace.split_of_perform?`: Their history has a moment for each of them.
-/

namespace ShardConsole

/-- An action with the state in which it happened. -/
structure Trace.Moment (σ α : Type) where
  before : σ
  action : α

/-- A history of possible actions, from a state to a state. -/
inductive Trace {σ α : Type} (act? : σ → α → Option σ) (start : σ) :
    List (Trace.Moment σ α) → σ → Prop
  | start : Trace act? start [] start
  | next {h : List (Trace.Moment σ α)} {s s' : σ} {a : α} (run : Trace act? start h s)
      (act : act? s a = some s') : Trace act? start (h ++ [⟨s, a⟩]) s'

namespace Trace

variable {σ α : Type} {act? : σ → α → Option σ} {start s t : σ} {h h₁ h₂ : List (Moment σ α)}
  {m : Moment σ α}

/-- The history and the state that actions lead to, one after the other, if they are
    possible. -/
def perform? (act? : σ → α → Option σ) (h : List (Moment σ α)) (s : σ) :
    List α → Option (List (Moment σ α) × σ)
  | [] => some (h, s)
  | a :: rest => (act? s a).bind fun s' => perform? act? (h ++ [⟨s, a⟩]) s' rest

/-- A single action. -/
theorem single {a : α} (act : act? s a = some t) : Trace act? s [⟨s, a⟩] t :=
  Trace.start.next act

/-- A trace goes on where another one has ended. -/
theorem trans (run : Trace act? start h₁ s) (later : Trace act? s h₂ t) :
    Trace act? start (h₁ ++ h₂) t := by
  induction later with
  | start =>
      rw [List.append_nil]
      exact run
  | next _ act ih =>
      rw [← List.append_assoc]
      exact ih.next act

-- A trace that ends with a moment is a trace up to that moment and a possible action.
theorem unsnoc (run : Trace act? start (h ++ [m]) s) :
    Trace act? start h m.before ∧ act? m.before m.action = some s := by
  generalize whole : h ++ [m] = full at run
  cases run with
  | start => simp at whole
  | next run act =>
      rcases List.append_inj' whole rfl with ⟨rfl, last⟩
      cases List.singleton_inj.mp last
      exact ⟨run, act⟩

/-- Every moment of a trace ends a trace, and its action leads on. -/
theorem split (run : Trace act? start (h₁ ++ m :: h₂) s) :
    Trace act? start h₁ m.before ∧
      ∃ t, act? m.before m.action = some t ∧ Trace act? start (h₁ ++ [m]) t := by
  induction h₂ using List.reverseRecOn generalizing s with
  | nil =>
      rcases run.unsnoc with ⟨before, act⟩
      exact ⟨before, s, act, run⟩
  | append_singleton h₂ last ih =>
      rw [← List.cons_append, ← List.append_assoc] at run
      exact ih run.unsnoc.1

/-- A trace goes through a state after each of its moments. -/
theorem through (run : Trace act? start (h₁ ++ h₂) s) :
    ∃ t, Trace act? start h₁ t ∧ Trace act? t h₂ s := by
  induction h₂ using List.reverseRecOn generalizing s with
  | nil => exact ⟨s, by rwa [List.append_nil] at run, .start⟩
  | append_singleton h₂ last ih =>
      rw [← List.append_assoc] at run
      rcases ih run.unsnoc.1 with ⟨t, first, later⟩
      exact ⟨t, first, later.next run.unsnoc.2⟩

/-- Behind a moment of a trace the trace goes on from where its action leads. -/
theorem after (run : Trace act? start (h₁ ++ m :: h₂) s) :
    ∃ t, act? m.before m.action = some t ∧ Trace act? t h₂ s := by
  rw [← List.singleton_append, ← List.append_assoc] at run
  rcases run.through with ⟨t, first, later⟩
  exact ⟨t, first.unsnoc.2, later⟩

/-- What comes from a moment on is a trace from there. -/
theorem onward (run : Trace act? start (h₁ ++ m :: h₂) s) : Trace act? m.before (m :: h₂) s := by
  rcases run.after with ⟨t, act, later⟩
  exact (single act).trans later

/-- What an action never undoes holds between the states of any two moments, and between that of
    any moment and the last one. -/
theorem pairwise {R : σ → σ → Prop} (trans : ∀ {s t u}, R s t → R t u → R s u)
    (step : ∀ {s t a}, act? s a = some t → R s t) (run : Trace act? start h s) :
    h.Pairwise (fun m m' => R m.before m'.before) ∧ ∀ m ∈ h, R m.before s := by
  induction run with
  | start => exact ⟨.nil, fun m mem => by cases mem⟩
  | next _ act ih =>
      rcases ih with ⟨earlier, last⟩
      refine ⟨List.pairwise_append.mpr ⟨earlier, List.pairwise_singleton _ _, ?_⟩, ?_⟩
      · intro m hm m' hm'
        rw [List.mem_singleton.mp hm']
        exact last m hm
      · intro m hm
        rcases List.mem_append.mp hm with hm | hm
        · exact trans (last m hm) (step act)
        · rw [List.mem_singleton.mp hm]
          exact step act

/-- Actions that are possible one after the other make a trace. -/
theorem of_perform? {actions : List α} {h' : List (Moment σ α)} {t : σ}
    (run : Trace act? start h s) (done : perform? act? h s actions = some (h', t)) :
    Trace act? start h' t := by
  induction actions generalizing h s with
  | nil =>
      cases done
      exact run
  | cons a rest ih =>
      rw [perform?, Option.bind_eq_some_iff] at done
      rcases done with ⟨next, act, done⟩
      exact ih (run.next act) done

-- The history has the actions in their order.
theorem actions_of_perform? {actions : List α} {h' : List (Moment σ α)}
    (done : perform? act? h s actions = some (h', t)) :
    h'.map Moment.action = h.map Moment.action ++ actions := by
  induction actions generalizing h s with
  | nil =>
      cases done
      exact (List.append_nil _).symm
  | cons a rest ih =>
      rw [perform?, Option.bind_eq_some_iff] at done
      rcases done with ⟨next, _, done⟩
      rw [ih done, List.map_append, List.append_assoc]
      rfl

-- What all actions are is what the moments of the history show.
theorem forall_of_perform? {actions : List α} {h' : List (Moment σ α)} {good : α → Bool}
    (done : perform? act? [] s actions = some (h', t)) (all : actions.all good = true) :
    ∀ m ∈ h', good m.action = true := by
  intro m hm
  refine List.all_eq_true.mp all _ ?_
  have same := actions_of_perform? done
  rw [List.map_nil, List.nil_append] at same
  exact same ▸ List.mem_map_of_mem hm

-- A history does not lose what is in it already.
theorem append_of_perform? {actions : List α} {h' : List (Moment σ α)}
    (done : perform? act? h s actions = some (h', t)) : ∃ later, h' = h ++ later := by
  induction actions generalizing h s with
  | nil =>
      cases done
      exact ⟨[], (List.append_nil _).symm⟩
  | cons a rest ih =>
      rw [perform?, Option.bind_eq_some_iff] at done
      rcases done with ⟨next, _, done⟩
      rcases ih done with ⟨later, rfl⟩
      exact ⟨⟨s, a⟩ :: later, by rw [List.append_assoc, List.singleton_append]⟩

-- A history has a moment for each of its actions, at which the state is the one that the
-- actions before lead to.
theorem split_of_perform? {first rest : List α} {a : α} {h' : List (Moment σ α)}
    (done : perform? act? h s (first ++ a :: rest) = some (h', t)) :
    ∃ h₁ s₁ h₂, perform? act? h s first = some (h₁, s₁) ∧ h' = h₁ ++ ⟨s₁, a⟩ :: h₂ := by
  induction first generalizing h s with
  | nil =>
      rw [List.nil_append, perform?, Option.bind_eq_some_iff] at done
      rcases done with ⟨next, _, done⟩
      rcases append_of_perform? done with ⟨later, rfl⟩
      exact ⟨h, s, later, rfl, by rw [List.append_assoc, List.singleton_append]⟩
  | cons b first ih =>
      rw [List.cons_append, perform?, Option.bind_eq_some_iff] at done
      rcases done with ⟨next, act, done⟩
      rcases ih done with ⟨h₁, s₁, h₂, before, split⟩
      exact ⟨h₁, s₁, h₂, by rw [perform?, act, Option.bind_some, before], split⟩

end Trace

end ShardConsole
