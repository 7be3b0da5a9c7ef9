import ShardConsole.Proofs.Pool.Returns

/-!
# Intakes of Listings

What comes in for a listing, and what its caller makes of it.

While the caller listens, a text that a worker hands over goes to the end of the channel,
and the caller takes the texts from its front. `Passes` says so of one moment, and over a
run it adds up: the output is made of the texts that were taken, in the order in which
they were handed over, and the others are still in the channel.

A caller that is not cancelled stops listening only when it sees the channel closed. It
has then taken everything, and nothing more is handed over, because nobody is busy for the
call any more.

## Main definitions

* `Phase.isOpen`: Whether the caller still listens.
* `Passes`: What a moment does to an intake.

## Theorems

* `CallChange.channel`: What a change of a call does to its intake.
* `CallChange.of_returned`: How a call has returned.
* `Run.intake_eq`: The output is what was taken, and the rest is in the channel.
* `Run.received_eq`: A caller that has returned has taken everything.
-/

namespace ShardConsole

namespace Pool

/-- Whether the caller still listens, as far as the phase of its call tells. -/
def Phase.isOpen : Phase → Bool
  | .submitting _ | .waiting => true
  | .refused _ | .returned _ | .dropped => false

/-- What a moment does to an intake: the caller's output grows by what it takes, and as
    long as it listens the channel loses that at its front and gains what is handed over at
    its end. -/
structure Passes (p : Pool) (c : CallId) (a : Action) (phase phase' : Phase)
    (intake intake' : Intake) : Prop where
  output : intake'.output = intake.output ++ String.join (Moment.received c ⟨p, a⟩)
  still : phase'.isOpen = true → phase.isOpen = true
  listening : phase'.isOpen = true → intake.channel.listening = true →
    intake'.channel.listening = true
  parts : phase'.isOpen = true → intake.channel.parts ++ (Moment.handed c ⟨p, a⟩).map Prod.snd =
    Moment.received c ⟨p, a⟩ ++ intake'.channel.parts

section Channels

variable {p p' : Pool} {a : Action} {c : CallId} {w : WorkerId} {call call' : Call}
  {intake intake' : Intake}

-- An intake to which nothing comes in and from which nothing is taken.
theorem Passes.quiet {phase phase' : Phase} (output : intake'.output = intake.output)
    (still : phase'.isOpen = true → phase.isOpen = true)
    (listening : phase'.isOpen = true → intake'.channel.listening = intake.channel.listening)
    (parts : phase'.isOpen = true → intake'.channel.parts = intake.channel.parts)
    (handed : Moment.handed c ⟨p, a⟩ = []) (received : Moment.received c ⟨p, a⟩ = []) :
    Passes p c a phase phase' intake intake' where
  output := by rw [output, received, String.join_nil, String.append_empty]
  still := still
  listening opens before := (listening opens).trans before
  parts opens := by rw [parts opens, handed, received, List.map_nil, List.append_nil,
    List.nil_append]

theorem parts_ite_release {channel : Channel} {condition : Bool} :
    (if condition then channel.release .work else channel).parts = channel.parts := by
  cases condition <;> rfl

theorem listening_ite_release {channel : Channel} {condition : Bool} :
    (if condition then channel.release .work else channel).listening = channel.listening := by
  cases condition <;> rfl

/-- What a change of a call does to its intake. -/
theorem CallChange.channel (change : CallChange p c call a call') (hc : p.calls[c]? = some call)
    (hi' : call'.intake? = some intake') : ∃ intake, call.intake? = some intake ∧
      Passes p c a call.phase call'.phase intake intake' := by
  cases change with
  | stay avoids =>
      exact ⟨intake', hi', .quiet rfl id (fun _ => rfl) (fun _ => rfl) avoids.handed
        avoids.received⟩
  | cancel => exact ⟨intake', hi', .quiet rfl id (fun _ => rfl) (fun _ => rfl) rfl rfl⟩
  | drop =>
      -- Whoever has stopped listening loses the channel, and only the output is of interest.
      rw [Call.intake?_finishWith, Option.map_eq_some_iff] at hi'
      rcases hi' with ⟨intake, hi, rfl⟩
      refine ⟨intake, hi, .quiet rfl ?_ ?_ ?_ rfl rfl⟩ <;>
        simp [Phase.isOpen]
  | give phase =>
      refine ⟨intake', hi', .quiet rfl (fun _ => ?_) (fun _ => rfl) (fun _ => rfl) rfl rfl⟩
      rw [phase, Phase.isOpen]
  | refuse =>
      simp only [Call.refuse, Call.mapChannel, Call.intake?_mapIntake, Call.intake?_dropWork,
        Call.intake?_finishWith, Option.map_map, Option.map_eq_some_iff] at hi'
      rcases hi' with ⟨intake, hi, rfl⟩
      refine ⟨intake, hi, .quiet rfl ?_ ?_ ?_ rfl rfl⟩ <;>
        simp [Phase.isOpen]
  | await phase =>
      rw [Call.intake?_await, Option.map_eq_some_iff] at hi'
      rcases hi' with ⟨intake, hi, rfl⟩
      refine ⟨intake, hi, .quiet rfl (fun _ => ?_) (fun _ => listening_ite_release)
        (fun _ => parts_ite_release) rfl rfl⟩
      rw [phase, Phase.isOpen]
  | run =>
      rw [Call.intake?_noteRun, Option.map_eq_some_iff] at hi'
      rcases hi' with ⟨intake, hi, rfl⟩
      refine ⟨intake, hi, .quiet rfl ?_ (fun _ => rfl) (fun _ => rfl) rfl rfl⟩
      simp
  | lose =>
      rw [Call.intake?_lose, Option.map_eq_some_iff] at hi'
      rcases hi' with ⟨intake, hi, rfl⟩
      refine ⟨intake, hi, .quiet rfl ?_ (fun _ => listening_ite_release)
        (fun _ => parts_ite_release) rfl rfl⟩
      simp
  | dropWork =>
      rw [Call.intake?_dropWork, Option.map_eq_some_iff] at hi'
      rcases hi' with ⟨intake, hi, rfl⟩
      refine ⟨intake, hi, .quiet rfl ?_ (fun _ => listening_ite_release)
        (fun _ => parts_ite_release) rfl rfl⟩
      simp
  | @push w worker text intake hw activity hi listening room =>
      rw [Call.mapChannel, Call.intake?_mapIntake, hi, Option.map_some, Option.some.injEq] at hi'
      subst hi'
      -- The part goes to the end of the channel.
      have handed := handed_of_push (c := c) hw activity hc hi listening
      rw [if_pos rfl] at handed
      refine ⟨intake, hi, ?_, by simp, fun _ => id, fun _ => ?_⟩
      · exact (String.append_empty).symm
      · rw [handed]
        rfl
  | finish =>
      rw [Call.mapChannel, Call.intake?_mapIntake, Option.map_eq_some_iff] at hi'
      rcases hi' with ⟨intake, hi, rfl⟩
      exact ⟨intake, hi, .quiet rfl (by simp) (fun _ => rfl) (fun _ => rfl)
        rfl rfl⟩
  | signal => exact ⟨intake', hi', .quiet rfl id (fun _ => rfl) (fun _ => rfl) rfl rfl⟩
  | letGo =>
      rw [Call.intake?_mapIntake, Option.map_eq_some_iff] at hi'
      rcases hi' with ⟨intake, hi, rfl⟩
      exact ⟨intake, hi, .quiet rfl (by simp) (fun _ => rfl) (fun _ => rfl) rfl rfl⟩
  | @receive intake part rest hi phase parts =>
      rw [Call.intake?_mapIntake, hi, Option.map_some, Option.some.injEq] at hi'
      subst hi'
      -- The part at the front of the channel goes to the end of the output.
      have received : Moment.received c ⟨p, .step (.receive c)⟩ = [part] := by
        simp [Moment.received, hc, hi, parts]
      refine ⟨intake, hi, ?_, by simp, fun _ => id, fun _ => ?_⟩
      · simp [received]
      · rw [received, parts]
        exact List.append_nil _
  | conclude =>
      rw [Call.intake?_finishWith, Option.map_eq_some_iff] at hi'
      rcases hi' with ⟨intake, hi, rfl⟩
      refine ⟨intake, hi, .quiet rfl ?_ ?_ ?_ rfl rfl⟩ <;>
        simp [Phase.isOpen]
  | desist =>
      rw [Call.intake?_finishWith, Option.map_eq_some_iff] at hi'
      rcases hi' with ⟨intake, hi, rfl⟩
      refine ⟨intake, hi, .quiet rfl ?_ ?_ ?_ rfl rfl⟩ <;>
        simp [Phase.isOpen]

/-- A call that has returned had returned before, or it returns now: because there is nothing
    more to wait for, or because it is cancelled. -/
theorem CallChange.of_returned {result : Except Unavailable Reply}
    (change : CallChange p c call a call') (phase : call'.phase = .returned result) :
    call.phase = .returned result ∨
      (a = .step (.conclude c) ∧ call.phase = .waiting ∧ call.conclusion? = some result) ∨
      (a = .step (.desist c) ∧ call.phase = .waiting ∧ call.cancelled = true ∧
        ∃ reply, call.soFar? = some reply ∧ result = .ok reply) := by
  cases change with
  | stay => exact Or.inl phase
  | cancel => exact Or.inl phase
  | conclude waiting conclusion =>
      simp only [Call.finishWith, Call.mapChannel, Call.phase_mapIntake,
        Phase.returned.injEq] at phase
      exact Or.inr (Or.inl ⟨rfl, waiting, phase ▸ conclusion⟩)
  | @desist reply waiting cancelled soFar =>
      simp only [Call.finishWith, Call.mapChannel, Call.phase_mapIntake,
        Phase.returned.injEq] at phase
      exact Or.inr (Or.inr ⟨rfl, waiting, cancelled, reply, soFar, phase.symm⟩)
  | _ =>
    simp at phase <;>
    exact Or.inl phase

end Channels

section Runs

variable {start p : Pool} {h : List Moment} {c : CallId} {call : Call} {intake : Intake}
  {kind : Kind}

/-- The output of a call is what its caller has taken. While the caller listens, what has
    been handed over and not been taken is in the channel. -/
theorem Run.intake_eq (run : Run start h p) (fresh : IsFresh start)
    (hc : p.calls[c]? = some call) (hi : call.intake? = some intake) :
    intake.output = String.join (received c h) ∧ (call.phase.isOpen = true →
      intake.channel.listening = true ∧
        (handed c h).map Prod.snd = received c h ++ intake.channel.parts) := by
  induction run generalizing call intake with
  | start => simp [fresh.calls] at hc
  | @next h p p' a run act ih =>
      rw [handed_snoc, received_snoc]
      rcases (change_of_act? act).callChange hc with ⟨same, begins⟩ | ⟨before, hb, changed⟩
      · rcases Run.silent run fresh (Nat.le_of_eq same.symm) with ⟨_, handed, received⟩
        rw [handed, received]
        cases begins with
        | list created =>
            cases hi
            unfold Channel.create? at created
            split at created
            · cases created
              exact ⟨rfl, fun _ => ⟨rfl, rfl⟩⟩
            · cases created
        | delete => cases hi
        | process => cases hi
      · rcases changed.channel hb hi with ⟨intake₀, hi₀, passes⟩
        rcases ih hb hi₀ with ⟨output, whenOpen⟩
        constructor
        · rw [passes.output, output, String.join_append]
        · intro opens
          rcases whenOpen (passes.still opens) with ⟨listening, parts⟩
          refine ⟨passes.listening opens listening, ?_⟩
          rw [List.map_append, parts, List.append_assoc, passes.parts opens, List.append_assoc]

/-- The caller of an uncancelled call that has returned has taken every part that was handed
    over. -/
theorem Run.received_eq {result : Except Unavailable Reply} (run : Run start h p)
    (fresh : IsFresh start) (hc : p.calls[c]? = some call)
    (hi : call.intake? = some intake) (uncancelled : call.cancelled = false)
    (phase : call.phase = .returned result) : (handed c h).map Prod.snd = received c h := by
  induction run generalizing call intake with
  | start => simp [fresh.calls] at hc
  | @next h p p' a run act ih =>
      have acc := Run.accounts run fresh
      have change := change_of_act? act
      rcases change.callChange hc with ⟨_, begins⟩ | ⟨before, hb, changed⟩
      · cases begins <;> cases phase
      · rcases changed.channel hb hi with ⟨intake₀, hi₀, _⟩
        have uncancelled := changed.uncancelled uncancelled
        rw [handed_snoc, received_snoc]
        rcases changed.of_returned phase with returned | ⟨rfl, waiting, conclusion⟩ |
          ⟨_, _, cancelled, _⟩
        · -- Nobody is busy for a call that had returned before.
          rcases Run.returned_verdict run fresh hb (.of_uncancelled uncancelled) returned with
            ⟨resolved, _⟩
          rw [handed_eq_nil fun w worker hw => acc.not_busy hw hb resolved,
            change.received_eq_nil, List.append_nil, List.append_nil]
          · exact ih hb hi₀ uncancelled returned
          · intro other ho waiting
            cases hb.symm.trans ho
            rw [returned] at waiting
            cases waiting
        · -- The caller returns now, because nothing is left in the channel.
          rcases (Run.intake_eq run fresh hb hi₀).2 (by rw [waiting, Phase.isOpen]) with ⟨_, parts⟩
          have closed : intake₀.channel.isClosed = true := by
            unfold Call.intake? at hi₀
            split at hi₀
            · rename_i purpose
              cases hi₀
              rw [Call.conclusion?, purpose] at conclusion
              by_contra still
              simp [still] at conclusion
            · cases hi₀
          rw [Channel.isClosed, Bool.and_eq_true, List.isEmpty_iff, List.isEmpty_iff] at closed
          rw [closed.2, List.append_nil] at parts
          exact (congrArg (List.map Prod.snd) (List.append_nil _)).trans
            (parts.trans (List.append_nil _).symm)
        · rw [uncancelled] at cancelled
          cases cancelled

-- A call that has been refused stays so.
theorem CallChange.not_refused {p : Pool} {a : Action} {call' : Call}
    (change : CallChange p c call a call') (kept : ∀ cause, call'.phase ≠ .refused cause) :
    ∀ cause, call.phase ≠ .refused cause := by
  intro cause
  cases change with
  | drop phase => simp [phase]
  | give phase => simp [phase]
  | refuse phase => simp [phase]
  | await phase => simp [phase]
  | conclude phase => simp [phase]
  | desist phase => simp [phase]
  | _ => simpa using kept cause

-- A call that has been abandoned stays so.
theorem CallChange.not_dropped {p : Pool} {a : Action} {call' : Call}
    (change : CallChange p c call a call') (kept : call'.phase ≠ .dropped) :
    call.phase ≠ .dropped := by
  cases change with
  | drop phase => simp [phase]
  | give phase => simp [phase]
  | refuse phase => simp [phase]
  | await phase => simp [phase]
  | conclude phase => simp [phase]
  | desist phase => simp [phase]
  | _ => simpa using kept

end Runs

end Pool

end ShardConsole
