import EffectLoop.Proofs.Command.Completion

/-!
# Modest commands and their outcomes

A RUN is *modest* if its function sends nothing and fails only in ways that a simulation can express:
with a payload and, if it fails in the call, with a fail creator at hand.  A command is modest if it
has no schedules and all of its RUNs are modest.  The outcome of a modest RUN can be told by a leaf of a
simulation tree, and what is then done for it gives the action that the simulation of this leaf gives.
-/

namespace EffectLoop

variable {S ι : Type} {Action : ι → Type} {A : Type} {alphabet child : ι}

/-! ## Modesty -/

/-- The leaf of a simulation tree for an outcome.  A failure without payload has none. -/
def Simulation.ofOutcome? : Except RunFailure Json → Option Simulation
  | .ok value => some (.run value true)
  | .error (.failed payload) => some (.run payload false)
  | .error (.message _) => none

namespace RunSpec

/-- What a modest RUN may hand back.  An output that is detached may fail in any way. -/
def Expects (endless : Prop) (spec : RunSpec S Action A) : RunResult S Action A → Prop
  | .ready outcome => (Simulation.ofOutcome? outcome).isSome ∧
      ∀ cause, outcome = .error cause → spec.onFail.isSome
  | .deferred later =>
      if spec.forceSync then later.Quiet
      else later.Meets (.quiet endless) fun outcome : Except RunFailure Json =>
        (Simulation.ofOutcome? outcome).isSome

/-- The function sends nothing, and fails only in ways that can be simulated.  What is pending comes to
an end, unless it may be endless. -/
def Modest (endless : Prop) (spec : RunSpec S Action A) : Prop :=
  (spec.func spec.args).Meets (.quiet endless) (spec.Expects endless)

end RunSpec

/-- Every RUN is modest, no command is scheduled, and every list has a batch flag of the kind. -/
def Cmd.Modest (endless : Prop) (batches : Bool → Prop) : {alphabet : ι} → Cmd S Action alphabet →
    Prop
  | _, .none => True
  | _, .action _ => True
  | _, .run spec => spec.Modest endless
  | _, .list cmds _ batch => batches batch ∧ ∀ index, (cmds index).Modest endless batches
  | _, .map nested _ _ => nested.Modest endless batches
  | _, .scheduled _ _ _ _ => False

/-! ## The outcome of a RUN -/

namespace Start.Yields

variable {α : Type} {journal : List (Act S (Action alphabet))} {result : Produced Action alphabet}

theorem of_bind {first : Prompt S Action (Action alphabet) α}
    {next : α → Start S Action alphabet} (yields : Start.Yields (first >>= next) journal result) :
    ∃ earlier value later, first.Ends earlier value ∧ Start.Yields (next value) later result ∧
      journal = earlier ++ later := by
  cases yields with
  | failed ends =>
      rcases Prompt.Ends.bind_iff.1 ends with ⟨earlier, value, later, started, last, rfl⟩
      exact ⟨earlier, value, later, started, .failed last, rfl⟩
  | nothing ends =>
      rcases Prompt.Ends.bind_iff.1 ends with ⟨earlier, value, later, started, last, rfl⟩
      exact ⟨earlier, value, later, started, .nothing last, rfl⟩
  | pending ends completes =>
      rcases Prompt.Ends.bind_iff.1 ends with ⟨earlier, value, later, started, last, rfl⟩
      exact ⟨earlier, value, _, started, .pending last completes, List.append_assoc ..⟩

theorem of_pure_none (yields : Start.Yields (pure (.ok none)) journal result) :
    journal = [] ∧ result = .ok [] := by
  cases yields with
  | failed ends => cases (Prompt.Ends.pure_iff.1 ends).2
  | nothing ends => exact ⟨(Prompt.Ends.pure_iff.1 ends).1, rfl⟩
  | pending ends _ => cases (Prompt.Ends.pure_iff.1 ends).2

theorem of_pure_some {follow : FollowUp S Action (Action alphabet) alphabet}
    (yields : Start.Yields (pure (.ok (some follow))) journal result) :
    follow.Completes journal result := by
  cases yields with
  | failed ends => cases (Prompt.Ends.pure_iff.1 ends).2
  | nothing ends => cases (Prompt.Ends.pure_iff.1 ends).2
  | pending ends completes =>
      rcases Prompt.Ends.pure_iff.1 ends with ⟨rfl, same⟩
      cases same
      exact completes

theorem of_ofAction {found : Noted (Option (Action alphabet))}
    (yields : Start.Yields (Verdict.ofAction found) journal result) :
    journal = Act.notes found.notes ∧ result = .ok found.value.toList := by
  rcases of_bind yields with ⟨earlier, value, later, noted, rest, rfl⟩
  rcases Prompt.Ends.ofNoted_iff.1 noted with ⟨rfl, rfl⟩
  cases action : found.value with
  | none =>
      rw [action] at rest
      rcases of_pure_none rest with ⟨rfl, rfl⟩
      exact ⟨List.append_nil _, rfl⟩
  | some action =>
      rw [action] at rest
      rcases FollowUp.completes_now_iff.1 (of_pure_some rest) with ⟨rfl, rfl⟩
      exact ⟨List.append_nil _, rfl⟩

end Start.Yields

namespace RunSpec

variable {endless : Prop} {options : Options} {spec : RunSpec S Action (Action alphabet)}
variable {journal : List (Act S (Action alphabet))} {result : Produced Action alphabet}

theorem simulate_succeeded (value : Json) :
    (spec.simulate (some (.run value true))).value.toList =
      (spec.successAction value).value.toList :=
  Simulated.toList_ofOption _

theorem simulate_failed (payload : Json) :
    (spec.simulate (some (.run payload false))).value.toList =
      (spec.failureAction (.failed payload)).value.toList :=
  Simulated.toList_ofOption _

theorem of_completes_handledLog {cause : RunFailure}
    {next : FollowUp S Action (Action alphabet) alphabet}
    (completes : Pending.Completes (handledLog options cause next) journal result) :
    ∃ rest, next.Completes rest result ∧ sends journal = sends rest := by
  rcases Pending.Completes.of_call completes with ⟨reply, rest, last, rfl⟩
  exact ⟨rest, last, rfl⟩

/-- The follow-up of an outcome is the action that a simulation of it gives. -/
theorem simulate_of_completes_settle {outcome : Except RunFailure Json} {leaf : Simulation}
    (completes : Pending.Completes (spec.settle options outcome) journal result)
    (told : Simulation.ofOutcome? outcome = some leaf) :
    sends journal = [] ∧ result = .ok (spec.simulate (some leaf)).value.toList := by
  rcases outcome with cause | value
  · cases cause with
    | message text => cases told
    | failed payload =>
        cases told
        rw [simulate_failed, failureAction]
        rw [settle] at completes
        cases found : spec.onFail with
        | none =>
            rw [found] at completes
            rcases Pending.Completes.of_call completes with ⟨reply, rest, last, rfl⟩
            rcases FollowUp.completes_now_iff.1 last with ⟨rfl, rfl⟩
            exact ⟨rfl, rfl⟩
        | some creator =>
            rw [found] at completes
            rcases of_completes_handledLog completes with ⟨later, noted, same⟩
            rcases Pending.Completes.of_withNoted noted with ⟨rest, last, rfl⟩
            rcases FollowUp.completes_now_iff.1 last with ⟨rfl, rfl⟩
            rw [same, List.append_nil]
            exact ⟨sends_notes _, rfl⟩
  · cases told
    rw [simulate_succeeded]
    rw [settle] at completes
    rcases Pending.Completes.of_withNoted completes with ⟨rest, last, rfl⟩
    rcases FollowUp.completes_now_iff.1 last with ⟨rfl, rfl⟩
    rw [List.append_nil]
    exact ⟨sends_notes _, rfl⟩

/-- An outcome that is known in the call gives the action that a simulation of it gives. -/
theorem simulate_of_yields_ready {outcome : Except RunFailure Json} {leaf : Simulation}
    (told : Simulation.ofOutcome? outcome = some leaf)
    (creators : ∀ cause, outcome = .error cause → spec.onFail.isSome)
    (yields : Start.Yields (spec.executeReady options outcome) journal result) :
    sends journal = [] ∧ result = .ok (spec.simulate (some leaf)).value.toList := by
  rcases outcome with cause | value
  · cases cause with
    | message text => cases told
    | failed payload =>
        cases told
        rw [simulate_failed]
        rcases Option.isSome_iff_exists.1 (creators _ rfl) with ⟨creator, found⟩
        rw [executeReady, found] at yields
        dsimp only at yields
        rcases Start.Yields.of_bind yields with ⟨earlier, reply, later, logged, last, rfl⟩
        rcases Start.Yields.of_ofAction last with ⟨rfl, rfl⟩
        cases logged with
        | call reply closing =>
            cases closing
            exact ⟨sends_notes _, rfl⟩
  · cases told
    rw [simulate_succeeded]
    rcases Start.Yields.of_ofAction yields with ⟨rfl, rfl⟩
    exact ⟨sends_notes _, rfl⟩

end RunSpec

end EffectLoop
