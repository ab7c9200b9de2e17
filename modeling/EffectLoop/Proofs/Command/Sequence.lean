import Mathlib.Data.Fin.VecNotation
import EffectLoop.Proofs.Command.Phases

/-!
# Sequential lists

The commands of a sequential list are run one after the other.  `InOrder` is an account of a run: which
commands were started, in which worlds, how far the last of them has come, and what the list has
answered.  A command is started in the very world in which the one before it was over, and none is
started after a failure.

Whatever a list is driven through, there is such an account of it (`Cmd.sequence_in_order`).
-/

namespace EffectLoop

variable {S ι : Type} {Action : ι → Type} {A : Type} {alphabet : ι}

/-- The future of a verdict: a failure at once, and no actions at once if there is no follow-up. -/
def Verdict.followUp : Verdict S Action A alphabet → FollowUp S Action A alphabet
  | .error cause => .failed cause
  | .ok none => .now []
  | .ok (some follow) => follow

section Accounts

variable (dispatch : Dispatcher S Action A) (tag : Action alphabet → Noted A) (batch : Bool)
variable (env : World S Action A → World S Action A → Prop)

/-- A command was started in a world, and has come to where it stands now.  So far the given lists of
actions were dispatched for it. -/
inductive Start.Reaches (start : Start S Action alphabet) (world : World S Action A) :
    List (List (Action alphabet)) → Phase S Action A alphabet × World S Action A → Prop where
  | started {verdict opened blocks now} (depth : Nat) :
      (Prompt.retag tag start).run (.ofDispatch dispatch depth) world = (.ok verdict, opened) →
      Phase.Goes dispatch tag batch env (.awaited (Pending.retag tag verdict.followUp), opened) blocks
        now →
      Start.Reaches start world blocks now

/-- What a sequential list has to give for the actions that its commands have produced. -/
def kept (produced : List (List (Action alphabet))) : List (Action alphabet) :=
  if batch then produced.flatten else []

/-- The commands are run in order, after others that have produced the given actions.  The account
begins in one world and ends in another, and says what the list has answered by then. -/
inductive InOrder : List (Start S Action alphabet) → List (List (Action alphabet)) →
    World S Action A → Option (Except CmdFailure (List (Action alphabet))) → World S Action A →
    Prop where
  /-- All commands are over, without a failure. -/
  | finished (produced) (world) : InOrder [] produced world (some (.ok (kept batch produced))) world
  /-- The command is not over; the others are not started. -/
  | waits {start produced world phase blocks later} (rest) :
      start.Reaches dispatch tag batch env world blocks (phase, later) → phase.Waits →
      InOrder (start :: rest) produced world none later
  /-- The command has failed, and so has the list; the others are never started. -/
  | stops {start produced world cause blocks later} (rest) :
      start.Reaches dispatch tag batch env world blocks (.final (.error cause), later) →
      InOrder (start :: rest) produced world (some (.error cause)) later
  /-- The command is over, its actions are collected or were dispatched once, and the next one is
  started right there. -/
  | goesOn {start rest produced actions world middle result later} :
      start.Reaches dispatch tag batch env world (if batch then [] else [actions])
        (.final (.ok actions), middle) →
      InOrder rest (produced ++ [actions]) middle result later →
      InOrder (start :: rest) produced world result later

end Accounts

variable {dispatch : Dispatcher S Action A} {tag : Action alphabet → Noted A} {batch : Bool}
variable {env : World S Action A → World S Action A → Prop}

@[simp] theorem kept_nil (batch : Bool) : kept batch ([] : List (List (Action alphabet))) = [] := by
  cases batch <;> rfl

theorem kept_append (batch : Bool) (produced : List (List (Action alphabet)))
    (actions : List (Action alphabet)) :
    kept batch (produced ++ [actions]) =
      if batch then kept batch produced ++ actions else kept batch produced := by
  cases batch with
  | true => simp [kept]
  | false => rfl

/-! ## The program of a list under way -/

section Programs

variable (tag) (batch) (rest : List (Start S Action alphabet)) (produced : List (List (Action alphabet)))

/-- How a sequential list goes on after a command, in a context. -/
def followed (actions : List (Action alphabet)) : FollowUp S Action A alphabet :=
  Pending.retag tag (onward batch rest (kept batch (produced ++ [actions])))

theorem retag_arrive (actions : List (Action alphabet)) :
    Pending.retag tag (arrive batch (onward batch rest) (kept batch produced) actions) =
      Phase.arrived tag batch (followed tag batch rest produced) actions := by
  simp only [arrive, Phase.arrived, followed, kept_append]
  cases batch with
  | true => rfl
  | false =>
      simp only [Bool.false_eq_true, if_false, Pending.retag, List.map_map, Function.comp_def,
        pure_bind]
      congr 1
      funext reply
      cases reply with
      | error cause => rfl
      | ok =>
        simp [Phase.settled, followed, kept_append]

/-- What is left of a list, when a command has given its verdict, is the program of that command. -/
theorem retag_walk (ticket : Option Nat) (verdict : Verdict S Action (Action alphabet) alphabet) :
    Pending.retag tag (walk batch rest (kept batch produced) verdict) =
      (Phase.awaited (Pending.retag tag verdict.followUp)).program tag batch
        (followed tag batch rest produced) ticket := by
  rw [walk_eq]
  rcases verdict with cause | _ | follow
  · rfl
  · exact retag_arrive tag batch rest produced []
  · simp only [FollowUp.retag_andThen, retag_arrive]
    rfl

end Programs

/-! ## What is dispatched -/

/-- The actions that were dispatched for a command by the time it stands at a phase. -/
def Phase.Dispatched (batch : Bool) : Phase S Action A alphabet → List (List (Action alphabet)) → Prop
  | .awaited _, blocks => blocks = []
  | .settling actions _, blocks => batch = false ∧ blocks = [actions]
  | .final (.ok actions), blocks => blocks = if batch then [] else [actions]
  | .final (.error _), _ => True

theorem Phase.Step.dispatched {phase left : Phase S Action A alphabet} {world later : World S Action A}
    {blocks more : List (List (Action alphabet))}
    (step : Phase.Step dispatch tag batch (phase, world) more (left, later))
    (before : phase.Dispatched batch blocks) : left.Dispatched batch (blocks ++ more) := by
  cases step with
  | waits => simpa [Phase.Dispatched] using before
  | fails => trivial
  | collects depth waiter collecting =>
      simpa [Phase.Dispatched, collecting] using before
  | dispatches depth inner waiter sending =>
      have none : blocks = [] := before
      exact ⟨sending, by rw [none]; rfl⟩
  | settles => simpa [Phase.Dispatched] using before
  | @ends actions count caused replies world final =>
      rw [List.append_nil]
      cases firstFailure replies with
      | error cause => trivial
      | ok =>
          have sent : batch = false ∧ blocks = [actions] := before
          simp [Phase.Dispatched, Except.map, sent.1, sent.2]

theorem Phase.Goes.dispatched {phase left : Phase S Action A alphabet} {world later : World S Action A}
    {blocks : List (List (Action alphabet))}
    (goes : Phase.Goes dispatch tag batch env (phase, world) blocks (left, later))
    (before : phase.Dispatched batch []) : left.Dispatched batch blocks := by
  generalize last : (left, later) = now at goes
  induction goes generalizing left later with
  | rest =>
      cases last
      exact before
  | @step middle now noted more _ taken ih =>
      cases middle
      cases last
      exact taken.dispatched (ih rfl)
  | aside _ changes ih =>
      cases last
      exact ih rfl

/-! ## Following a list -/

/-- The account of `InOrder`, with the program of the list in the end instead of what it has answered. -/
inductive Stands (dispatch : Dispatcher S Action A) (tag : Action alphabet → Noted A) (batch : Bool)
    (env : World S Action A → World S Action A → Prop) :
    List (Start S Action alphabet) → List (List (Action alphabet)) → World S Action A →
    FollowUp S Action A alphabet → World S Action A → Prop where
  | finished (produced) (world) :
      Stands dispatch tag batch env [] produced world (.now (kept batch produced)) world
  | waits {start rest produced world phase blocks later} (ticket : Option Nat) :
      start.Reaches dispatch tag batch env world blocks (phase, later) → phase.Waits →
      Stands dispatch tag batch env (start :: rest) produced world
        (phase.program tag batch (followed tag batch rest produced) ticket) later
  | stops {start rest produced world cause blocks later} :
      start.Reaches dispatch tag batch env world blocks (.final (.error cause), later) →
      Stands dispatch tag batch env (start :: rest) produced world (.failed cause) later
  | goesOn {start rest produced actions world blocks middle left later} :
      start.Reaches dispatch tag batch env world blocks (.final (.ok actions), middle) →
      Stands dispatch tag batch env rest (produced ++ [actions]) middle left later →
      Stands dispatch tag batch env (start :: rest) produced world left later

namespace Start.Reaches

variable {start : Start S Action alphabet} {world middle later : World S Action A}
variable {blocks : List (List (Action alphabet))} {phase : Phase S Action A alphabet}

theorem dispatched (reaches : start.Reaches dispatch tag batch env world blocks (phase, later)) :
    phase.Dispatched batch blocks := by
  cases reaches with
  | started depth ran goes => exact goes.dispatched rfl

theorem asides (reaches : start.Reaches dispatch tag batch env world blocks (phase, middle))
    (changes : Relation.ReflTransGen env middle later) :
    start.Reaches dispatch tag batch env world blocks (phase, later) := by
  cases reaches with
  | started depth ran goes => exact .started depth ran (goes.asides changes)

end Start.Reaches

namespace Stands

variable {start : Start S Action alphabet} {rest : List (Start S Action alphabet)}
variable {produced : List (List (Action alphabet))} {world opened middle later : World S Action A}
variable {left : FollowUp S Action A alphabet} {depth : Nat} {waiter : Waiter}

/-- A poll of the program of a command leaves the list where it stands then, if a poll of the rest of
the list does. -/
theorem of_polled {verdict : Verdict S Action (Action alphabet) alphabet} {inner : Nat}
    (ran : (Prompt.retag tag start).run (.ofDispatch dispatch inner) world = (.ok verdict, opened))
    (polled : Phase.Polled dispatch tag batch env (followed tag batch rest produced) depth waiter
      (.awaited (Pending.retag tag verdict.followUp), opened) left later)
    (goOn : ∀ actions depth middle,
      (Pending.poll (.ofDispatch dispatch depth) waiter (followed tag batch rest produced actions)).Leads
        middle (Stands dispatch tag batch env rest (produced ++ [actions]) middle)) :
    Stands dispatch tag batch env (start :: rest) produced world left later := by
  cases polled with
  | waits phase ticket goes waits => exact .waits ticket (.started inner ran goes) waits
  | fails goes => exact .stops (.started inner ran goes)
  | passes within goes answered =>
      exact .goesOn (.started inner ran goes) ((goOn _ _ _).holds _ _ answered)

/-- When a command is over, the next one is started in the world that it has left, and the list stands
wherever that leads. -/
theorem of_onward (rest : List (Start S Action alphabet)) (produced : List (List (Action alphabet)))
    (depth : Nat) (world : World S Action A) :
    (Pending.poll (.ofDispatch dispatch depth) waiter
      (Pending.retag tag (onward batch rest (kept batch produced)))).Leads world
        (Stands dispatch tag batch env rest produced world) := by
  induction rest generalizing produced depth world with
  | nil =>
      apply Run.Leads.pure
      exact .finished produced world
  | cons start rest ih =>
      rw [onward, Prompt.retag_thenPending, Prompt.poll_thenPending]
      apply (Run.Leads.self _ world).bind
      intro verdict opened ran
      rw [retag_walk tag batch rest produced none verdict]
      apply (Phase.poll_program _ none (.rest _)).mono
      intro left later polled
      exact of_polled ran polled fun actions depth middle => ih (produced ++ [actions]) depth middle

/-- A list that stands somewhere stands somewhere after a poll. -/
theorem poll (stands : Stands dispatch tag batch env rest produced world left middle) :
    (Pending.poll (.ofDispatch dispatch depth) waiter left).Leads middle
      (Stands dispatch tag batch env rest produced world) := by
  induction stands with
  | finished produced world =>
      apply Run.Leads.pure
      exact .finished produced world
  | waits ticket reaches waits =>
      cases reaches with
      | started inner ran goes =>
          apply (Phase.poll_program _ ticket goes).mono
          intro left later polled
          exact of_polled ran polled fun actions depth middle => of_onward _ _ depth middle
  | stops reaches =>
      apply Run.Leads.pure
      exact .stops reaches
  | goesOn reaches _ ih =>
      apply ih.mono
      intro left later stands
      exact .goesOn reaches stands

/-- A list that is not over does not mind what happens in between. -/
theorem asides (stands : Stands dispatch tag batch env rest produced world left middle)
    (notOver : Pending.result? left = none) (changes : Relation.ReflTransGen env middle later) :
    Stands dispatch tag batch env rest produced world left later := by
  induction stands with
  | finished => cases notOver
  | waits ticket reaches waits => exact .waits ticket (reaches.asides changes) waits
  | stops => cases notOver
  | goesOn reaches _ ih => exact .goesOn reaches (ih notOver changes)

theorem inOrder (stands : Stands dispatch tag batch env rest produced world left later) :
    InOrder dispatch tag batch env rest produced world (Pending.result? left) later := by
  induction stands with
  | finished produced world => exact .finished produced world
  | waits ticket reaches waits =>
      rw [Phase.result?_program waits]
      exact .waits _ reaches waits
  | stops reaches => exact .stops _ reaches
  | goesOn reaches _ ih =>
      have sent := reaches.dispatched
      simp only [Phase.Dispatched] at sent
      rw [sent] at reaches
      exact .goesOn reaches ih

/-- A list that was started stands somewhere after a poll. -/
theorem of_start {verdict : Verdict S Action (Action alphabet) alphabet} {inner : Nat}
    (ran : (Prompt.retag tag start).run (.ofDispatch dispatch inner) world = (.ok verdict, opened))
    (changes : Relation.ReflTransGen env opened middle) :
    (Pending.poll (.ofDispatch dispatch depth) waiter
      (Pending.retag tag (walk batch rest [] verdict))).Leads middle
        (Stands dispatch tag batch env (start :: rest) [] world) := by
  have program := retag_walk tag batch rest [] none verdict
  rw [kept_nil] at program
  rw [program]
  apply (Phase.poll_program _ none ((Runs.rest _).asides changes)).mono
  intro left later polled
  exact of_polled ran polled fun actions depth middle => of_onward _ _ depth middle

/-- However a list is driven, it stands somewhere after a poll, or did so when it came to its end. -/
theorem driven {verdict : Verdict S Action (Action alphabet) alphabet} {inner : Nat}
    (ran : (Prompt.retag tag start).run (.ofDispatch dispatch inner) world = (.ok verdict, opened))
    {program : FollowUp S Action A alphabet}
    (driven : Driven dispatch env (Pending.retag tag (walk batch rest [] verdict), opened)
      (program, middle)) :
    (Pending.poll (.ofDispatch dispatch depth) waiter program).Leads middle fun left later =>
      ∃ ended, Relation.ReflTransGen env ended later ∧
        Stands dispatch tag batch env (start :: rest) [] world left ended := by
  let stood (program : FollowUp S Action A alphabet) (now : World S Action A) : Prop :=
    ∃ ended, Relation.ReflTransGen env ended now ∧
      Stands dispatch tag batch env (start :: rest) [] world program ended
  let fresh (program : FollowUp S Action A alphabet) (now : World S Action A) : Prop :=
    program = Pending.retag tag (walk batch rest [] verdict) ∧ Relation.ReflTransGen env opened now
  have polled (program now depth waiter) (before : fresh program now ∨ stood program now) :
      (Pending.poll (.ofDispatch dispatch depth) waiter program).Leads now stood := by
    rcases before with ⟨rfl, changes⟩ | ⟨ended, changes, stands⟩
    · apply (of_start ran changes).mono
      intro left later stands
      exact ⟨later, .refl, stands⟩
    · cases result : Pending.result? program with
      | none =>
          apply ((stands.asides result changes).poll).mono
          intro left after stands
          exact ⟨after, .refl, stands⟩
      | some value =>
          rw [Pending.result?_eq_some_iff.1 result] at stands ⊢
          exact .pure ⟨ended, changes, stands⟩
  apply polled
  apply driven.invariant (fun program now depth waiter before => ?_) (fun program now after acts => ?_)
    (.inl ⟨rfl, .refl⟩)
  · exact (polled program now depth waiter before).mono fun _ _ => .inr
  · rintro (⟨same, changes⟩ | ⟨ended, changes, stands⟩)
    · exact .inl ⟨same, changes.tail acts⟩
    · exact .inr ⟨ended, changes.tail acts, stands⟩

end Stands

namespace Cmd

/-- A sequential list starts its first command in the call, does nothing else there, and answers a
future.  However that is driven, in whatever context and with whatever happening in between, a poll of
it has done and answered what an account of a run in order says. -/
theorem sequence_in_order (dispatch : Dispatcher S Action A) (tag : Action alphabet → Noted A)
    (env : World S Action A → World S Action A → Prop) (options : Options) {count : Nat}
    (cmds : Fin (count + 1) → Cmd S Action alphabet) (batch : Bool) {depth : Nat}
    {world opened : World S Action A} {verdict : Verdict S Action (Action alphabet) alphabet}
    (started : (Prompt.retag tag ((cmds 0).execute options)).run (.ofDispatch dispatch depth) world =
      (.ok verdict, opened)) :
    ∃ follow : FollowUp S Action (Action alphabet) alphabet,
      (Prompt.retag tag ((Cmd.list cmds true batch).execute options)).run (.ofDispatch dispatch depth)
        world = (.ok (.ok (some follow)), opened) ∧
      ∀ program now, Driven dispatch env (Pending.retag tag follow, opened) (program, now) →
        ∀ depth waiter left later,
          program.poll (.ofDispatch dispatch depth) waiter now = (.ok left, later) →
          ∃ ended, Relation.ReflTransGen env ended later ∧
            InOrder dispatch tag batch env (List.ofFn fun index => (cmds index).execute options) []
              world left.result? ended := by
  refine ⟨walk batch (List.ofFn fun index => (cmds index.succ).execute options) [] verdict, ?_, ?_⟩
  · simp only [execute, List.ofFn_succ, startInOrder, Prompt.retag_bind, Prompt.run_bind]
    exact Run.bind_of_ok started
  · intro program now driven depth waiter left later answered
    rcases (Stands.driven started driven).holds _ _ answered with ⟨ended, changes, stands⟩
    rw [List.ofFn_succ]
    exact ⟨ended, changes, stands.inOrder⟩

/-! ### Two commands -/

/-- A RUN that waits at a gate, with a number for an action. -/
def waiting (gate : String) (number : Nat) : Cmd Nat (fun _ : Unit => Nat) () :=
  .run
    { func := fun _ => .done (.deferred (.wait gate (.done (.ok .null))))
      args := []
      onSuccess := some fun _ => pure number
      onFail := Option.none
      forceSync := false }

/-- A command that waits at a gate, and one that does not. -/
def errands : Fin 2 → Cmd Nat (fun _ : Unit => Nat) () := ![waiting "left" 1, .action (2 : Nat)]

/-- The verdict of the first command. -/
def errand : Verdict Nat (fun _ : Unit => Nat) Nat () := .ok (some (.wait "left" (.done (.ok [1]))))

/-- A host that records, and whose dispatches are over at once. -/
def recorder : Host Nat (fun _ : Unit => Nat) () :=
  .recording .default fun _ => ⟨Option.none, Option.none⟩

/-- A world in which nothing has happened. -/
def idle : World Nat (fun _ : Unit => Nat) Nat := .initial 0 (.virtual .initial) (.int 0)

/-- The gate is opened. -/
def Opens (before after : World Nat (fun _ : Unit => Nat) Nat) : Prop := after = before.unlock "left"

/-- The actions that a future has given, if it is polled before the gate is opened and after. -/
def givenTwice (future : FollowUp Nat (fun _ : Unit => Nat) Nat ()) : Option (List Nat) :=
  match future.poll (.ofDispatch recorder.dispatch 2) ⟨0, []⟩ idle with
  | (.ok left, world) =>
      match (left.poll (.ofDispatch recorder.dispatch 2) ⟨0, []⟩ (world.unlock "left")).1 with
      | .ok (.done (.ok actions)) => some actions
      | _ => Option.none
  | _ => Option.none

theorem exists_of_givenTwice {future : FollowUp Nat (fun _ : Unit => Nat) Nat ()} {actions : List Nat}
    (given : givenTwice future = some actions) :
    ∃ left world later, Driven recorder.dispatch Opens (future, idle) (left, world) ∧
      left.poll (.ofDispatch recorder.dispatch 2) ⟨0, []⟩ world =
        (.ok (FollowUp.now actions), later) := by
  unfold givenTwice at given
  split at given
  next left world polled =>
      split at given
      next found again =>
          cases given
          refine ⟨left, world.unlock "left", _, ?_, Prod.ext again rfl⟩
          exact (Relation.ReflTransGen.single (.poll 2 ⟨0, []⟩ polled)).tail (.meanwhile left rfl)
      next => cases given
  next => cases given

/-- Once the gate is opened, the first action is dispatched, and only then the second. -/
theorem errands_in_order :
    (Prompt.retag pure ((errands 0).execute .default)).run (.ofDispatch recorder.dispatch 2) idle =
        (.ok errand, idle) ∧
      ∃ ended, InOrder recorder.dispatch pure false Opens
        (List.ofFn fun index => (errands index).execute .default) [] idle (some (.ok [])) ended := by
  have started : (Prompt.retag pure ((errands 0).execute .default)).run
      (.ofDispatch recorder.dispatch 2) idle = (.ok errand, idle) := rfl
  rcases sequence_in_order recorder.dispatch pure Opens .default errands false started with
    ⟨follow, called, account⟩
  cases called
  have given : givenTwice (Pending.retag pure (walk false [(errands 1).execute .default] [] errand)) =
      some [] := by decide +kernel
  rcases exists_of_givenTwice given with ⟨left, world, later, driven, polled⟩
  rcases account left world driven 2 _ _ _ polled with ⟨ended, -, inOrder⟩
  exact ⟨started, ended, inOrder⟩

end Cmd

end EffectLoop
