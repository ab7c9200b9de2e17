import EffectLoop.Proofs.World.Silence
import EffectLoop.Proofs.Store.Finishing

/-!
# Work that nothing waits for

A RUN that must not wait for its outcome hands what is pending to the scheduler and counts as a success
with `null`.  It is the same command as a RUN whose function spawns that work itself and has `null` at once
(`Cmd.execute_handingOver`), alone and within lists, tags and schedules.

What comes of the work decides nothing but whether a line is logged.  Two sessions that are the same when
the outcomes of detached work are *forgotten* give the same replies to scripts that are the same then, and
end alike (`Session.detached_decides_nothing`).
-/

namespace EffectLoop

variable {S ι : Type} {Action : ι → Type} {A B α β γ : Type} {alphabet : ι}

/-! ## Forgetting outcomes -/

/-- What a RUN function hands back.  If nothing waits for what is pending, its outcome is forgotten; it
takes place all the same. -/
def RunResult.forgetting (forced : Bool) : RunResult S Action A → RunResult S Action A
  | .ready outcome => .ready outcome
  | .deferred later => .deferred (if forced then later.bind fun _ => .done (.ok .null) else later)

/-- The RUN, without the outcome of what nothing waits for. -/
def RunSpec.forgetting (spec : RunSpec S Action A) : RunSpec S Action A :=
  { spec with func := fun args => RunResult.forgetting spec.forceSync <$> spec.func args }

/-- The command, without the outcomes of what nothing waits for. -/
def Cmd.forgetting : {alphabet : ι} → Cmd S Action alphabet → Cmd S Action alphabet
  | _, .none => .none
  | _, .action sent => .action sent
  | _, .run spec => .run spec.forgetting
  | _, .list cmds sequence batch => .list (fun index => (cmds index).forgetting) sequence batch
  | _, .map nested tagger args => .map nested.forgetting tagger args
  | _, .scheduled nested delay repeating onScheduled =>
      .scheduled nested.forgetting delay repeating onScheduled

/-- The loop, without the outcomes of what nothing waits for. -/
def Loop.forgetting : Loop S Action alphabet → Loop S Action alphabet
  | .model state => .model state
  | .withCmd state cmd => .withCmd state cmd.forgetting

/-- The store, without the outcomes of what nothing waits for. -/
def Store.forgetting (store : Store S Action alphabet) : Store S Action alphabet :=
  { store with reducer := fun state action => Except.map Loop.forgetting <$> store.reducer state action }

/-- The host, without the outcomes of what nothing waits for. -/
def Host.forgetting : Host S Action alphabet → Host S Action alphabet
  | recording options plan => recording options plan
  | store held => store held.forgetting

/-- What is asked, without the outcomes of what nothing waits for. -/
def Step.forgetting : Step S Action alphabet → Step S Action alphabet
  | .execute cmd hold => .execute (cmd.map Cmd.forgetting) hold
  | .start loop hold => .start (loop.map Loop.forgetting) hold
  | .launch cmd hold => .launch (cmd.map Cmd.forgetting) hold
  | asked => asked

/-! ## Lines about detached work -/

/-- Is the line about a failure of work that nothing waits for? -/
def LogEntry.isDetached : LogEntry → Bool
  | .detachedFailure _ => true
  | _ => false

/-- The lines about detached work are left out; with its outcomes forgotten, none is written. -/
def Silencing.detachedFailures : Silencing where
  mute := LogEntry.isDetached
  options := id
  detached _ := .ok .null
  handled options cause := by
    cases silenced : options.silenceHandled <;> simp [Options.reportHandled, silenced] <;> rfl
  reported outcome := by cases outcome <;> rfl
  unhandled _ := rfl
  uncaught _ := rfl
  firing _ := rfl
  scheduled _ _ _ := rfl
  spares := ⟨fun _ _ _ => rfl, fun _ => rfl, fun _ => rfl, fun _ => rfl⟩

theorem Prompt.hush_map (mute : LogEntry → Bool) (image : β → γ) (change : α → β)
    (program : Prompt S Action A α) :
    (change <$> program).hush mute image = program.hush mute fun value => image (change value) := by
  rw [map_eq_pure_bind]
  refine Eq.trans ?_ (bind_pure _)
  apply Prompt.hush_bind
  exact fun _ => rfl

theorem RunResult.hushed_forgetting (forced : Bool) (output : RunResult S Action A) :
    (output.forgetting forced).hushed .detachedFailures forced =
      output.hushed .detachedFailures forced := by
  cases output with
  | ready outcome => rfl
  | deferred later =>
      cases forced with
      | false => rfl
      | true =>
          change RunResult.deferred (Pending.bind (Pending.hush _ (later.bind _)) _) = .deferred _
          rw [Pending.hush_bind, Pending.bind_assoc]
          rfl

theorem RunSpec.hushed_forgetting (spec : RunSpec S Action A) :
    spec.forgetting.hushed .detachedFailures = spec.hushed .detachedFailures := by
  let soften : RunResult S Action A → RunResult S Action A := .hushed .detachedFailures spec.forceSync
  have func (args : List Arg) : (spec.forgetting.func args).hushed .detachedFailures soften =
      (spec.func args).hushed .detachedFailures soften := by
    rw [forgetting, Prompt.hushed, Prompt.hush_map]
    congr 1
    funext output
    exact output.hushed_forgetting spec.forceSync
  exact congrArg (fun func => { spec with func }) (funext func)

theorem Cmd.hushed_forgetting (cmd : Cmd S Action alphabet) :
    cmd.forgetting.hushed .detachedFailures = cmd.hushed .detachedFailures := by
  induction cmd with
  | none => rfl
  | action sent => rfl
  | run spec => exact congrArg Cmd.run spec.hushed_forgetting
  | list cmds sequence batch ih => exact congrArg (Cmd.list · sequence batch) (funext ih)
  | map nested tagger args ih => exact congrArg (Cmd.map · tagger args) ih
  | scheduled nested delay repeating onScheduled ih =>
      exact congrArg (Cmd.scheduled · delay repeating onScheduled) ih

theorem Loop.hushed_forgetting (loop : Loop S Action alphabet) :
    loop.forgetting.hushed .detachedFailures = loop.hushed .detachedFailures := by
  cases loop with
  | model state => rfl
  | withCmd state cmd => exact congrArg (withCmd state) cmd.hushed_forgetting

theorem Store.hushed_forgetting (store : Store S Action alphabet) :
    store.forgetting.hushed .detachedFailures = store.hushed .detachedFailures := by
  have reducer (state : S) (action : Action alphabet) :
      (store.forgetting.hushed .detachedFailures).reducer state action =
        (store.hushed .detachedFailures).reducer state action := by
    change Except.map _ <$> Except.map _ <$> store.reducer state action = Except.map _ <$> _
    rw [Functor.map_map]
    congr 1
    funext answer
    cases answer with
    | error refused => rfl
    | ok loop => exact congrArg Except.ok loop.hushed_forgetting
  exact congrArg (Store.mk · store.options store.observer) (funext fun state => funext (reducer state))

theorem Host.hushed_forgetting (host : Host S Action alphabet) :
    host.forgetting.hushed .detachedFailures = host.hushed .detachedFailures := by
  cases host with
  | recording options plan => rfl
  | store held => exact congrArg Host.store held.hushed_forgetting

theorem Step.hushed_forgetting (asked : Step S Action alphabet) :
    asked.forgetting.hushed .detachedFailures = asked.hushed .detachedFailures := by
  cases asked with
  | execute cmd hold =>
      cases cmd with
      | error refused => rfl
      | ok cmd => exact congrArg (fun cmd => Step.execute (.ok cmd) hold) cmd.hushed_forgetting
  | start loop hold =>
      cases loop with
      | error refused => rfl
      | ok loop => exact congrArg (fun loop => Step.start (.ok loop) hold) loop.hushed_forgetting
  | launch cmd hold =>
      cases cmd with
      | error refused => rfl
      | ok cmd => exact congrArg (fun cmd => Step.launch (.ok cmd) hold) cmd.hushed_forgetting
  | _ => rfl

/-! ## Handing work over -/

/-- The RUN whose function spawns what nothing is to wait for itself, and has `null` at once. -/
def RunSpec.handingOver (spec : RunSpec S Action (Action alphabet)) :
    RunSpec S Action (Action alphabet) :=
  { spec with
    func := fun args => do
      match ← spec.func args with
      | .ready outcome => pure (.ready outcome)
      | .deferred later =>
          if spec.forceSync then .spawn (RunSpec.detached later) (pure (.ready (.ok .null)))
          else pure (.deferred later) }

/-- The command whose functions spawn what nothing is to wait for themselves, and have `null` at once. -/
def Cmd.handingOver : {alphabet : ι} → Cmd S Action alphabet → Cmd S Action alphabet
  | _, .none => .none
  | _, .action sent => .action sent
  | _, .run spec => .run spec.handingOver
  | _, .list cmds sequence batch => .list (fun index => (cmds index).handingOver) sequence batch
  | _, .map nested tagger args => .map nested.handingOver tagger args
  | _, .scheduled nested delay repeating onScheduled =>
      .scheduled nested.handingOver delay repeating onScheduled

theorem RunSpec.execute_handingOver (options : Options) (spec : RunSpec S Action (Action alphabet)) :
    spec.handingOver.execute options = spec.execute options := by
  rw [execute, execute, handingOver, LawfulMonad.bind_assoc]
  congr 1
  funext output
  cases output with
  | ready outcome => rfl
  | deferred later =>
      cases forced : spec.forceSync with
      | true =>
          simp only [if_true, executeDeferred, forced]
          rfl
      | false =>
          simp only [Bool.false_eq_true, if_false, executeDeferred, forced]
          rfl

/-- Executing a command hands over what nothing is to wait for just as its functions would do it
themselves, in their calls. -/
theorem Cmd.execute_handingOver (options : Options) (cmd : Cmd S Action alphabet) :
    cmd.handingOver.execute options = cmd.execute options := by
  induction cmd with
  | none => rfl
  | action sent => rfl
  | run spec => exact spec.execute_handingOver options
  | list cmds sequence batch ih =>
      cases sequence <;> simp only [handingOver, execute, ih]
  | map nested tagger args ih => simp only [handingOver, execute, ih]
  | scheduled nested delay repeating onScheduled ih => simp only [handingOver, execute, ih]

/-- When its function has handed back what is pending, the RUN spawns it, whoever gets what it sends, and is
over: it has the action for `null`, if it has one for successes at all. -/
theorem RunSpec.run_execute_forced (options : Options) (spec : RunSpec S Action (Action alphabet))
    (forced : spec.forceSync) (tag : Action alphabet → Noted A) (engine : Engine S Action A)
    {world middle : World S Action A} {later : Pending S Action (Action alphabet) .outcome}
    (called : ((spec.func spec.args).retag tag).run engine world = (.ok (.deferred later), middle)) :
    ((spec.execute options).retag tag).run engine world =
      (.ok (.ok (spec.onSuccess.map fun creator => .now [(creator .null).value])),
        (Run.spawn ((detached later).retag tag) middle).2.annotate (spec.successAction .null).notes) := by
  have concluded : spec.executeDeferred options later =
      .spawn (detached later) (Verdict.ofAction (spec.successAction .null)) := if_pos forced
  rw [execute, Prompt.retag_bind, Prompt.run_bind, Run.bind_of_ok called]
  dsimp only
  rw [concluded, Verdict.ofAction, Prompt.retag, Prompt.retag_bind, Prompt.retag_ofNoted, Prompt.run]
  refine Eq.trans (Run.bind_of_ok rfl) ?_
  rw [Prompt.run_bind, Prompt.run_ofNoted]
  refine Eq.trans (Run.bind_of_ok rfl) ?_
  rw [successAction]
  cases spec.onSuccess <;> rfl

namespace Session

variable [∀ alphabet, Tagged (Action alphabet)]

/-- Detached work cannot influence its command, nor can what comes of it influence anything else.  A RUN
that does not wait for what is pending hands it to the scheduler in its call, once, and is over with the
action for `null`; a command does just what it would if its functions spawned the work themselves and had
`null` at once.  Two sessions that differ only in the outcomes of detached work, in the commands of the
store as in those of the script, give the same replies and end alike, but for lines about detached work. -/
theorem detached_decides_nothing (session : Session S Action alphabet) (host : Host S Action alphabet)
    (script other : List (Step S Action alphabet)) (sameHost : host.forgetting = session.host.forgetting)
    (sameScript : other.map Step.forgetting = script.map Step.forgetting) :
    (∀ (options : Options) {child : ι} (spec : RunSpec S Action (Action child)) {A : Type}
      (tag : Action child → Noted A) (engine : Engine S Action A) (world middle : World S Action A)
      (later : Pending S Action (Action child) .outcome), spec.forceSync →
      ((spec.func spec.args).retag tag).run engine world = (.ok (.deferred later), middle) →
      ((spec.execute options).retag tag).run engine world =
        (.ok (.ok (spec.onSuccess.map fun creator => .now [(creator .null).value])),
          (Run.spawn ((RunSpec.detached later).retag tag) middle).2.annotate
            (spec.successAction .null).notes)) ∧
    (∀ (options : Options) {child : ι} (cmd : Cmd S Action child),
      cmd.handingOver.execute options = cmd.execute options) ∧
    let first := session.serve script
    let second := { session with host }.serve other
    second.1 = first.1 ∧ first.2.AlikeBut LogEntry.isDetached second.2 := by
  refine ⟨?_, fun options _ cmd => cmd.execute_handingOver options, ?_⟩
  · intro options _ spec _ tag engine world middle later forced called
    exact spec.run_execute_forced options forced tag engine called
  intro first second
  -- Without the lines about detached work the outcomes are nowhere any more, and the two runs are one.
  have softHost : host.hushed .detachedFailures = session.host.hushed .detachedFailures := by
    rw [← host.hushed_forgetting, sameHost, session.host.hushed_forgetting]
  have soft : { session with host }.hushed .detachedFailures = session.hushed .detachedFailures := by
    rw [hushed, hushed, softHost]
  have softScript : other.map (Step.hushed .detachedFailures) =
      script.map (Step.hushed .detachedFailures) := by
    have same := congrArg (List.map (Step.hushed .detachedFailures)) sameScript
    simp only [List.map_map, Function.comp_def, Step.hushed_forgetting] at same
    exact same
  have served := session.serve_hushed .detachedFailures script
  have servedOther := { session with host }.serve_hushed .detachedFailures other
  rw [soft, softScript, served, Prod.mk.injEq] at servedOther
  exact ⟨servedOther.1.symm, alikeBut_of_hushed .detachedFailures servedOther.2.symm⟩

/-- The command of `null` does not wait for what its function hands back, which goes through a door,
dispatches `true` and has the given outcome. -/
def errand (outcome : Except RunFailure Json) : Json → Cmd Nat (fun _ : Unit => Json) ()
  | .null =>
      .run ⟨fun _ => .done
        (.deferred (.wait "door" (.send (pure (.bool true)) false (.done outcome)))), [],
        some fun _ => pure (.bool false), none, true⟩
  | _ => .none

/-- A store that counts actions and starts their errands. -/
def errands (outcome : Except RunFailure Json) : Host Nat (fun _ : Unit => Json) () :=
  .store ⟨fun state action => pure (.ok (.withCmd (state + 1) (errand outcome action))),
    .default, .silent⟩

theorem forgetting_errands (outcome other : Except RunFailure Json) :
    (errands outcome).forgetting = (errands other).forgetting := by
  have same (action : Json) : (errand outcome action).forgetting = (errand other action).forgetting := by
    cases action <;> rfl
  let host (forgotten : Json → Cmd Nat (fun _ : Unit => Json) ()) : Host Nat (fun _ : Unit => Json) () :=
    .store ⟨fun state action => pure (.ok (.withCmd (state + 1) (forgotten action))), .default, .silent⟩
  exact congrArg host (funext same)

/-- A session in which an errand is run. -/
def running (outcome : Except RunFailure Json) : Session Nat (fun _ : Unit => Json) () :=
  { counting with host := errands outcome }

/-- Whether the errand fails or not, three actions are counted in the end; only the failure is logged. -/
theorem errands_decide_nothing :
    let script : List (Step Nat (fun _ : Unit => Json) ()) :=
      [.setGate "door" true, .dispatch .null false, .advance .zero false]
    let first := (running (.error (.message "lost"))).serve script
    let second := (running (.ok .null)).serve script
    first.2.AlikeBut LogEntry.isDetached second.2 ∧ second.2.world.state = 3 ∧
      second.2.world.trace.length + 1 = first.2.world.trace.length := by
  intro script first second
  have inert := detached_decides_nothing (running (.error (.message "lost"))) (errands (.ok .null)) script
    script (forgetting_errands _ _) rfl
  have alike : first.2.AlikeBut LogEntry.isDetached second.2 := inert.2.2.2
  have state : first.2.world.state = 3 := by decide +kernel
  exact ⟨alike, alike.state.trans state, by decide +kernel⟩

end Session

end EffectLoop
