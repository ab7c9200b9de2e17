import EffectLoop.Proofs.Program.Hush
import EffectLoop.Proofs.Command.Editing
import EffectLoop.Proofs.World.Hush

/-!
# Commands without some lines of the log

A *silencing* leaves lines out of the log that tell of failures.  With it goes a change of what decides
nothing but whether these lines are written: of the options, or of the outcomes of detached work.

`Cmd.hushed` is a command whose functions write none of these lines themselves, and whose detached work has
the changed outcomes.  Executing it with the changed options is executing the command and leaving these
lines out (`Cmd.hushed_execute`): what was changed decides nothing else.

The first silencing is that of handled failures.  A failure that a fail creator turns into an action is
handled, and the configuration says whether it is logged.
-/

namespace EffectLoop

variable {S ι : Type} {Action : ι → Type} {A α β : Type} {answer : Answer ι} {alphabet child : ι}

/-- Lines of the log to be left out, and what is to be changed for it. -/
structure Silencing where
  mute : LogEntry → Bool
  options : Options → Options
  /-- What becomes of the outcomes of detached work. -/
  detached : Except RunFailure Json → Except RunFailure Json
  handled : ∀ original cause,
    (Options.reportHandled original cause).hush mute = (options original).reportHandled cause
  reported : ∀ outcome,
    (RunSpec.reportDetached outcome).hush mute = RunSpec.reportDetached (detached outcome)
  unhandled : ∀ cause, mute (.unhandledFailure cause) = false
  uncaught : ∀ cause, mute (.uncaughtFailure cause) = false
  firing : ∀ cause, mute (.firingFailure cause) = false
  scheduled : ∀ handle delay repeating, mute (.commandScheduled handle delay repeating) = false
  spares : LogEntry.Spares mute

/-- What is hushed is what the edit puts in its place. -/
theorem Edit.Makes.of_hush {mute : LogEntry → Bool} {effect soft : Primitive}
    (same : effect.hush mute = soft) : (Edit.muting mute).Makes effect soft := by
  intro S
  subst same
  exact ⟨_, effect_muting mute effect⟩

section Hushed

variable (silencing : Silencing)

/-- The computation without the lines that are left out. -/
abbrev Pending.hushed (program : Pending S Action A answer) : Pending S Action A answer :=
  program.hush silencing.mute

/-- The computation without the lines that are left out; `image` is what becomes of the result. -/
abbrev Prompt.hushed (image : α → β) (program : Prompt S Action A α) : Prompt S Action A β :=
  program.hush silencing.mute image

/-- What a RUN function hands back, without the lines that are left out.  If nothing waits for it, it has
the changed outcome. -/
def RunResult.hushed (forced : Bool) : RunResult S Action A → RunResult S Action A
  | .ready outcome => .ready outcome
  | .deferred later =>
      .deferred (if forced then
        (later.hushed silencing).bind fun outcome => .done (silencing.detached outcome)
      else later.hushed silencing)

/-- The RUN whose function writes no line that is left out. -/
def RunSpec.hushed (spec : RunSpec S Action A) : RunSpec S Action A :=
  { spec with func := fun args => (spec.func args).hushed silencing (.hushed silencing spec.forceSync) }

/-- The command whose functions write no line that is left out. -/
def Cmd.hushed : {alphabet : ι} → Cmd S Action alphabet → Cmd S Action alphabet
  | _, .none => .none
  | _, .action sent => .action sent
  | _, .run spec => .run (spec.hushed silencing)
  | _, .list cmds sequence batch => .list (fun index => (cmds index).hushed) sequence batch
  | _, .map nested tagger args => .map nested.hushed tagger args
  | _, .scheduled nested delay repeating onScheduled =>
      .scheduled nested.hushed delay repeating onScheduled

end Hushed

/-! ## Lines about handled failures -/

/-- Is the line about a failure that a fail creator turns into an action? -/
def LogEntry.isHandled : LogEntry → Bool
  | .handledFailure _ => true
  | _ => false

/-- The lines that a task clock writes are not about failures. -/
theorem LogEntry.spares_isHandled : LogEntry.Spares LogEntry.isHandled where
  scheduled _ _ _ := rfl
  fired _ := rfl
  ticked _ := rfl
  cleared _ := rfl

@[simp] theorem Options.reportHandled_hush (options : Options) (cause : RunFailure) :
    (options.reportHandled cause).hush LogEntry.isHandled = options.quiet.reportHandled cause := by
  cases silenced : options.silenceHandled <;> simp [reportHandled, silenced, quiet] <;> rfl

/-- The lines about handled failures are left out, and switched off in the options. -/
def Silencing.handledFailures : Silencing where
  mute := LogEntry.isHandled
  options := Options.quiet
  detached := id
  handled := Options.reportHandled_hush
  reported outcome := by cases outcome <;> rfl
  unhandled _ := rfl
  uncaught _ := rfl
  firing _ := rfl
  scheduled _ _ _ := rfl
  spares := LogEntry.spares_isHandled

/-- Anything but writing a line about a handled failure. -/
abbrev Rules.discreet : Rules := .sparing LogEntry.isHandled

/-- What is pending of the output writes no line about a handled failure. -/
def RunResult.Discreet : RunResult S Action A → Prop
  | .ready _ => True
  | .deferred later => later.Within .discreet

/-- No function of the command writes a line about a handled failure itself. -/
def Cmd.Discreet : {alphabet : ι} → Cmd S Action alphabet → Prop
  | _, .none => True
  | _, .action _ => True
  | _, .run spec => ∀ args, (spec.func args).Within .discreet RunResult.Discreet
  | _, .list cmds _ _ => ∀ index, (cmds index).Discreet
  | _, .map nested _ _ => nested.Discreet
  | _, .scheduled nested _ _ _ => nested.Discreet

theorem RunResult.Discreet.hushed {output : RunResult S Action A} (discreet : output.Discreet)
    (forced : Bool) : output.hushed .handledFailures forced = output := by
  cases output with
  | ready outcome => rfl
  | deferred later =>
      have same : later.hushed .handledFailures = later := Pending.Within.hush discreet
      have kept : (later.hushed .handledFailures).bind
          (fun outcome => .done (Silencing.handledFailures.detached outcome)) = later := by
        rw [same]
        exact later.bind_done
      cases forced with
      | true => exact congrArg RunResult.deferred kept
      | false => exact congrArg RunResult.deferred same

theorem Cmd.Discreet.hushed {cmd : Cmd S Action alphabet} (discreet : cmd.Discreet) :
    cmd.hushed .handledFailures = cmd := by
  induction cmd with
  | none => rfl
  | action sent => rfl
  | run spec =>
      have func (args : List Arg) : (spec.func args).hushed .handledFailures
          (.hushed .handledFailures spec.forceSync) = spec.func args :=
        ((discreet args).mono fun _ within => within.hushed spec.forceSync).hush
      rw [Cmd.hushed, RunSpec.hushed, funext func]
  | list cmds sequence batch ih =>
      rw [Cmd.hushed, funext fun index => ih index (discreet index)]
  | map nested tagger args ih => rw [Cmd.hushed, ih discreet]
  | scheduled nested delay repeating onScheduled ih => rw [Cmd.hushed, ih discreet]

/-! ## Silencing what is executed -/

variable (silencing : Silencing)

/-- The verdict without the lines that are left out in what is pending. -/
def Verdict.hushed : Verdict S Action A alphabet → Verdict S Action A alphabet :=
  Except.map (Option.map (Pending.hushed silencing))

/-- The start without the lines that are left out. -/
abbrev Start.hushed (start : Start S Action alphabet) : Start S Action alphabet :=
  Prompt.hushed silencing (.hushed silencing) start

/-! ### As an edition -/

/-- The edition that mutes the lines that are left out. -/
def Silencing.edition : Edition where
  edits := .muting silencing.mute
  options := silencing.options
  detached := silencing.detached
  handled original cause := .of_hush (silencing.handled original cause)
  reported outcome := .of_hush (silencing.reported outcome)
  unhandled := silencing.unhandled
  uncaught := silencing.uncaught
  firing := silencing.firing
  scheduled := silencing.scheduled

theorem Pending.hushed_eq_revised (program : Pending S Action A answer) :
    program.hushed silencing = program.revised silencing.edition :=
  program.hush_eq_edit silencing.mute

theorem Verdict.hushed_eq_revised :
    (Verdict.hushed silencing : Verdict S Action A alphabet → _) = Verdict.revised silencing.edition :=
  congrArg (fun image => Except.map (Option.map image)) (funext (Pending.hushed_eq_revised silencing))

theorem RunResult.hushed_eq_revised (forced : Bool) :
    (RunResult.hushed silencing forced : RunResult S Action A → _) =
      RunResult.revised silencing.edition forced := by
  funext output
  cases output with
  | ready outcome => rfl
  | deferred later =>
      rw [hushed, revised, Pending.hushed_eq_revised]
      rfl

/-- No creator has anything to leave out. -/
theorem Noted.map_edit_muting {α β : Type} (mute : LogEntry → Bool)
    (creator : Option (α → Noted β)) :
    (creator.map fun creator value => (creator value).edit (.muting mute)) = creator := by
  simp only [Noted.edit_muting, Option.map_id']

theorem RunSpec.hushed_eq_revised (spec : RunSpec S Action A) :
    spec.hushed silencing = spec.revised silencing.edition := by
  have func (args : List Arg) :
      (spec.func args).hushed silencing (RunResult.hushed silencing spec.forceSync) =
        (spec.func args).revised silencing.edition (RunResult.revised silencing.edition spec.forceSync) := by
    rw [RunResult.hushed_eq_revised]
    exact Prompt.hush_eq_edit ..
  simp only [hushed, revised, Silencing.edition, Noted.map_edit_muting]
  exact congrArg (fun func => { spec with func }) (funext func)

theorem Cmd.hushed_eq_revised (cmd : Cmd S Action alphabet) :
    cmd.hushed silencing = cmd.revised silencing.edition := by
  induction cmd with
  | none => rfl
  | action sent => rfl
  | run spec => exact congrArg run (spec.hushed_eq_revised silencing)
  | list cmds sequence batch ih => simp only [hushed, revised, ih]
  | map nested tagger args ih =>
      simp only [hushed, revised, ih, Silencing.edition, Noted.edit_muting]
  | scheduled nested delay repeating onScheduled ih =>
      simp only [hushed, revised, ih, Silencing.edition, Noted.map_edit_muting]

/-- Executing a command of which the functions write no line that is left out, with the changed options, is
executing it as it is and leaving these lines out. -/
theorem Cmd.hushed_execute (options : Options) (cmd : Cmd S Action alphabet) :
    Start.hushed silencing (cmd.execute options) =
      (cmd.hushed silencing).execute (silencing.options options) := by
  rw [cmd.hushed_eq_revised, Start.hushed, Prompt.hushed, Prompt.hush_eq_edit,
    Verdict.hushed_eq_revised]
  exact cmd.revised_execute silencing.edition options

end EffectLoop
