import EffectLoop.Proofs.Program.Editing
import EffectLoop.Proofs.Command.Distribution

/-!
# Editing what commands write

An edition of a command is an edit of what its functions, its creators and its taggers write, together
with a change of what decides nothing but which lines are written: of the options, or of the outcomes of
detached work.  Executing the edited command with the changed options is executing the command and editing
what it writes (`Cmd.revised_execute`).
-/

namespace EffectLoop

variable {S ι : Type} {Action : ι → Type} {A α β : Type} {answer : Answer ι} {alphabet child : ι}

/-- The edit puts the other effect in the place of this one. -/
def Edit.Makes (edits : Edit) (effect other : Primitive) : Prop :=
  ∀ S : Type, ∃ same, (edits.effect effect : Edited S effect) = .made other same

theorem Edit.makes_log {edits : Edit} {entry : LogEntry} (audible : edits.mute entry = false) :
    edits.Makes (.log entry) (.log entry) :=
  fun _ => ⟨rfl, effect_log audible⟩

/-- An edit, and what is to be changed for it. -/
structure Edition where
  edits : Edit
  options : Options → Options
  /-- What becomes of the outcomes of detached work. -/
  detached : Except RunFailure Json → Except RunFailure Json
  handled : ∀ original cause,
    edits.Makes (original.reportHandled cause) ((options original).reportHandled cause)
  reported : ∀ outcome,
    edits.Makes (RunSpec.reportDetached outcome) (RunSpec.reportDetached (detached outcome))
  unhandled : ∀ cause, edits.mute (.unhandledFailure cause) = false
  uncaught : ∀ cause, edits.mute (.uncaughtFailure cause) = false
  firing : ∀ cause, edits.mute (.firingFailure cause) = false
  scheduled : ∀ handle delay repeating, edits.mute (.commandScheduled handle delay repeating) = false

variable (edition : Edition)

namespace Pending

/-- What an edition makes of a computation. -/
abbrev revised (program : Pending S Action A answer) : Pending S Action A answer :=
  program.edit edition.edits

variable {edition}

/-- An effect whose reply does not matter. -/
theorem revised_call_of {effect other : Primitive} (makes : edition.edits.Makes effect other)
    (next : Pending S Action A answer) :
    (call effect fun _ => next).revised edition = .call other fun _ => next.revised edition := by
  rcases makes S with ⟨same, made⟩
  exact edit_call_of made next

end Pending

namespace Prompt

/-- What an edition makes of a computation; `image` is what becomes of the result. -/
abbrev revised (image : α → β) (program : Prompt S Action A α) : Prompt S Action A β :=
  program.edit edition.edits image

variable {edition} {image : α → β}

/-- An effect whose reply does not matter. -/
theorem revised_call_of {effect other : Primitive} (makes : edition.edits.Makes effect other)
    (next : Prompt S Action A α) :
    (call effect fun _ => next).revised edition image =
      .call other fun _ => next.revised edition image := by
  rcases makes S with ⟨same, made⟩
  exact edit_call_of made next

end Prompt

/-- What an edition makes of the output of a RUN function. -/
def RunResult.revised (forced : Bool) : RunResult S Action A → RunResult S Action A
  | .ready outcome => .ready outcome
  | .deferred later =>
      .deferred (if forced then
        (later.revised edition).bind fun outcome => .done (edition.detached outcome)
      else later.revised edition)

/-- What an edition makes of a RUN. -/
def RunSpec.revised (spec : RunSpec S Action A) : RunSpec S Action A where
  func args := (spec.func args).revised edition (.revised edition spec.forceSync)
  args := spec.args
  onSuccess := spec.onSuccess.map fun creator value => (creator value).edit edition.edits
  onFail := spec.onFail.map fun creator cause => (creator cause).edit edition.edits
  forceSync := spec.forceSync

/-- What an edition makes of a command. -/
def Cmd.revised : {alphabet : ι} → Cmd S Action alphabet → Cmd S Action alphabet
  | _, .none => .none
  | _, .action sent => .action sent
  | _, .run spec => .run (spec.revised edition)
  | _, .list cmds sequence batch => .list (fun index => (cmds index).revised) sequence batch
  | _, .map nested tagger args =>
      .map nested.revised (fun args action => (tagger args action).edit edition.edits) args
  | _, .scheduled nested delay repeating onScheduled =>
      .scheduled nested.revised delay repeating
        (onScheduled.map fun creator handle => (creator handle).edit edition.edits)

/-- What an edition makes of a verdict. -/
def Verdict.revised : Verdict S Action A alphabet → Verdict S Action A alphabet :=
  Except.map (Option.map (Pending.revised edition))

/-- What an edition makes of a start. -/
abbrev Start.revised (start : Start S Action alphabet) : Start S Action alphabet :=
  Prompt.revised edition (.revised edition) start

namespace FollowUp

theorem revised_andThen (first : FollowUp S Action A child)
    (after : List (Action child) → FollowUp S Action A alphabet) :
    Pending.revised edition (first.andThen after) =
      FollowUp.andThen (Pending.revised edition first) fun actions =>
        Pending.revised edition (after actions) := by
  rw [andThen, Pending.revised, Pending.edit_bind, andThen]
  congr 1
  funext result
  cases result <;> rfl

/-- What dispatches actions leaves no notes of its own. -/
theorem revised_sendAll (actions : List (Action alphabet))
    (next : Except CmdFailure Unit → Pending S Action (Action alphabet) answer) :
    Pending.revised edition (.sendAll (actions.map pure) next) =
      .sendAll (actions.map pure) fun reply => Pending.revised edition (next reply) := by
  rw [Pending.revised, Pending.edit, List.map_map]
  rfl

theorem revised_dispatched (first : FollowUp S Action (Action alphabet) alphabet) :
    Pending.revised edition first.dispatched =
      FollowUp.dispatched (Pending.revised edition first) := by
  rw [dispatched, revised_andThen, dispatched]
  congr 1
  funext actions
  rw [revised_sendAll]
  congr 1
  funext reply
  cases reply <;> rfl

theorem revised_all (siblings : List (FollowUp S Action A alphabet)) :
    Pending.revised edition (all siblings) = all (siblings.map (Pending.revised edition)) :=
  (all_map (Pending.revised edition) siblings).symm

theorem revised_tagged (tagger : Action child → Noted (Action alphabet))
    (first : FollowUp S Action (Action child) child) :
    Pending.revised edition (first.tagged tagger) =
      FollowUp.tagged (fun action => (tagger action).edit edition.edits)
        (Pending.revised edition first) := by
  rw [tagged, revised_andThen, tagged, Pending.revised, Pending.edit_retag]
  congr 1
  funext actions
  rw [← Noted.edit_mapM]
  exact Pending.edit_withNoted _ _ _

end FollowUp

theorem Verdict.revised_ofAction (found : Noted (Option (Action alphabet))) :
    Prompt.revised edition (Verdict.revised edition)
        (ofAction found : Prompt S Action A (Verdict S Action A alphabet)) =
      ofAction (found.edit edition.edits) := by
  have noted : (Prompt.ofNoted found : Prompt S Action A _).revised edition id =
      .ofNoted (found.edit edition.edits) := Prompt.edit_ofNoted _ found
  conv_rhs => unfold ofAction
  rw [← noted]
  apply Prompt.edit_bind
  intro action
  cases action <;> rfl

/-! ## Single RUNs -/

namespace RunSpec

variable (options : Options) (spec : RunSpec S Action (Action alphabet))

theorem revised_successAction (value : Json) :
    (spec.revised edition).successAction value = (spec.successAction value).edit edition.edits := by
  cases found : spec.onSuccess with
  | none => simp only [successAction, revised, found, Option.map_none, Noted.edit_pure]
  | some creator => simp only [successAction, revised, found, Option.map_some, Noted.edit_map]

theorem revised_failureAction (cause : RunFailure) :
    (spec.revised edition).failureAction cause = (spec.failureAction cause).edit edition.edits := by
  cases found : spec.onFail with
  | none => simp only [failureAction, revised, found, Option.map_none, Noted.edit_pure]
  | some creator => simp only [failureAction, revised, found, Option.map_some, Noted.edit_map]

theorem revised_settle (outcome : Except RunFailure Json) :
    Pending.revised edition (spec.settle options outcome) =
      (spec.revised edition).settle (edition.options options) outcome := by
  cases outcome with
  | ok value =>
      rw [settle, settle, revised_successAction]
      exact Pending.edit_withNoted _ _ _
  | error cause =>
      have onFail : (spec.revised edition).onFail =
          spec.onFail.map fun creator cause => (creator cause).edit edition.edits := rfl
      rw [settle, settle, onFail]
      cases spec.onFail with
      | none => exact Pending.revised_call_of (Edit.makes_log (edition.uncaught cause)) _
      | some creator =>
          refine (Pending.revised_call_of (edition.handled options cause) _).trans ?_
          rw [Pending.revised, Pending.edit_withNoted]
          rfl

/-- What is detached writes the line about its changed outcome. -/
theorem revised_detached (later : Pending S Action A .outcome) :
    (detached later).revised edition =
      detached ((later.revised edition).bind fun outcome => .done (edition.detached outcome)) := by
  rw [detached, detached, Pending.revised, Pending.edit_bind, Pending.bind_assoc]
  congr 1
  funext outcome
  exact Pending.revised_call_of (edition.reported outcome) _

theorem revised_executeReady (outcome : Except RunFailure Json) :
    Start.revised edition (spec.executeReady options outcome) =
      (spec.revised edition).executeReady (edition.options options) outcome := by
  cases outcome with
  | ok value =>
      rw [executeReady, executeReady, revised_successAction]
      exact Verdict.revised_ofAction edition _
  | error cause =>
      have onFail : (spec.revised edition).onFail =
          spec.onFail.map fun creator cause => (creator cause).edit edition.edits := rfl
      rw [executeReady, executeReady, onFail, revised_failureAction]
      cases spec.onFail with
      | none => exact Prompt.revised_call_of (Edit.makes_log (edition.unhandled cause)) _
      | some creator =>
          refine (Prompt.revised_call_of (edition.handled options cause) _).trans ?_
          exact congrArg (Prompt.call _) (funext fun _ => Verdict.revised_ofAction edition _)

theorem revised_executeDeferred (later : Pending S Action (Action alphabet) .outcome) :
    Start.revised edition (spec.executeDeferred options later) =
      (spec.revised edition).executeDeferred (edition.options options)
        (if spec.forceSync then
          (later.revised edition).bind fun outcome => .done (edition.detached outcome)
        else later.revised edition) := by
  have same : (spec.revised edition).forceSync = spec.forceSync := rfl
  rw [executeDeferred, executeDeferred, same]
  cases spec.forceSync with
  | true =>
      change Prompt.spawn ((detached later).revised edition) _ = Prompt.spawn _ _
      rw [revised_detached, revised_successAction]
      congr 1
      exact Verdict.revised_ofAction edition _
  | false =>
      change Prompt.done (Except.ok (some ((later.bind (spec.settle options)).revised edition))) =
        Prompt.done _
      rw [Pending.revised, Pending.edit_bind]
      congr 4
      funext outcome
      exact spec.revised_settle edition options outcome

theorem revised_execute :
    Start.revised edition (spec.execute options) =
      (spec.revised edition).execute (edition.options options) := by
  change _ = (spec.func spec.args).revised edition (RunResult.revised edition spec.forceSync) >>= _
  rw [execute]
  apply Prompt.edit_bind
  intro output
  cases output with
  | ready outcome => exact spec.revised_executeReady edition options outcome
  | deferred later => exact spec.revised_executeDeferred edition options later

end RunSpec

/-! ## Lists -/

theorem revised_siblings (batch : Bool)
    (verdicts : List (Verdict S Action (Action alphabet) alphabet)) :
    siblings batch (verdicts.map (Verdict.revised edition)) =
      (siblings batch verdicts).map (Pending.revised edition) := by
  rw [siblings, siblings, List.filterMap_map, List.map_filterMap]
  congr 1
  funext verdict
  cases verdict with
  | error cause => rfl
  | ok found =>
      cases found with
      | none => rfl
      | some pending =>
          cases batch with
          | true => rfl
          | false => exact congrArg some (FollowUp.revised_dispatched edition pending).symm

theorem revised_startTogether (batch : Bool) (starts : List (Start S Action alphabet)) :
    Start.revised edition (startTogether batch starts) =
      startTogether batch (starts.map (Start.revised edition)) := by
  have all : (starts.mapM id).revised edition (List.map (Verdict.revised edition)) =
      (starts.map (Start.revised edition)).mapM id := Prompt.edit_mapM edition.edits starts
  rw [startTogether, startTogether]
  change _ = (starts.map (Prompt.edit _ _)).mapM id >>= _
  rw [← all]
  apply Prompt.edit_bind
  intro verdicts
  rw [revised_siblings]
  cases siblings batch verdicts with
  | nil => rfl
  | cons first rest =>
      change Prompt.done (Except.ok (some (Pending.revised edition (FollowUp.all (first :: rest))))) = _
      rw [FollowUp.revised_all]
      rfl

theorem revised_arrive (batch : Bool)
    (onward : List (Action alphabet) → FollowUp S Action (Action alphabet) alphabet)
    (collected actions : List (Action alphabet)) :
    Pending.revised edition (arrive batch onward collected actions) =
      arrive batch (fun collected => Pending.revised edition (onward collected)) collected actions := by
  cases batch with
  | true => rfl
  | false =>
      refine (FollowUp.revised_sendAll edition actions _).trans ?_
      change Pending.sendAll _ _ = Pending.sendAll _ _
      congr 1
      funext reply
      cases reply <;> rfl

theorem revised_walk_of_onward (batch : Bool) (rest : List (Start S Action alphabet))
    (same : ∀ collected, Pending.revised edition (onward batch rest collected) =
      onward batch (rest.map (Start.revised edition)) collected)
    (collected : List (Action alphabet))
    (verdict : Verdict S Action (Action alphabet) alphabet) :
    Pending.revised edition (walk batch rest collected verdict) =
      walk batch (rest.map (Start.revised edition)) collected (verdict.revised edition) := by
  rw [walk_eq, walk_eq, ← funext same]
  cases verdict with
  | error cause => rfl
  | ok found =>
      cases found with
      | none => exact revised_arrive edition batch _ collected []
      | some pending =>
          change Pending.revised edition (FollowUp.andThen pending _) =
            FollowUp.andThen (Pending.revised edition pending) _
          rw [FollowUp.revised_andThen]
          congr 1
          funext actions
          exact revised_arrive edition batch _ collected actions

/-- What an edition makes of what is left of a sequential list. -/
theorem revised_walk (batch : Bool) (rest : List (Start S Action alphabet))
    (collected : List (Action alphabet))
    (verdict : Verdict S Action (Action alphabet) alphabet) :
    Pending.revised edition (walk batch rest collected verdict) =
      walk batch (rest.map (Start.revised edition)) collected (verdict.revised edition) := by
  induction rest generalizing collected verdict with
  | nil => exact revised_walk_of_onward edition batch [] (fun _ => rfl) collected verdict
  | cons next later ih =>
      apply revised_walk_of_onward
      intro collected
      exact Prompt.edit_thenPending _ next (ih collected)

theorem revised_startInOrder (batch : Bool) (starts : List (Start S Action alphabet)) :
    Start.revised edition (startInOrder batch starts) =
      startInOrder batch (starts.map (Start.revised edition)) := by
  cases starts with
  | nil => rfl
  | cons head rest =>
      apply Prompt.edit_bind
      intro verdict
      change Prompt.done (Except.ok (some (Pending.revised edition (walk batch rest [] verdict)))) = _
      rw [revised_walk]
      rfl

/-! ## Schedules -/

theorem revised_firing (start : Start S Action alphabet) :
    (firing start).revised edition = firing (start.revised edition) := by
  have failed (cause : CmdFailure) :
      (Pending.logging (.firingFailure cause) (.done ()) :
          Pending S Action (Action alphabet) .finished).revised edition =
        .logging (.firingFailure cause) (.done ()) :=
    Pending.revised_call_of (Edit.makes_log (edition.firing cause)) _
  apply Prompt.edit_thenPending
  intro verdict
  cases verdict with
  | error cause => exact failed cause
  | ok found =>
      cases found with
      | none => rfl
      | some pending =>
          change Pending.revised edition (Pending.bind pending _) =
            Pending.bind (Pending.revised edition pending) _
          rw [Pending.revised, Pending.edit_bind]
          congr 1
          funext result
          cases result with
          | error cause => exact failed cause
          | ok actions =>
              refine (FollowUp.revised_sendAll edition actions _).trans ?_
              change Pending.sendAll _ _ = Pending.sendAll _ _
              congr 1
              funext reply
              cases reply with
              | ok done => rfl
              | error cause => exact failed cause

/-- Executing an edited command with the changed options is executing it as it is and editing what it
writes. -/
theorem Cmd.revised_execute (options : Options) (cmd : Cmd S Action alphabet) :
    Start.revised edition (cmd.execute options) =
      (cmd.revised edition).execute (edition.options options) := by
  induction cmd with
  | none => rfl
  | action sent => rfl
  | run spec => exact spec.revised_execute edition options
  | list cmds sequence batch ih =>
      have starts : (List.ofFn fun index => (cmds index).execute options).map (Start.revised edition) =
          List.ofFn fun index => ((cmds index).revised edition).execute (edition.options options) := by
        rw [List.map_ofFn]
        congr 1
        funext index
        exact ih index
      cases sequence with
      | true =>
          change Start.revised edition (startInOrder batch _) = startInOrder batch _
          rw [revised_startInOrder, starts]
      | false =>
          change Start.revised edition (startTogether batch _) = startTogether batch _
          rw [revised_startTogether, starts]
  | map nested tagger args ih =>
      change Start.revised edition (Prompt.retag _ _ >>= _) = Prompt.retag _ _ >>= _
      rw [← ih, ← Prompt.edit_retag]
      apply Prompt.edit_bind
      intro verdict
      cases verdict with
      | error cause => rfl
      | ok found =>
          cases found with
          | none => rfl
          | some pending =>
              change Prompt.done (Except.ok (some (Pending.revised edition (pending.tagged _)))) = _
              rw [FollowUp.revised_tagged]
              rfl
  | scheduled nested delay repeating onScheduled ih =>
      change Prompt.schedule delay repeating ((firing _).revised edition) _ =
        Prompt.schedule delay repeating (firing _) _
      rw [revised_firing, ih]
      congr 1
      funext handle
      have logged := Edit.makes_log (edition.scheduled handle delay repeating)
      cases onScheduled with
      | none => exact Prompt.revised_call_of logged _
      | some creator =>
          refine (Prompt.revised_call_of logged _).trans ?_
          refine congrArg (Prompt.call _) (funext fun _ => ?_)
          refine (Verdict.revised_ofAction edition (some <$> creator handle)).trans ?_
          rw [Noted.edit_map]
          rfl

end EffectLoop
