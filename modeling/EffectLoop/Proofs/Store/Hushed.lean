import EffectLoop.World.Host
import EffectLoop.Proofs.Command.Hushed
import EffectLoop.Proofs.World.Hushing

/-!
# Hosts without some lines of the log

`Host.hushed` is a host whose functions write none of the lines that a silencing leaves out, with the
options changed accordingly.  The engine of a host is hushed by the engine of the hushed host
(`Host.engine_hushed`): dispatches tell, commit and cause the same, however deep they nest.
-/

namespace EffectLoop

variable {S ι : Type} {Action : ι → Type} {A α β : Type} {alphabet : ι}

open Run (HushedIn)

section Hushed

variable (silencing : Silencing)

/-- The loop whose functions write no line that is left out. -/
def Loop.hushed : Loop S Action alphabet → Loop S Action alphabet
  | .model state => .model state
  | .withCmd state cmd => .withCmd state (cmd.hushed silencing)

theorem Loop.lift_hushed (loop : Loop S Action alphabet) :
    (loop.hushed silencing).lift = (loop.lift.1, loop.lift.2.hushed silencing) := by
  cases loop <;> rfl

/-- The store whose functions write no line that is left out, with changed options. -/
def Store.hushed (store : Store S Action alphabet) : Store S Action alphabet where
  reducer state action := Except.map (Loop.hushed silencing) <$> store.reducer state action
  options := silencing.options store.options
  observer := store.observer

/-- The host whose functions write no line that is left out, with changed options. -/
def Host.hushed : Host S Action alphabet → Host S Action alphabet
  | recording options plan => recording (silencing.options options) plan
  | store held => store (held.hushed silencing)

theorem Host.options_hushed (host : Host S Action alphabet) :
    (host.hushed silencing).options = silencing.options host.options := by
  cases host <;> rfl

end Hushed

/-! ## Hosts that write no such line themselves -/

/-- No command of the reducer writes a line about a handled failure itself. -/
def Store.Discreet (store : Store S Action alphabet) : Prop :=
  ∀ state action loop, (store.reducer state action).value = .ok loop → loop.lift.2.Discreet

/-- Nothing that the host brings in writes a line about a handled failure itself. -/
def Host.Discreet : Host S Action alphabet → Prop
  | recording _ _ => True
  | store held => held.Discreet

/-- The host with other options. -/
def Host.withOptions (host : Host S Action alphabet) (options : Options) : Host S Action alphabet :=
  match host with
  | recording _ plan => recording options plan
  | store held => store { held with options }

theorem Loop.hushed_of_discreet {loop : Loop S Action alphabet} (discreet : loop.lift.2.Discreet) :
    loop.hushed .handledFailures = loop := by
  cases loop with
  | model state => rfl
  | withCmd state cmd => exact congrArg (withCmd state) (Cmd.Discreet.hushed discreet)

theorem Store.Discreet.hushed {store : Store S Action alphabet} (discreet : store.Discreet) :
    store.hushed .handledFailures = { store with options := store.options.quiet } := by
  have reducer : (store.hushed .handledFailures).reducer = store.reducer := by
    funext state action
    have same : Except.map (Loop.hushed .handledFailures) (store.reducer state action).value =
        (store.reducer state action).value := by
      cases answered : (store.reducer state action).value with
      | error refused => rfl
      | ok loop => exact congrArg Except.ok (Loop.hushed_of_discreet (discreet _ _ loop answered))
    ext1
    · exact List.append_nil _
    · exact same
  exact congrArg (Store.mk · store.options.quiet store.observer) reducer

theorem Host.Discreet.hushed {host : Host S Action alphabet} (discreet : host.Discreet)
    (options : Options) :
    (host.withOptions options).hushed .handledFailures = host.withOptions options.quiet := by
  cases host with
  | recording _ plan => rfl
  | store held =>
      have same : Store.Discreet { held with options } := discreet
      exact congrArg Host.store same.hushed

/-- The options are all that tells the host from the one with the lines switched off. -/
theorem Host.hushed_withOptions (host : Host S Action alphabet) (options : Options) :
    (host.withOptions options).hushed .handledFailures =
      (host.withOptions options.quiet).hushed .handledFailures := by
  cases host <;> rfl

/-! ## Dispatching -/

/-- Leaving the notes of a value of which something becomes. -/
theorem Run.adopt_map_hushed {mute : LogEntry → Bool} (image : α → β) (found : Noted α)
    (world : World S Action A) :
    HushedIn mute image (adopt found) (adopt (image <$> found)) world := by
  have notes : (image <$> found).notes = found.notes := List.append_nil found.notes
  rw [adopt, adopt, notes]
  exact .update (annotate_isOpen world found.notes) (world.hush_annotate mute found.notes).symm
    (.pure found.value)

variable (silencing : Silencing)

theorem FollowUp.hushed_settle (pending : FollowUp S Action (Action alphabet) alphabet) :
    Pending.hushed silencing pending.settle = FollowUp.settle (Pending.hushed silencing pending) := by
  rw [settle, Pending.hushed, Pending.hush_bind, settle]
  congr 1
  funext result
  cases result <;> rfl

theorem Plan.hushed_pending (plan : Plan) :
    Pending.hushed silencing (plan.pending : Settling S Action (Action alphabet)) = plan.pending := by
  rw [pending]
  cases plan.gate with
  | none => rfl
  | some gate => rfl

namespace Store

variable (store : Store S Action alphabet) {world : World S Action (Action alphabet)}

theorem observe_hushed (seen : Observation (Action alphabet)) :
    HushedIn silencing.mute id (store.observe seen) ((store.hushed silencing).observe seen) world := by
  have delivered (deliveries : List (Delivery (Action alphabet)))
      (world : World S Action (Action alphabet)) :
      HushedIn silencing.mute id (deliveries.forM fun delivery => Run.emit (.delivered delivery))
        (deliveries.forM fun delivery => Run.emit (.delivered delivery)) world := by
    induction deliveries generalizing world with
    | nil => exact .pure _
    | cons delivery rest ih =>
        apply (Run.emit_hushed world rfl).bind
        intro _ after _
        exact ih after
  apply (Run.emit_hushed world rfl).bind
  intro _ after _
  exact delivered (store.observer seen) after

theorem commit_hushed (state : S) :
    HushedIn silencing.mute id (commit state : Run S Action (Action alphabet) Unit) (commit state)
      world :=
  .update rfl rfl (Run.emit_hushed _ rfl)

theorem reduce_hushed (action : Action alphabet) :
    HushedIn silencing.mute (Loop.hushed silencing) (store.reduce action)
      ((store.hushed silencing).reduce action)
      world := by
  apply (Run.perform_hushed world silencing.spares .readState).bind
  intro state middle _
  apply (Run.adopt_map_hushed (Except.map (Loop.hushed silencing)) (store.reducer state action) middle).bind
  intro result after _
  cases result with
  | ok loop => exact .pure loop
  | error refused => exact .throw _

section Engine

variable {loud soft : Engine S Action (Action alphabet)} {isOpen : Bool}
variable (hushed : Engine.Hushed silencing.mute isOpen loud soft)
variable (openness : world.isOpen = isOpen)
include hushed openness

theorem launch_hushed (cmd : Cmd S Action alphabet) :
    HushedIn silencing.mute (Pending.hushed silencing) (store.launch loud cmd)
      ((store.hushed silencing).launch soft (cmd.hushed silencing)) world := by
  have kind : (cmd.hushed silencing).kind = cmd.kind := by cases cmd <;> rfl
  have isNone : (cmd.hushed silencing).isNone = cmd.isNone := by rw [Cmd.isNone, kind, Cmd.isNone]
  rw [launch, launch, isNone, kind]
  split
  · exact .pure _
  · apply store.observe_hushed silencing (.effect cmd.kind) |>.bind
    intro _ middle lasts
    have executed : (cmd.execute store.options).hush silencing.mute (Verdict.hushed silencing) =
        (cmd.hushed silencing).execute (store.hushed silencing).options :=
      cmd.hushed_execute silencing store.options
    have run := Prompt.run_hushed silencing.spares hushed (Verdict.hushed silencing)
      (cmd.execute store.options) (lasts.trans openness)
    rw [executed] at run
    apply run.bind
    intro verdict after _
    cases verdict with
    | error cause => exact .pure _
    | ok found =>
        cases found with
        | none => exact .pure _
        | some pending =>
            exact .pure_of (FollowUp.hushed_settle silencing pending)

theorem start_hushed (loop : Loop S Action alphabet) :
    HushedIn silencing.mute (Pending.hushed silencing) (store.start loud loop)
      ((store.hushed silencing).start soft (loop.hushed silencing)) world := by
  rw [start, start, loop.lift_hushed silencing]
  apply (commit_hushed silencing loop.lift.1).bind
  intro _ after lasts
  exact store.launch_hushed silencing hushed (lasts.trans openness) loop.lift.2

theorem dispatch_hushed (action : Action alphabet) :
    HushedIn silencing.mute (Pending.hushed silencing) (store.dispatch loud action)
      ((store.hushed silencing).dispatch soft action) world := by
  apply (store.observe_hushed silencing (.dispatch action)).bind
  intro _ middle lasts
  apply (store.reduce_hushed silencing action).bind
  intro loop after lastsAgain
  exact store.start_hushed silencing hushed (lastsAgain.trans (lasts.trans openness)) loop

end Engine

end Store

/-- However deep dispatches may nest, the engine of a host is hushed by that of the hushed host. -/
theorem Host.engine_hushed (host : Host S Action alphabet) (isOpen : Bool) (depth : Nat) :
    Engine.Hushed silencing.mute isOpen (host.engine depth) ((host.hushed silencing).engine depth) := by
  induction depth with
  | zero =>
      constructor
      · exact fun _ _ _ => .throw _
      · exact fun _ _ _ _ => .throw _
  | succ depth ih =>
      constructor
      · intro action world openness
        cases host with
        | recording options plan =>
            apply (Run.emit_hushed world rfl).bind
            intro _ after _
            exact .pure_of ((plan action).hushed_pending silencing)
        | store held =>
            apply HushedIn.look
            change HushedIn _ _ _ (if world.isOpen = true then _ else _) world
            split
            · exact held.dispatch_hushed silencing ih openness action
            · exact .pure _
      · intro answer waiter pending world openness
        exact Pending.poll_hushed silencing.spares ih waiter pending openness

end EffectLoop
