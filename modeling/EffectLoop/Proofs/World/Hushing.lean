import EffectLoop.Proofs.World.Hush
import EffectLoop.Proofs.World.Preservation

/-!
# Polls that keep silent

A poll of a program is hushed by the poll of the silenced program, and what they leave is again a program
and the silenced one.  So whatever else happens between polls, silencing a program changes neither when it
is over nor what it ends with.  The same holds of a computation that is over in the call.
-/

namespace EffectLoop

variable {S ι : Type} {Action : ι → Type} {A α β : Type} {answer child : Answer ι}
variable {mute : LogEntry → Bool}

open Run (HushedIn)

/-! ## Effects -/

namespace World

theorem isOpen_wakeAll (waiters : List Waiter) (world : World S Action A) :
    (waiters.foldl wake world).isOpen = world.isOpen := by
  induction waiters generalizing world with
  | nil => rfl
  | cons waiter rest ih => exact (ih _).trans (sameFront_wake world waiter).2.2

end World

namespace Run

variable (world : World S Action A)

/-- Instead of a muted line, nothing. -/
theorem log_hushed_of {entry : LogEntry} (muted : mute entry) {soft : Primitive}
    (same : (Primitive.log entry).hush mute = soft)
    (reply : Unit = soft.Reply S) :
    HushedIn mute (cast reply) (perform (.log entry)) (perform soft) world := by
  have skip : (Primitive.log entry).hush mute = .skip := if_pos muted
  rw [skip] at same
  cases same
  constructor
  · rfl
  · have silent : Event.isAudible (S := S) (A := A) mute (.log entry) = false := by
      rw [Event.isAudible, muted, Bool.not_true]
    change (Except.ok (), world.hush mute) = (Except.ok (), (world.emit (.log entry)).hush mute)
    rw [world.hush_emit_of_muted mute silent]

theorem log_hushed {entry : LogEntry} (audible : mute entry = false) {soft : Primitive}
    (same : (Primitive.log entry).hush mute = soft)
    (reply : Unit = soft.Reply S) :
    HushedIn mute (cast reply) (perform (.log entry)) (perform soft) world := by
  have logged : (Primitive.log entry).hush mute = .log entry := by
    rw [Primitive.hush, audible, if_neg Bool.false_ne_true]
  rw [logged] at same
  cases same
  apply emit_hushed
  rw [Event.isAudible, audible, Bool.not_false]

/-- Performing an effect, without its line if that is muted. -/
theorem perform_hushed (spares : LogEntry.Spares mute) (effect : Primitive) :
    HushedIn mute (cast (effect.reply_hush mute).symm) (perform effect) (perform (effect.hush mute))
      world := by
  cases effect with
  | readState => exact .update rfl rfl (.look (.pure _))
  | note value => exact emit_hushed world rfl
  | log entry =>
      cases muted : mute entry with
      | true => exact log_hushed_of world muted rfl _
      | false => exact log_hushed world muted rfl _
  | setGate gate isOpen =>
      cases isOpen with
      | true => exact .change (World.isOpen_wakeAll _ _) (world.hush_unlock mute gate).symm
      | false => exact .change rfl rfl
  | clear handle => exact clear_hushed world spares handle
  | inspect =>
      have status : (world.hush mute).keeper.status = world.keeper.status := by
        cases keeper : world.keeper with
        | virtual clock =>
            rw [keeper_hush_virtual world keeper]
            simp [Keeper.status, VirtualClock.map, VirtualClock.pending, VirtualClock.queued]
        | tasks clock =>
            rw [keeper_hush_tasks world keeper]
            rfl
      exact .look (.pure_of status.symm)
  | wallClock => exact .look (.pure _)
  | deadline delay => exact deadline_hushed world delay
  | forget handle => exact forget_hushed world handle
  | skip => exact .pure ()

end Run

/-! ## Programs -/

/-- In a world whose store is open or closed as given, the second engine does in the silenced world what
the first does, without the muted lines. -/
structure Engine.Hushed (mute : LogEntry → Bool) (isOpen : Bool) (loud soft : Engine S Action A) :
    Prop where
  dispatch : ∀ action world, world.isOpen = isOpen →
    HushedIn mute (·.hush mute) (loud.dispatch action) (soft.dispatch action) world
  poll : ∀ {answer : Answer ι} (waiter : Waiter) (pending : Pending S Action A answer) world,
    world.isOpen = isOpen →
    HushedIn mute (·.hush mute) (loud.poll waiter pending) (soft.poll waiter (pending.hush mute)) world

/-- The last part of a poll that dispatches actions: what they cause is polled, and if it is over the
program goes on. -/
def Pending.awaiting (engine : Engine S Action A) (waiter : Waiter)
    (next : Except CmdFailure Unit → Pending S Action A answer)
    (family : Σ count, Fin count → Pending S Action A .settled) :
    Run S Action A (Pending S Action A answer) := do
  let (ticket, left) ← engine.pollFresh waiter family.2
  match results? left with
  | some results => (next (firstFailure results.get)).poll engine waiter
  | none => pure (.settling ticket left.get next)

theorem Pending.poll_sendAll (engine : Engine S Action A) (waiter : Waiter)
    (actions : List (Noted A)) (next : Except CmdFailure Unit → Pending S Action A answer) :
    (sendAll actions next).poll engine waiter =
      actions.mapM engine.start >>= fun caused => awaiting engine waiter next ⟨_, caused.get⟩ := by
  rw [poll]
  congr 1
  funext caused
  rw [awaiting]
  congr 1
  funext found
  dsimp only
  cases results? found.2 <;> rfl

/-- What an advance is to run next, silenced. -/
theorem Pending.advanceTo_map_hush (target : Duration) (tasks : List (Pending S Action A .finished))
    (next : Pending S Action A answer) :
    advanceTo target none (tasks.map (·.hush mute)).get (next.hush mute) =
      (advanceTo target none tasks.get next).hush mute := by
  let advancing (family : Σ count, Fin count → Pending S Action A .finished) :
      Pending S Action A answer :=
    advanceTo target none family.2 (next.hush mute)
  exact congrArg advancing (sigma_get_map (·.hush mute) tasks)

/-- An interval whose firing is over, silenced. -/
theorem Pending.interval_idle_hush (handle : TimerHandle) (period due : Duration)
    (task : Pending S Action A .finished) :
    (interval handle period due (task.hush mute) fun index : Fin 0 => index.elim0 :
      Pending S Action A answer) =
      (interval handle period due task fun index : Fin 0 => index.elim0).hush mute := by
  change _ = interval _ _ _ _ _
  congr 1
  funext index
  exact index.elim0

section Programs

variable {isOpen : Bool} {loud soft : Engine S Action A}
variable (spares : LogEntry.Spares mute) (hushed : Engine.Hushed mute isOpen loud soft)
variable {world : World S Action A} (openness : world.isOpen = isOpen)

namespace Rally

variable {pollLoud pollSoft : Waiter → Pending S Action A child →
  Run S Action A (Pending S Action A child)}

theorem openRally_hushed (count : Nat) :
    HushedIn mute id (openRally count) (openRally count) world :=
  .look (.update rfl rfl (.pure _))

theorem takeChild_hushed (ticket : Nat) :
    HushedIn mute id (takeChild ticket) (takeChild ticket) world := by
  apply HushedIn.look
  have rally : (world.hush mute).rally? ticket = world.rally? ticket := rfl
  rw [rally]
  cases world.rally? ticket with
  | none => exact .pure none
  | some rally =>
      dsimp only
      cases rally.queue with
      | nil => exact .pure none
      | cons place rest => exact .update rfl rfl (.pure _)

theorem finish_hushed (ticket place : Nat) :
    HushedIn mute id (finish ticket place) (finish ticket place) world := by
  apply HushedIn.look
  have rally : (world.hush mute).rally? ticket = world.rally? ticket := rfl
  rw [rally]
  cases world.rally? ticket with
  | none => exact .pure 0
  | some rally => exact .update rfl rfl (.pure _)

theorem isQueued_hushed (ticket place : Nat) :
    HushedIn mute id (isQueued ticket place) (isQueued ticket place) world :=
  .look (.pure _)

variable (polled : ∀ waiter pending world, world.isOpen = isOpen →
  HushedIn mute (·.hush mute) (pollLoud waiter pending) (pollSoft waiter (pending.hush mute)) world)
include polled

theorem poll_hushed (waiter : Waiter) (ticket : Nat) {count : Nat}
    (children : Vector (Pending S Action A child) count) (remaining stopped restless fuel : Nat)
    {world : World S Action A} (openness : world.isOpen = isOpen) :
    HushedIn mute (Vector.map (·.hush mute))
      (poll pollLoud waiter ticket children remaining stopped restless fuel)
      (poll pollSoft waiter ticket (children.map (·.hush mute)) remaining stopped restless fuel)
      world := by
  induction fuel generalizing children remaining stopped restless world with
  | zero => exact .pure children
  | succ fuel ih =>
      apply (takeChild_hushed ticket).bind
      intro taken middle lasts
      cases taken with
      | none => exact .pure children
      | some place =>
          dsimp only [id]
          split
          next inside =>
              rw [Vector.getElem_map]
              apply (polled _ _ middle (lasts.trans openness)).bind
              intro left later lastsLater
              replace openness := lastsLater.trans (lasts.trans openness)
              rw [← Vector.map_set, Pending.result?_hush]
              cases left.result? with
              | some value =>
                  apply (finish_hushed ticket place).bind
                  intro before after lasts
                  exact ih _ _ _ _ (lasts.trans openness)
              | none =>
                  apply (isQueued_hushed ticket place).bind
                  intro queued after lasts
                  -- The queue only decides the count of restless children; both cases go on alike.
                  dsimp only [id]
                  split
                  all_goals
                    split
                    · exact .update (World.sameFront_wake after waiter).2.2 
                        (after.hush_wake mute waiter).symm (.pure _)
                    · exact ih _ _ _ _ (lasts.trans openness)
          next => exact .pure children

theorem resume_hushed (waiter : Waiter) (ticket : Nat) {count : Nat}
    (children : Fin count → Pending S Action A child) {world : World S Action A}
    (openness : world.isOpen = isOpen) :
    HushedIn mute (Vector.map (·.hush mute)) (resume pollLoud waiter ticket children)
      (resume pollSoft waiter ticket fun index => (children index).hush mute) world := by
  apply HushedIn.look
  have family : Vector.ofFn (fun index => (children index).hush mute) =
      (Vector.ofFn children).map (·.hush mute) := by
    ext index inside
    rw [Vector.getElem_map, Vector.getElem_ofFn, Vector.getElem_ofFn]
  rw [family]
  exact poll_hushed polled waiter ticket (Vector.ofFn children) _ 0 0 _ openness

end Rally

/-- A ticket and what is left of the children, silenced. -/
def hushLeft (mute : LogEntry → Bool) {count : Nat}
    (found : Option Nat × Vector (Pending S Action A child) count) :
    Option Nat × Vector (Pending S Action A child) count :=
  (found.1, found.2.map (·.hush mute))

section Left

variable {count : Nat} (found : Option Nat × Vector (Pending S Action A child) count)

theorem hushLeft_fst : (hushLeft mute found).1 = found.1 := rfl

theorem results?_hushLeft : results? (hushLeft mute found).2 = results? found.2 := by
  rw [hushLeft, results?, results?, Vector.mapM_map]
  congr 1
  funext pending
  exact Pending.result?_hush mute pending

theorem get_hushLeft :
    (hushLeft mute found).2.get = fun index => (found.2.get index).hush mute := by
  funext index
  exact Vector.getElem_map _ index.isLt

end Left

namespace Engine.Hushed

include hushed openness

theorem start (action : Noted A) :
    HushedIn mute (·.hush mute) (loud.start action) (soft.start action) world := by
  apply (Run.adopt_hushed world action).bind
  intro value after lasts
  exact hushed.dispatch value after (lasts.trans openness)

theorem send (action : Noted A) (keep : Bool) :
    HushedIn mute id (loud.send action keep) (soft.send action keep) world := by
  apply (hushed.start openness action).bind
  intro caused after _
  cases keep with
  | true =>
      apply HushedIn.change
      · rfl
      · simp [World.hush]
  | false => exact .pure _

theorem pollFresh (waiter : Waiter) {count : Nat}
    (children : Fin count → Pending S Action A child) :
    HushedIn mute (hushLeft mute) (loud.pollFresh waiter children)
      (soft.pollFresh waiter fun index => (children index).hush mute) world := by
  unfold Engine.pollFresh
  split
  · apply HushedIn.bind
    · apply HushedIn.ofFnM
      intro index after lasts
      exact hushed.poll waiter (children index) after (lasts.trans openness)
    · intro left after _
      exact .pure (none, left)
  · apply (Rally.openRally_hushed count).bind
    intro ticket middle lasts
    apply (Rally.resume_hushed hushed.poll waiter ticket children (lasts.trans openness)).bind
    intro left after _
    exact .pure (some ticket, left)

theorem pollJoin (waiter : Waiter) {count : Nat} (ticket : Option Nat)
    (children : Fin count → Pending S Action A child)
    {eachLoud eachSoft : Fin count → Run S Action A (Pending S Action A child)}
    (each : ∀ index after, after.isOpen = isOpen →
      HushedIn mute (·.hush mute) (eachLoud index) (eachSoft index) after) :
    HushedIn mute (hushLeft mute) (loud.pollJoin waiter ticket children eachLoud)
      (soft.pollJoin waiter ticket (fun index => (children index).hush mute) eachSoft) world := by
  unfold Engine.pollJoin
  split
  · apply HushedIn.bind
    · apply HushedIn.ofFnM
      intro index after lasts
      exact each index after (lasts.trans openness)
    · intro left after _
      exact .pure (ticket, left)
  · cases ticket with
    | none => exact hushed.pollFresh openness waiter children
    | some ticket =>
        apply (Rally.resume_hushed hushed.poll waiter ticket children openness).bind
        intro left after _
        exact .pure (some ticket, left)

end Engine.Hushed

include spares hushed

/-- A call of a silenced computation that is over in the call. -/
theorem Prompt.run_hushed (image : α → β) (program : Prompt S Action A α) {world : World S Action A}
    (openness : world.isOpen = isOpen) :
    HushedIn mute image (program.run loud) ((program.hush mute image).run soft) world := by
  induction program generalizing world with
  | done value => exact .pure value
  | call effect next ih =>
      apply (Run.perform_hushed world spares effect).bind
      intro reply after lasts
      dsimp only
      rw [cast_cast, cast_eq]
      exact ih reply (lasts.trans openness)
  | send action keep next ih =>
      apply (hushed.send openness action keep).bind
      intro _ after lasts
      exact ih (lasts.trans openness)
  | schedule delay repeating task next ih =>
      apply (Run.schedule_hushed world spares delay repeating task).bind
      intro handle after lasts
      exact ih handle (lasts.trans openness)
  | spawn task next ih =>
      apply (Run.spawn_hushed world task).bind
      intro _ after lasts
      exact ih (lasts.trans openness)

/-- A poll of a silenced program. -/
theorem Pending.poll_hushed (waiter : Waiter) (program : Pending S Action A answer)
    {world : World S Action A} (openness : world.isOpen = isOpen) :
    HushedIn mute (·.hush mute) (program.poll loud waiter) ((program.hush mute).poll soft waiter)
      world := by
  induction program generalizing world with
  | done value => exact .pure (done value)
  | call effect next ih =>
      apply (Run.perform_hushed world spares effect).bind
      intro reply after lasts
      dsimp only
      rw [cast_cast, cast_eq]
      exact ih reply (lasts.trans openness)
  | send action keep next ih =>
      apply (hushed.send openness action keep).bind
      intro _ after lasts
      exact ih (lasts.trans openness)
  | schedule delay repeating task next _ ih =>
      apply (Run.schedule_hushed world spares delay repeating task).bind
      intro handle after lasts
      exact ih handle (lasts.trans openness)
  | spawn task next _ ih =>
      apply (Run.spawn_hushed world task).bind
      intro _ after lasts
      exact ih (lasts.trans openness)
  | wait gate next ih =>
      apply HushedIn.look
      change HushedIn mute _ _ (if world.gates.isOpen gate = true then _ else _) world
      split
      · exact ih openness
      · exact .update rfl rfl (.pure (wait gate next))
  | resumeAt moment next ih =>
      apply HushedIn.look
      cases keeper : world.keeper with
      | virtual clock =>
          rw [Run.keeper_hush_virtual world keeper]
          change HushedIn mute _ _ (if moment ≤ clock.now then _ else _) world
          dsimp only
          split
          · exact ih openness
          · exact .pure (resumeAt moment next)
      | tasks clock =>
          rw [Run.keeper_hush_tasks world keeper]
          change HushedIn mute _ _ (if moment ≤ clock.now then _ else _) world
          dsimp only
          split
          · exact ih openness
          · exact .update rfl rfl (.pure (resumeAt moment next))
  | sendAll actions next ih =>
      rw [hush, poll_sendAll, poll_sendAll]
      apply (HushedIn.mapM actions fun action after lasts =>
        hushed.start (lasts.trans openness) action).bind
      intro caused after lasts
      rw [sigma_get_map]
      apply (hushed.pollFresh (lasts.trans openness) waiter caused.get).bind
      intro found later lastsLater
      dsimp only
      rw [results?_hushLeft, get_hushLeft, hushLeft_fst]
      cases results? found.2 with
      | some results => exact ih _ (lastsLater.trans (lasts.trans openness))
      | none => exact .pure (settling found.1 found.2.get next)
  | settling ticket caused next causedIH ih =>
      rw [hush, poll, poll]
      apply (hushed.pollJoin openness waiter ticket caused causedIH).bind
      intro found after lasts
      dsimp only
      rw [results?_hushLeft, get_hushLeft, hushLeft_fst]
      cases results? found.2 with
      | some results => exact ih _ (lasts.trans openness)
      | none => exact .pure (settling found.1 found.2.get next)
  | join ticket children next childrenIH ih =>
      rw [hush, poll, poll]
      apply (hushed.pollJoin openness waiter ticket children childrenIH).bind
      intro found after lasts
      dsimp only
      rw [results?_hushLeft, get_hushLeft, hushLeft_fst]
      cases results? found.2 with
      | some results => exact ih _ (lasts.trans openness)
      | none => exact .pure (join found.1 found.2.get next)
  | advanceTo target ticket driven next drivenIH ih =>
      rw [hush, poll, poll]
      apply HushedIn.look
      cases keeper : world.keeper with
      | virtual clock =>
          rw [Run.keeper_hush_virtual world keeper]
          apply (hushed.pollJoin openness waiter ticket driven drivenIH).bind
          intro found after lasts
          dsimp only
          rw [results?_hushLeft, get_hushLeft, hushLeft_fst]
          cases results? found.2 with
          | none => exact .pure (advanceTo target found.1 found.2.get next)
          | some results =>
              apply (Run.nextDriven_hushed after target).bind
              intro due later lastsLater
              have openLater := lastsLater.trans (lasts.trans openness)
              cases due with
              | none => exact ih openLater
              | some tasks =>
                  change HushedIn mute _ _
                    (soft.poll waiter (advanceTo target none (tasks.map _).get (next.hush mute))) later
                  rw [advanceTo_map_hush]
                  exact hushed.poll waiter (advanceTo target none tasks.get next) later openLater
      | tasks clock =>
          rw [Run.keeper_hush_tasks world keeper]
          change HushedIn mute _ _ (if target ≤ clock.now then _ else _) world
          dsimp only
          split
          · exact ih openness
          · exact .update rfl rfl (.pure (advanceTo target ticket driven next))
  | interval handle period due task running _ runningIH =>
      rw [hush, poll, poll]
      apply (hushed.pollJoin openness waiter none running runningIH).bind
      intro found after lasts
      dsimp only
      rw [results?_hushLeft, get_hushLeft]
      cases results? found.2 with
      | none => exact .pure (interval handle period due task found.2.get)
      | some results =>
          apply HushedIn.look
          cases keeper : after.keeper with
          | virtual clock =>
              rw [Run.keeper_hush_virtual after keeper]
              exact .pure_of (interval_idle_hush handle period due task).symm
          | tasks clock =>
              rw [Run.keeper_hush_tasks after keeper]
              change HushedIn mute _ _ (if due ≤ clock.now then _ else _) after
              dsimp only
              split
              · have audible : Event.isAudible (S := S) (A := A) mute
                    (.log (.intervalFired handle)) := by
                  rw [Event.isAudible, spares.ticked, Bool.not_false]
                apply (Run.emit_hushed after audible).bind
                intro _ later lastsLater
                exact hushed.poll waiter
                  (interval handle period (clock.nextDue period due) task fun _ : Fin 1 => task) later
                  (lastsLater.trans (lasts.trans openness))
              · rw [interval_idle_hush]
                exact .update rfl rfl (.pure (interval handle period due task _))

end Programs

end EffectLoop
