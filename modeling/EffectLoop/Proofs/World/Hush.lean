import EffectLoop.World.Poll
import EffectLoop.Proofs.Program.Hush
import EffectLoop.Proofs.Time.Replacing
import EffectLoop.Proofs.World.Families
import EffectLoop.Proofs.World.Scheduling

/-!
# Runs that keep silent

`World.hush mute` is a world without the muted lines: they are left out of the trace, and out of all
computations that the world holds.  A computation is *hushed* by another if, started in the silenced
world, the other does what the first does, with the muted lines left out.

Polls of a program are hushed by polls of the silenced program, wherever they stop.
-/

namespace EffectLoop

variable {S ι : Type} {Action : ι → Type} {A α β γ δ : Type} {answer child : Answer ι}
variable (mute : LogEntry → Bool)

/-- Is this no muted line? -/
def Event.isAudible : Event S A → Bool
  | .log entry => !mute entry
  | _ => true

/-- The task without the muted lines. -/
def LocalTask.hush : LocalTask S Action A → LocalTask S Action A
  | .background body => .background (body.hush mute)
  | .root number body => .root number (body.hush mute)

/-- The scheduler, its tasks without the muted lines. -/
def Keeper.hush : Keeper S Action A → Keeper S Action A
  | .virtual clock => .virtual (clock.map (·.hush mute))
  | .tasks clock => .tasks (clock.map (·.hush mute))

/-- The lines that a task clock writes itself are not muted. -/
structure LogEntry.Spares : Prop where
  scheduled : ∀ handle delay repeating, mute (.timerScheduled handle delay repeating) = false
  fired : ∀ handle, mute (.timeoutFired handle) = false
  ticked : ∀ handle, mute (.intervalFired handle) = false
  cleared : ∀ handle, mute (.timerCleared handle) = false

namespace World

/-- The world without the muted lines. -/
def hush (world : World S Action A) : World S Action A :=
  { world with
    kept := world.kept.map (·.hush mute)
    keeper := world.keeper.hush mute
    trace := world.trace.filter (·.isAudible mute) }

end World

/-! ## Worlds without muted lines -/

/-- The task is within the rules. -/
def LocalTask.Within (rules : Rules) : LocalTask S Action A → Prop
  | .background body => body.Within rules
  | .root _ body => body.Within rules

/-- The tasks of the scheduler are within the rules. -/
def Keeper.Within (rules : Rules) : Keeper S Action A → Prop
  | .virtual clock =>
      (∀ timer ∈ clock.timers, timer.task.Within rules) ∧ ∀ task ∈ clock.spawned, task.Within rules
  | .tasks clock => ∀ entry ∈ clock.tasks, entry.2.Within rules

/-- No muted line is in the trace, and no computation that the world holds writes one. -/
structure World.Spared (world : World S Action A) : Prop where
  kept : ∀ caused ∈ world.kept, caused.Within (.sparing mute)
  keeper : world.keeper.Within (.sparing mute)
  trace : ∀ event ∈ world.trace, event.isAudible mute

section Spared

variable {mute}

theorem LocalTask.Within.hush {task : LocalTask S Action A} (within : task.Within (.sparing mute)) :
    task.hush mute = task := by
  cases task with
  | background body => exact congrArg LocalTask.background (Pending.Within.hush within)
  | root number body => exact congrArg (LocalTask.root number) (Pending.Within.hush within)

theorem Keeper.Within.hush {keeper : Keeper S Action A} (within : keeper.Within (.sparing mute)) :
    keeper.hush mute = keeper := by
  cases keeper with
  | virtual clock =>
      apply congrArg Keeper.virtual
      apply clock.map_of_same
      · exact fun timer member => (within.1 timer member).hush
      · exact fun task member => (within.2 task member).hush
  | tasks clock =>
      apply congrArg Keeper.tasks
      apply clock.map_of_same
      exact fun entry member => (within entry member).hush

theorem World.Spared.hush {world : World S Action A} (spared : world.Spared mute) :
    world.hush mute = world := by
  have kept : world.kept.map (·.hush mute) = world.kept :=
    map_eq_self fun caused member => (spared.kept caused member).hush
  have trace : world.trace.filter (·.isAudible mute) = world.trace :=
    List.filter_eq_self.2 spared.trace
  rw [World.hush, kept, spared.keeper.hush, trace]

theorem World.spared_never (world : World S Action A) : world.Spared fun _ => false := by
  constructor
  · intro caused _
    rw [Rules.sparing_never]
    exact caused.within_lax
  · rw [Rules.sparing_never]
    have lax (task : LocalTask S Action A) : task.Within .lax := by
      cases task with
      | background body => exact body.within_lax
      | root number body => exact body.within_lax
    cases world.keeper with
    | virtual clock => exact ⟨fun timer _ => timer.task.within_lax, fun task _ => task.within_lax⟩
    | tasks clock => exact fun entry _ => lax entry.2
  · intro event _
    cases event <;> rfl

end Spared

namespace World

variable (world : World S Action A)

theorem hush_emit {event : Event S A} (audible : event.isAudible mute) :
    (world.emit event).hush mute = (world.hush mute).emit event := by
  simp only [hush, emit, List.filter_cons, audible, if_true]

theorem hush_emit_of_muted {event : Event S A} (muted : event.isAudible mute = false) :
    (world.emit event).hush mute = world.hush mute := by
  simp only [hush, emit, List.filter_cons, muted, Bool.false_eq_true, if_false]

theorem hush_annotate (notes : List Json) :
    (world.annotate notes).hush mute = (world.hush mute).annotate notes := by
  induction notes generalizing world with
  | nil => rfl
  | cons value rest ih =>
      change ((world.emit (.note value)).annotate rest).hush mute = _
      rw [ih, hush_emit mute world rfl]
      rfl

theorem hush_wakeRoot (root : Nat) :
    (world.wakeRoot root).hush mute = (world.hush mute).wakeRoot root := by
  cases keeper : world.keeper with
  | virtual clock => simp only [hush, wakeRoot, keeper, Keeper.hush]
  | tasks clock => simp only [hush, wakeRoot, keeper, Keeper.hush, TaskClock.map_enqueue]

theorem hush_wakeAlong (root : Nat) (path : List (Nat × Nat)) :
    (world.wakeAlong root path).hush mute = (world.hush mute).wakeAlong root path := by
  induction path generalizing world with
  | nil => exact hush_wakeRoot mute world root
  | cons step outer ih =>
      obtain ⟨ticket, child⟩ := step
      have rally : (world.hush mute).rally? ticket = world.rally? ticket := rfl
      rw [wakeAlong, wakeAlong, rally]
      cases world.rally? ticket with
      | none => rfl
      | some rally =>
          dsimp only
          split
          · rfl
          · exact ih _

theorem hush_wake (waiter : Waiter) : (world.wake waiter).hush mute = (world.hush mute).wake waiter :=
  hush_wakeAlong mute world waiter.root waiter.path

theorem hush_wakeAll (waiters : List Waiter) :
    (waiters.foldl wake world).hush mute = waiters.foldl wake (world.hush mute) := by
  induction waiters generalizing world with
  | nil => rfl
  | cons waiter rest ih => rw [List.foldl_cons, List.foldl_cons, ih, hush_wake]

theorem hush_unlock (gate : String) :
    (world.unlock gate).hush mute = (world.hush mute).unlock gate :=
  hush_wakeAll mute _ _

end World

/-! ## Computations -/

namespace Run

/-- Started in this world, the second computation, in the silenced world, does what the first does,
without the muted lines; `image` is what becomes of the answer.  The store is neither closed nor opened.
-/
structure HushedIn (image : α → β) (loud : Run S Action A α) (soft : Run S Action A β)
    (world : World S Action A) : Prop where
  lasts : (loud world).2.isOpen = world.isOpen
  same : soft (world.hush mute) = ((loud world).1.map image, (loud world).2.hush mute)

variable {mute}

namespace HushedIn

variable {image : α → β} {last : γ → δ} {world : World S Action A}

theorem pure (value : α) :
    HushedIn mute image (Pure.pure value : Run S Action A α) (Pure.pure (image value)) world :=
  ⟨rfl, rfl⟩

theorem pure_of {value : α} {other : β} (same : image value = other) :
    HushedIn mute image (Pure.pure value : Run S Action A α) (Pure.pure other) world := by
  rw [← same]
  exact pure value

theorem throw (halt : Halt) :
    HushedIn mute image (MonadExcept.throw halt : Run S Action A α) (MonadExcept.throw halt) world :=
  ⟨rfl, rfl⟩

theorem bind {loud : Run S Action A α} {soft : Run S Action A β} {loudNext : α → Run S Action A γ}
    {softNext : β → Run S Action A δ} (first : HushedIn mute image loud soft world)
    (next : ∀ value after, after.isOpen = world.isOpen →
      HushedIn mute last (loudNext value) (softNext (image value)) after) :
    HushedIn mute last (loud >>= loudNext) (soft >>= softNext) world := by
  obtain ⟨lasts, same⟩ := first
  rcases outcome : loud world with ⟨result, middle⟩
  rw [outcome] at lasts same
  cases result with
  | error halt =>
      constructor
      · rw [bind_of_error outcome]
        exact lasts
      · rw [bind_of_error outcome, bind_of_error same]
        rfl
  | ok value =>
      obtain ⟨lastsNext, sameNext⟩ := next value middle lasts
      constructor
      · rw [bind_of_ok outcome]
        exact lastsNext.trans lasts
      · rw [bind_of_ok outcome, bind_of_ok same]
        exact sameNext

/-- Looking at the world. -/
theorem look {loudNext : World S Action A → Run S Action A γ}
    {softNext : World S Action A → Run S Action A δ}
    (next : HushedIn mute last (loudNext world) (softNext (world.hush mute)) world) :
    HushedIn mute last (get >>= loudNext) (get >>= softNext) world :=
  ⟨next.lasts, next.same⟩

/-- A change that goes with silencing. -/
theorem change {loud soft : World S Action A → World S Action A}
    (lasts : (loud world).isOpen = world.isOpen)
    (same : soft (world.hush mute) = (loud world).hush mute) :
    HushedIn mute id (Run.update loud) (Run.update soft) world := by
  constructor
  · exact lasts
  · change (Except.ok (), soft (world.hush mute)) = _
    rw [same]
    rfl

/-- Such a change, and what follows. -/
theorem update {loud soft : World S Action A → World S Action A} {loudNext : Run S Action A γ}
    {softNext : Run S Action A δ} (lasts : (loud world).isOpen = world.isOpen)
    (same : soft (world.hush mute) = (loud world).hush mute)
    (next : HushedIn mute last loudNext softNext (loud world)) :
    HushedIn mute last (Run.update loud >>= fun _ => loudNext) (Run.update soft >>= fun _ => softNext)
      world := by
  constructor
  · exact next.lasts.trans lasts
  · change softNext (soft (world.hush mute)) = _
    rw [same]
    exact next.same

theorem mapM {each : α → Run S Action A γ} {soft : α → Run S Action A δ} (values : List α)
    (eachHushed : ∀ value after, after.isOpen = world.isOpen →
      HushedIn mute last (each value) (soft value) after) :
    HushedIn mute (List.map last) (values.mapM each) (values.mapM soft) world := by
  induction values generalizing world with
  | nil => exact pure []
  | cons value rest ih =>
      rw [List.mapM_cons, List.mapM_cons]
      apply (eachHushed value world rfl).bind
      intro first after lasts
      apply bind
      · apply ih
        intro value later again
        exact eachHushed value later (again.trans lasts)
      · intro others _ _
        exact pure (first :: others)

theorem ofFnM {count : Nat} {each : Fin count → Run S Action A α}
    {soft : Fin count → Run S Action A β}
    (eachHushed : ∀ index after, after.isOpen = world.isOpen →
      HushedIn mute image (each index) (soft index) after) :
    HushedIn mute (Vector.map image) (Vector.ofFnM each) (Vector.ofFnM soft) world := by
  induction count generalizing world with
  | zero =>
      have nothing : HushedIn mute (Vector.map image)
          (Pure.pure #v[] : Run S Action A (Vector α 0)) (Pure.pure (Vector.map image #v[])) world :=
        pure #v[]
      rw [Vector.map_empty] at nothing
      rw [Vector.ofFnM_zero, Vector.ofFnM_zero]
      exact nothing
  | succ count ih =>
      rw [Vector.ofFnM_succ, Vector.ofFnM_succ]
      apply bind (ih fun index => eachHushed index.castSucc)
      intro others middle lasts
      apply (eachHushed (Fin.last count) middle lasts).bind
      intro final _ _
      rw [← Vector.map_push]
      exact pure (others.push final)

end HushedIn

/-! ### Effects -/

variable (world : World S Action A)

theorem emit_hushed {event : Event S A} (audible : event.isAudible mute) :
    HushedIn mute id (emit event) (emit event) world :=
  .change rfl (world.hush_emit mute audible).symm

theorem annotate_isOpen (notes : List Json) : (world.annotate notes).isOpen = world.isOpen := by
  induction notes generalizing world with
  | nil => rfl
  | cons value rest ih => exact ih (world.emit (.note value))

theorem adopt_hushed (found : Noted α) :
    HushedIn mute id (adopt found) (adopt found) world :=
  .update (annotate_isOpen world found.notes) (world.hush_annotate mute found.notes).symm
    (.pure found.value)

theorem keeper_hush_virtual {clock : VirtualClock (Pending S Action A .finished)}
    (keeper : world.keeper = .virtual clock) :
    (world.hush mute).keeper = .virtual (clock.map (·.hush mute)) := by
  rw [World.hush, keeper, Keeper.hush]

theorem keeper_hush_tasks {clock : TaskClock (LocalTask S Action A)}
    (keeper : world.keeper = .tasks clock) :
    (world.hush mute).keeper = .tasks (clock.map (·.hush mute)) := by
  rw [World.hush, keeper, Keeper.hush]

theorem clear_hushed (spares : LogEntry.Spares mute) (handle : TimerHandle) :
    HushedIn mute id (clear handle) (clear handle) world := by
  cases keeper : world.keeper with
  | virtual clock =>
      constructor
      · rw [clear_virtual keeper]
      · rw [clear_virtual keeper, clear_virtual (keeper_hush_virtual world keeper),
          VirtualClock.map_clear]
        rfl
  | tasks clock =>
      constructor
      · rw [clear_tasks keeper]
      · rw [clear_tasks keeper, clear_tasks (keeper_hush_tasks world keeper), TaskClock.map_clear]
        have audible : Event.isAudible (S := S) (A := A) mute (.log (.timerCleared handle)) := by
          simp only [Event.isAudible, spares.cleared, Bool.not_false]
        cases (clock.clear handle).1 with
        | true => simp [World.hush, Keeper.hush, audible, Except.map]
        | false => rfl

theorem forget_hushed (handle : TimerHandle) :
    HushedIn mute id (forget handle) (forget handle) world := by
  apply HushedIn.change
  · rfl
  · cases keeper : world.keeper with
    | virtual clock => simp only [World.hush, keeper, Keeper.hush]
    | tasks clock =>
        simp only [World.hush, keeper, Keeper.hush]
        rfl

theorem deadline_hushed (delay : Duration) :
    HushedIn mute id (deadline delay) (deadline delay) world := by
  apply HushedIn.look
  cases keeper : world.keeper with
  | virtual clock =>
      have now : (clock.map (·.hush mute)).now = clock.now := rfl
      simp only [keeper_hush_virtual world keeper, now]
      split
      · exact .pure _
      · exact .throw _
  | tasks clock =>
      simp only [keeper_hush_tasks world keeper]
      exact .pure _

theorem spawn_hushed (task : Pending S Action A .finished) :
    HushedIn mute id (spawn task) (spawn (task.hush mute)) world := by
  cases keeper : world.keeper with
  | virtual clock =>
      constructor
      · rw [spawn_virtual keeper]
      · rw [spawn_virtual keeper, spawn_virtual (keeper_hush_virtual world keeper),
          VirtualClock.map_spawn]
        rfl
  | tasks clock =>
      have spawned : (clock.map (·.hush mute)).spawn (.background (task.hush mute)) =
          ((clock.spawn (.background task)).1,
            (clock.spawn (.background task)).2.map (·.hush mute)) :=
        clock.map_spawn (·.hush mute) (.background task)
      constructor
      · rw [spawn_tasks keeper]
      · rw [spawn_tasks keeper, spawn_tasks (keeper_hush_tasks world keeper)]
        rw [spawned]
        rfl

theorem oneShot_hush (spares : LogEntry.Spares mute) (handle : TimerHandle) (delay : Duration)
    (task : Pending S Action A .finished) :
    (oneShot handle delay task).hush mute = oneShot handle delay (task.hush mute) := by
  have logged : (Primitive.log (.timeoutFired handle)).hush mute = .log (.timeoutFired handle) := by
    simp only [Primitive.hush, spares.fired, Bool.false_eq_true, if_false]
  change Pending.call _ _ = Pending.call _ _
  congr 1
  funext moment
  change Pending.resumeAt moment (Pending.call _ _) = Pending.resumeAt moment (Pending.call _ _)
  congr 2
  funext _
  exact Pending.hush_call_of mute logged task

theorem repeated_hush (handle : TimerHandle) (first : Option Duration) (period : Duration)
    (task : Pending S Action A .finished) :
    (repeated handle first period task).hush mute =
      repeated handle first period (task.hush mute) := by
  cases first with
  | none => rfl
  | some due =>
      change Pending.interval _ _ _ _ _ = Pending.interval _ _ _ _ _
      congr 1
      funext index
      exact index.elim0

theorem timerBody_hush (spares : LogEntry.Spares mute) (clock : TaskClock (LocalTask S Action A))
    (delay : Duration) (repeating : Bool) (task : Pending S Action A .finished) :
    timerBody (clock.map (·.hush mute)) delay repeating (task.hush mute) =
      (timerBody clock delay repeating task).hush mute := by
  cases repeating with
  | true => exact (repeated_hush _ _ _ task).symm
  | false => exact (oneShot_hush spares _ delay task).symm

theorem schedule_hushed (spares : LogEntry.Spares mute) (delay : Duration) (repeating : Bool)
    (task : Pending S Action A .finished) :
    HushedIn mute id (schedule delay repeating task) (schedule delay repeating (task.hush mute))
      world := by
  cases keeper : world.keeper with
  | virtual clock =>
      constructor
      · rw [schedule_virtual keeper]
      · rw [schedule_virtual keeper, schedule_virtual (keeper_hush_virtual world keeper),
          VirtualClock.map_schedule]
        cases (clock.schedule delay repeating task).1 <;> rfl
  | tasks clock =>
      have spawned : (clock.issue.2.map (·.hush mute)).spawn
          (.background ((timerBody clock delay repeating task).hush mute)) =
            ((clock.issue.2.spawn (.background (timerBody clock delay repeating task))).1,
              (clock.issue.2.spawn (.background (timerBody clock delay repeating task))).2.map
                (·.hush mute)) :=
        clock.issue.2.map_spawn (·.hush mute) (.background (timerBody clock delay repeating task))
      have audible : Event.isAudible (S := S) (A := A) mute
          (.log (.timerScheduled ⟨clock.issued + 1⟩ delay repeating)) := by
        simp only [Event.isAudible, spares.scheduled, Bool.not_false]
      constructor
      · rw [schedule_tasks keeper]
      · rw [schedule_tasks keeper, schedule_tasks (keeper_hush_tasks world keeper),
          timerBody_hush spares]
        change (_, World.mk _ _ _ _ _ _ _ _
          (.tasks (((clock.issue.2.map (·.hush mute)).spawn _).2.register _ _)) _ _) = _
        rw [spawned]
        simp only [World.hush, List.filter_cons, audible, if_true]
        rfl

theorem nextDriven_hushed (target : Duration) :
    HushedIn mute (Option.map (List.map (·.hush mute))) (nextDriven target) (nextDriven target)
      world := by
  apply HushedIn.look
  cases keeper : world.keeper with
  | tasks clock =>
      simp only [keeper_hush_tasks world keeper]
      exact .pure none
  | virtual clock =>
      have same : (clock.map (·.hush mute)).spawned.isEmpty = clock.spawned.isEmpty := by
        simp only [VirtualClock.map, List.isEmpty_map]
      rw [keeper_hush_virtual world keeper]
      dsimp only
      rw [VirtualClock.map_takeDue]
      change HushedIn mute _ (if clock.spawned.isEmpty = true then _ else _)
        (if (clock.map (·.hush mute)).spawned.isEmpty = true then _ else _) world
      by_cases nothing : clock.spawned.isEmpty = true
      · rw [if_pos nothing, if_pos (same.trans nothing)]
        apply HushedIn.update
        · rfl
        · rfl
        · cases (clock.takeDue target).1 with
          | task task => exact .pure (some [task])
          | overflow => exact .throw _
          | nothing =>
              apply HushedIn.update
              · rfl
              · rfl
              · exact .pure none
      · rw [if_neg nothing, if_neg (same ▸ nothing)]
        apply HushedIn.update
        · rfl
        · rfl
        · exact .pure (some clock.spawned)

end Run

end EffectLoop
