import EffectLoop.World.Basic

/-!
# What is asked of a scheduler

What scheduling, cancelling and spawning answer, and the worlds that they leave, for either kind of
clock.
-/

namespace EffectLoop

variable {S ι : Type} {Action : ι → Type} {A : Type}

namespace Run

variable {world : World S Action A}

section Virtual

variable {clock : VirtualClock (Pending S Action A .finished)} (keeper : world.keeper = .virtual clock)
include keeper

theorem schedule_virtual (delay : Duration) (repeating : Bool) (task : Pending S Action A .finished) :
    schedule delay repeating task world =
      ((clock.schedule delay repeating task).1.elim (.error (.panic overflowMessage)) .ok,
        { world with keeper := .virtual (clock.schedule delay repeating task).2 }) := by
  have looked : (get : Run S Action A (World S Action A)) world = (.ok world, world) := rfl
  rw [schedule, bind_of_ok looked, keeper]
  dsimp only
  rw [bind_of_ok (show update _ world = (.ok (), _) from rfl)]
  cases (clock.schedule delay repeating task).1 <;> rfl

theorem clear_virtual (handle : TimerHandle) :
    clear handle world =
      (.ok (clock.clear handle).1, { world with keeper := .virtual (clock.clear handle).2 }) := by
  have looked : (get : Run S Action A (World S Action A)) world = (.ok world, world) := rfl
  rw [clear, bind_of_ok looked, keeper]
  rfl

theorem spawn_virtual (task : Pending S Action A .finished) :
    spawn task world = (.ok (), { world with keeper := .virtual (clock.spawn task) }) := by
  change (Except.ok (), World.mk _ _ _ _ _ _ _ _ _ _ _) = _
  rw [keeper]

end Virtual

section Tasks

variable {clock : TaskClock (LocalTask S Action A)} (keeper : world.keeper = .tasks clock)

/-- The task of a schedule, and how it is entered. -/
def timerBody (clock : TaskClock (LocalTask S Action A)) (delay : Duration) (repeating : Bool)
    (task : Pending S Action A .finished) : Pending S Action A .finished :=
  if repeating then
    repeated ⟨clock.issued + 1⟩ (clock.moment? (repeatPeriod delay)) (repeatPeriod delay) task
  else oneShot ⟨clock.issued + 1⟩ delay task

include keeper

theorem schedule_tasks (delay : Duration) (repeating : Bool) (task : Pending S Action A .finished) :
    schedule delay repeating task world = (.ok ⟨clock.issued + 1⟩, { world with
      keeper := .tasks ((clock.issue.2.spawn (.background (timerBody clock delay repeating task))).2.register
        ⟨clock.issued + 1⟩ clock.nextTask)
      trace := .log (.timerScheduled ⟨clock.issued + 1⟩ delay repeating) :: world.trace }) := by
  have looked : (get : Run S Action A (World S Action A)) world = (.ok world, world) := rfl
  rw [schedule, bind_of_ok looked, keeper]
  rfl

theorem clear_tasks (handle : TimerHandle) :
    clear handle world = (.ok (clock.clear handle).1, { world with
      keeper := .tasks (clock.clear handle).2
      trace := if (clock.clear handle).1 then .log (.timerCleared handle) :: world.trace
        else world.trace }) := by
  have looked : (get : Run S Action A (World S Action A)) world = (.ok world, world) := rfl
  rw [clear, bind_of_ok looked, keeper]
  dsimp only
  rcases clock.clear handle with ⟨cleared, moved⟩
  cases cleared <;> rfl

theorem spawn_tasks (task : Pending S Action A .finished) :
    spawn task world =
      (.ok (), { world with keeper := .tasks (clock.spawn (.background task)).2 }) := by
  cases world
  cases keeper
  rfl

end Tasks

end Run

end EffectLoop
