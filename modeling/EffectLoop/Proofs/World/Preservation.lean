import EffectLoop.Proofs.World.Regime
import EffectLoop.World.Host

/-!
# What runs leave in place

A run changes the world, and keeps what it has changed also when it halts.  `Run.Keeps relation`
says that whatever a computation does, the worlds before and after it are related.

Programs reach the state and the trace of a world in few ways: they read the state, leave notes and
write to the log.  A relation that tolerates these (`Tolerant`) is therefore kept by every call and by
every poll of any program, as soon as the dispatches that the program makes keep it.
-/

namespace EffectLoop

variable {S ι : Type} {Action : ι → Type} {A α β : Type} {answer : Answer ι}

namespace World

/-- The state and the trace are the same, and the store is open if it was open. -/
def SameFront (before after : World S Action A) : Prop :=
  after.state = before.state ∧ after.trace = before.trace ∧ after.isOpen = before.isOpen

namespace SameFront

theorem refl (world : World S Action A) : SameFront world world := ⟨rfl, rfl, rfl⟩

theorem trans {first second third : World S Action A} (left : SameFront first second)
    (right : SameFront second third) : SameFront first third :=
  ⟨right.1.trans left.1, right.2.1.trans left.2.1, right.2.2.trans left.2.2⟩

end SameFront

theorem sameFront_wakeAlong (world : World S Action A) (root : Nat) (path : List (Nat × Nat)) :
    SameFront world (world.wakeAlong root path) := by
  induction path generalizing world with
  | nil => exact ⟨rfl, rfl, rfl⟩
  | cons step outer ih =>
      obtain ⟨ticket, child⟩ := step
      simp only [wakeAlong]
      split
      · exact .refl world
      · split
        · exact .refl world
        · exact (show SameFront world (world.setRally ticket _) from ⟨rfl, rfl, rfl⟩).trans (ih _)

theorem sameFront_wake (world : World S Action A) (waiter : Waiter) :
    SameFront world (world.wake waiter) :=
  sameFront_wakeAlong world waiter.root waiter.path

end World

/-- A relation between worlds that does not mind reading, notes, lines in the log, and anything that
leaves the state, the trace and an open store alone. -/
structure Tolerant (relation : World S Action A → World S Action A → Prop) : Prop where
  refl : ∀ world, relation world world
  trans : ∀ {first second third}, relation first second → relation second third →
    relation first third
  sameFront : ∀ {before after}, World.SameFront before after → relation before after
  note : ∀ (world : World S Action A) value, relation world (world.emit (.note value))
  log : ∀ (world : World S Action A) entry, relation world (world.emit (.log entry))

namespace Run

variable {relation : World S Action A → World S Action A → Prop}

/-- Whatever the computation does, the worlds before and after it are related. -/
def Keeps (relation : World S Action A → World S Action A → Prop) (computation : Run S Action A α) :
    Prop :=
  ∀ world, relation world (computation world).2

namespace Keeps

theorem pure (tolerant : Tolerant relation) (value : α) :
    Keeps relation (Pure.pure value : Run S Action A α) :=
  fun world => tolerant.refl world

theorem throw (tolerant : Tolerant relation) (halt : Halt) :
    Keeps relation (MonadExcept.throw halt : Run S Action A α) :=
  fun world => tolerant.refl world

theorem bind (tolerant : Tolerant relation) {first : Run S Action A α}
    {next : α → Run S Action A β} (firstKeeps : Keeps relation first)
    (nextKeeps : ∀ value, Keeps relation (next value)) : Keeps relation (first >>= next) := by
  intro world
  have kept := firstKeeps world
  rcases outcome : first world with ⟨result, middle⟩
  rw [outcome] at kept
  cases result with
  | ok value =>
      rw [bind_of_ok outcome]
      exact tolerant.trans kept (nextKeeps value middle)
  | error halt =>
      rw [bind_of_error outcome]
      exact kept

/-- Looking at the world changes nothing. -/
theorem look (tolerant : Tolerant relation) {next : World S Action A → Run S Action A β}
    (nextKeeps : ∀ world, Keeps relation (next world)) : Keeps relation (get >>= next) :=
  bind tolerant (fun world => tolerant.refl world) nextKeeps

theorem update {change : World S Action A → World S Action A}
    (related : ∀ world, relation world (change world)) : Keeps relation (Run.update change) :=
  related

theorem updateRest (tolerant : Tolerant relation) {change : World S Action A → World S Action A}
    (same : ∀ world, World.SameFront world (change world)) : Keeps relation (Run.update change) :=
  fun world => tolerant.sameFront (same world)

theorem forM (tolerant : Tolerant relation) {each : α → Run S Action A PUnit} (values : List α)
    (eachKeeps : ∀ value, Keeps relation (each value)) : Keeps relation (values.forM each) := by
  induction values with
  | nil => exact pure tolerant _
  | cons value rest ih => exact bind tolerant (eachKeeps value) fun _ => ih

end Keeps

/-! ## Effects -/

section Effects

variable (tolerant : Tolerant relation)
include tolerant

theorem clear_keeps (handle : TimerHandle) : Keeps relation (clear handle) := by
  refine .look tolerant fun world => ?_
  cases world.keeper with
  | virtual clock =>
      exact .bind tolerant (.updateRest tolerant fun _ => ⟨rfl, rfl, rfl⟩) fun _ => .pure tolerant _
  | tasks clock =>
      refine .bind tolerant (.updateRest tolerant fun _ => ⟨rfl, rfl, rfl⟩) fun _ => ?_
      dsimp only
      split
      · exact .pure tolerant _
      · exact .bind tolerant (.update fun world => tolerant.log world _) fun _ => .pure tolerant _

theorem schedule_keeps (delay : Duration) (repeating : Bool)
    (task : Pending S Action A .finished) : Keeps relation (schedule delay repeating task) := by
  refine .look tolerant fun world => ?_
  split
  · refine .bind tolerant (.updateRest tolerant fun _ => ⟨rfl, rfl, rfl⟩) fun _ => ?_
    split
    · exact .pure tolerant _
    · exact .throw tolerant _
  · exact .bind tolerant (.updateRest tolerant fun _ => ⟨rfl, rfl, rfl⟩) fun _ =>
      .bind tolerant (.update fun world => tolerant.log world _) fun _ => .pure tolerant _

theorem spawn_keeps (task : Pending S Action A .finished) : Keeps relation (spawn task) :=
  .updateRest tolerant fun _ => ⟨rfl, rfl, rfl⟩

theorem nextDriven_keeps (target : Duration) :
    Keeps relation
      (nextDriven target : Run S Action A (Option (List (Pending S Action A .finished)))) := by
  refine .look tolerant fun world => ?_
  split
  · exact .pure tolerant _
  · dsimp only
    split
    · refine .bind tolerant (.updateRest tolerant fun _ => ⟨rfl, rfl, rfl⟩) fun _ => ?_
      split
      · exact .pure tolerant _
      · exact .throw tolerant _
      · exact .bind tolerant (.updateRest tolerant fun _ => ⟨rfl, rfl, rfl⟩) fun _ => .pure tolerant _
    · exact .bind tolerant (.updateRest tolerant fun _ => ⟨rfl, rfl, rfl⟩) fun _ => .pure tolerant _

end Effects

end Run

/-! ## The regime of a relation -/

/-- Worlds of any kind are related as given. -/
def Regime.relating (relation : World S Action A → World S Action A → Prop) : Regime S Action A :=
  ⟨fun _ => True, relation⟩

section Relating

variable {relation : World S Action A → World S Action A → Prop}

theorem Regime.Obeys.keeps {post : α → Prop} {computation : Run S Action A α}
    (obeys : (Regime.relating relation).Obeys post computation) : Run.Keeps relation computation :=
  fun world => ((obeys world).1 trivial).2

theorem Run.Keeps.obeys {post : α → Prop} {computation : Run S Action A α}
    (keeps : Run.Keeps relation computation) (holds : ∀ value, post value) :
    (Regime.relating relation).Obeys post computation :=
  fun world => ⟨fun _ => ⟨trivial, keeps world⟩, fun _ value _ => holds value⟩

/-- A tolerant relation governs all programs. -/
theorem Tolerant.governs (tolerant : Tolerant relation) : (Regime.relating relation).Governs .lax where
  refl := tolerant.refl
  trans := tolerant.trans
  booked _ _ _ _ _ _ := ⟨trivial, tolerant.sameFront ⟨rfl, rfl, rfl⟩⟩
  queued _ _ _ _ _ := ⟨trivial, tolerant.sameFront ⟨rfl, rfl, rfl⟩⟩
  alarm _ _ _ _ _ _ := ⟨trivial, tolerant.sameFront ⟨rfl, rfl, rfl⟩⟩
  read _ _ := ⟨trivial, tolerant.sameFront ⟨rfl, rfl, rfl⟩⟩
  note world value _ := ⟨trivial, tolerant.note world value⟩
  log world entry _ _ := ⟨trivial, tolerant.log world entry⟩
  keep _ _ _ _ := ⟨trivial, tolerant.sameFront ⟨rfl, rfl, rfl⟩⟩
  clear handle _ := (Run.clear_keeps tolerant handle).obeys fun _ => trivial
  forget _ _ := Run.Keeps.obeys (.updateRest tolerant fun _ => ⟨rfl, rfl, rfl⟩) fun _ => trivial
  schedule delay repeating task _ :=
    (Run.schedule_keeps tolerant delay repeating task).obeys fun _ => trivial
  spawn task _ := (Run.spawn_keeps tolerant task).obeys fun _ => trivial
  nextDriven target _ :=
    (Run.nextDriven_keeps tolerant target).obeys fun _ _ _ task _ => task.within_lax
  fire world handle _ _ := ⟨trivial, tolerant.log world (.intervalFired handle)⟩

end Relating

/-! ## Programs -/

/-- Whatever the engine is asked to do, the worlds before and after it are related. -/
structure Engine.Keeps (relation : World S Action A → World S Action A → Prop)
    (engine : Engine S Action A) : Prop where
  dispatch : ∀ action, Run.Keeps relation (engine.dispatch action)
  poll : ∀ {answer : Answer ι} (waiter : Waiter) (pending : Pending S Action A answer),
    Run.Keeps relation (engine.poll waiter pending)

theorem Engine.Keeps.obeys {relation : World S Action A → World S Action A → Prop}
    {engine : Engine S Action A} (keeps : engine.Keeps relation) :
    engine.Obeys (.relating relation) .lax where
  dispatch action := (keeps.dispatch action).obeys Pending.within_lax
  poll waiter _ _ := (keeps.poll waiter _).obeys Pending.within_lax

section Programs

variable {relation : World S Action A → World S Action A → Prop} (tolerant : Tolerant relation)
include tolerant

theorem Run.Keeps.adopt (found : Noted α) :
    Run.Keeps relation (Run.adopt found : Run S Action A α) := by
  have obeys : (Regime.relating relation).Obeys (fun _ => True) (Run.adopt found : Run S Action A α) :=
    tolerant.governs.adopt trivial
  exact obeys.keeps

theorem Run.perform_keeps (effect : Primitive) : Run.Keeps relation (Run.perform effect) :=
  (tolerant.governs.perform effect trivial).keeps

namespace Rally

theorem openRally_keeps (count : Nat) :
    Run.Keeps relation (openRally count : Run S Action A Nat) :=
  (openRally_obeys tolerant.governs.toSteady count).keeps

theorem takeChild_keeps (ticket : Nat) :
    Run.Keeps relation (takeChild ticket : Run S Action A (Option Nat)) :=
  (takeChild_obeys tolerant.governs.toCoherent (tolerant.governs.setRally · ticket)).keeps

theorem finish_keeps (ticket child : Nat) :
    Run.Keeps relation (finish ticket child : Run S Action A Nat) :=
  (finish_obeys tolerant.governs.toCoherent (tolerant.governs.setRally · ticket) child).keeps

theorem isQueued_keeps (ticket child : Nat) :
    Run.Keeps relation (isQueued ticket child : Run S Action A Bool) :=
  .look tolerant fun _ => .pure tolerant _

end Rally

variable {engine : Engine S Action A} (engineKeeps : engine.Keeps relation)
include engineKeeps

namespace Engine

theorem send_keeps (action : Noted A) (keep : Bool) :
    Run.Keeps relation (engine.send action keep) :=
  (send_obeys tolerant.governs engineKeeps.obeys action keep).keeps

theorem pollJoin_keeps (waiter : Waiter) {count : Nat} (ticket : Option Nat)
    (children : Fin count → Pending S Action A answer)
    {each : Fin count → Run S Action A (Pending S Action A answer)}
    (eachKeeps : ∀ index, Run.Keeps relation (each index)) :
    Run.Keeps relation (engine.pollJoin waiter ticket children each) :=
  (pollJoin_obeys tolerant.governs engineKeeps.obeys waiter ticket
    (fun index => (children index).within_lax)
    fun index => (eachKeeps index).obeys Pending.within_lax).keeps

end Engine

/-- Performing a computation that is over in the call keeps what its dispatches keep. -/
theorem Prompt.run_keeps (program : Prompt S Action A α) :
    Run.Keeps relation (program.run engine) :=
  (Prompt.run_obeys tolerant.governs engineKeeps.obeys program.within_lax).keeps

/-- Polling a computation keeps what its dispatches keep, wherever it stops. -/
theorem Pending.poll_keeps (waiter : Waiter) (pending : Pending S Action A answer) :
    Run.Keeps relation (pending.poll engine waiter) :=
  (Pending.poll_obeys tolerant.governs engineKeeps.obeys waiter pending.within_lax).keeps

end Programs

end EffectLoop
