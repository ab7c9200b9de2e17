import EffectLoop.Proofs.Command.Fusion
import EffectLoop.Proofs.Json.Handles
import EffectLoop.Proofs.World.Scheduling
import EffectLoop.Proofs.World.Silence

/-!
# Clearing a schedule by a command

The command that cancels a schedule hands the handle over as the argument of a RUN, from which it is read
back.  Every handle survives that (`TimerHandle.ofJson?_toJson`), so the command, under any tags, is one
effect: the scheduler is asked to clear just this handle, and the answer is dropped.  On a virtual clock the
schedule of the handle goes away, and nothing else in the world changes.
-/

namespace EffectLoop

variable {S ι : Type} {Action : ι → Type} {A τ : Type} {alphabet : ι}

/-! ## The command -/

namespace Cmd

/-- The function that cancels clears the handle that its argument stands for. -/
theorem cancelling_value {value : Json} {handle : TimerHandle}
    (read : TimerHandle.ofJson? value = some handle) :
    (cancelling [.value value] : Prompt S Action A (RunResult S Action A)) =
      .call (.clear handle) fun cleared => .done (.ready (.ok (.bool cleared))) := by
  simp only [cancelling, read]

/-- The command cancels the schedule of a handle, under any number of tags. -/
inductive Cancels (handle : TimerHandle) : {alphabet : ι} → Cmd S Action alphabet → Prop where
  | cancel {alphabet : ι} : Cancels handle (cancel handle : Cmd S Action alphabet)
  | map {alphabet child : ι} {nested : Cmd S Action child}
      (tagger : List Json → Action child → Noted (Action alphabet)) (args : List Json) :
      Cancels handle nested → Cancels handle (map nested tagger args)

/-- Cancelling is one effect.  No action is sent or produced, and nothing is scheduled or spawned. -/
theorem Cancels.execute_eq {handle : TimerHandle} {cmd : Cmd S Action alphabet}
    (cancels : cmd.Cancels handle) (options : Options) :
    cmd.execute options = .call (.clear handle) fun _ => .done (.ok Option.none) := by
  induction cancels with
  | cancel =>
      rw [Cmd.cancel, execute, RunSpec.execute, cancelSpec]
      dsimp only
      rw [cancelling_value handle.ofJson?_toJson]
      rfl
  | map tagger args _ ih =>
      rw [execute_map, ih]
      rfl

end Cmd

/-! ## The clock -/

namespace VirtualClock

/-- The schedule that is registered under a handle. -/
def timer? (clock : VirtualClock τ) (handle : TimerHandle) : Option (Timer τ) :=
  clock.timers.find? (·.handle = handle)

/-- The second clock is the first one without the schedule of a handle. -/
structure Loses (clock : VirtualClock τ) (handle : TimerHandle) (left : VirtualClock τ) : Prop where
  now : left.now = clock.now
  issued : left.issued = clock.issued
  spawned : left.spawned = clock.spawned
  timers : left.timers = clock.timers.filter (·.handle ≠ handle)
  gone : left.timer? handle = none
  others : ∀ other ≠ handle, left.timer? other = clock.timer? other

/-- Clearing takes away the schedule of the handle, and nothing else. -/
theorem loses_clear (clock : VirtualClock τ) (handle : TimerHandle) :
    clock.Loses handle (clock.clear handle).2 where
  now := rfl
  issued := rfl
  spawned := rfl
  timers := rfl
  gone := by simp [timer?, clear]
  others := by
    intro other different
    simp only [timer?, clear, List.find?_filter]
    congr 1
    funext timer
    by_cases named : timer.handle = other <;> simp [named, different]

/-- Without a schedule of the handle, nothing is lost. -/
theorem Loses.eq_of_missing {clock left : VirtualClock τ} {handle : TimerHandle}
    (loses : clock.Loses handle left) (missing : clock.timer? handle = none) : left = clock := by
  have kept : clock.timers.filter (·.handle ≠ handle) = clock.timers := by
    apply List.filter_eq_self.2
    intro timer within
    simpa using List.find?_eq_none.1 missing timer within
  have timers := loses.timers.trans kept
  cases left
  cases clock
  simp only [mk.injEq]
  exact ⟨loses.now, loses.issued, timers, loses.spawned⟩

end VirtualClock

/-! ## The world -/

/-- The world with another state of its virtual clock. -/
def World.withClock (world : World S Action A) (clock : VirtualClock (Pending S Action A .finished)) :
    World S Action A :=
  { world with keeper := .virtual clock }

@[simp] theorem World.withClock_keeper (world : World S Action A)
    (clock : VirtualClock (Pending S Action A .finished)) :
    (world.withClock clock).keeper = .virtual clock := rfl

/-- The session with another state of its virtual clock. -/
def Session.withClock (session : Session S Action alphabet)
    (clock : VirtualClock (Pending S Action (Action alphabet) .finished)) : Session S Action alphabet :=
  { session with world := session.world.withClock clock }

namespace Cmd.Cancels

variable {handle : TimerHandle} {cmd : Cmd S Action alphabet} (cancels : cmd.Cancels handle)
variable {clock : VirtualClock (Pending S Action (Action alphabet) .finished)}
include cancels

theorem run_eq (options : Options) (engine : Engine S Action (Action alphabet))
    {world : World S Action (Action alphabet)} (keeper : world.keeper = .virtual clock) :
    (cmd.execute options).run engine world =
      (.ok (.ok Option.none), world.withClock (clock.clear handle).2) := by
  rw [cancels.execute_eq]
  exact Run.bind_of_ok (Run.clear_virtual keeper handle)

/-- In a session the command has no follow-up, and the script goes on without the schedule. -/
theorem serve_eq [∀ alphabet, Tagged (Action alphabet)] {session : Session S Action alphabet}
    (keeper : session.world.keeper = .virtual clock) (hold : Bool)
    (script : List (Step S Action alphabet)) :
    session.serve (.execute (.ok cmd) hold :: script) =
      let later := (session.withClock (clock.clear handle).2).settle.serve script
      (.noFollowUp :: later.1, later.2) := by
  have acted : session.act (.execute (.ok cmd) hold) =
      (.noFollowUp, session.withClock (clock.clear handle).2) := by
    rw [Session.act, Session.perform, cancels.run_eq _ _ keeper]
    rfl
  rw [Session.serve, Session.step, acted]

/-- Clearing a schedule by a command clears exactly this schedule.  In every context, for every handle and
under any tags, the command is one effect, which sends nothing, and there is no follow-up.  On a virtual
clock the schedule of the handle is lost, if there is one; the other schedules, the time, the queued work
and the number of handles issued are as before, and so is all else in the world.  Whatever runs afterwards
runs as if the schedule alone had been taken away, and clearing it again changes nothing. -/
theorem clears_only [∀ alphabet, Tagged (Action alphabet)] :
    (∀ options, cmd.execute options = .call (.clear handle) fun _ => .done (.ok Option.none)) ∧
    ∀ clock, ∃ left, VirtualClock.Loses clock handle left ∧
      (clock.timer? handle = Option.none → left = clock) ∧
      (∀ options (engine : Engine S Action (Action alphabet)) (world : World S Action (Action alphabet)),
        world.keeper = .virtual clock →
          let start := (cmd.execute options).run engine
          start world = (.ok (.ok Option.none), world.withClock left) ∧
          start (world.withClock left) = (.ok (.ok Option.none), world.withClock left) ∧
          ∀ {β : Type}
            (later : Verdict S Action (Action alphabet) alphabet → Run S Action (Action alphabet) β),
            (start >>= later) world = later (.ok Option.none) (world.withClock left)) ∧
      ∀ (session : Session S Action alphabet) (hold : Bool) (script : List (Step S Action alphabet)),
        session.world.keeper = .virtual clock →
          session.serve (.execute (.ok cmd) hold :: script) =
            let later := (session.withClock left).settle.serve script
            (.noFollowUp :: later.1, later.2) := by
  refine ⟨cancels.execute_eq, fun clock => ⟨_, clock.loses_clear handle, ?_, ?_, ?_⟩⟩
  · exact (clock.loses_clear handle).eq_of_missing
  · intro options engine world keeper start
    have once := cancels.run_eq options engine keeper
    have again : ((clock.clear handle).2.clear handle).2 = (clock.clear handle).2 :=
      (VirtualClock.loses_clear _ handle).eq_of_missing (clock.loses_clear handle).gone
    have twice := cancels.run_eq options engine (world.withClock_keeper (clock.clear handle).2)
    rw [again] at twice
    exact ⟨once, twice, fun later => Run.bind_of_ok once⟩
  · intro session hold script keeper
    exact cancels.serve_eq keeper hold script

end Cmd.Cancels

namespace Unscheduling

/-- The greatest handle. -/
def last : TimerHandle := ⟨18446744073709551615⟩

/-- The last handle is that of a schedule that fires once, and 7 that of a repeating one. -/
def clock : VirtualClock (Pending Unit (fun _ : Unit => Json) Json .finished) where
  now := .zero
  issued := 18446744073709551615
  timers := [⟨⟨7⟩, .oneMillisecond, some .oneMillisecond, .done ()⟩, ⟨last, .zero, none, .done ()⟩]
  spawned := [.done ()]

/-- A session on this clock. -/
def session : Session Unit (fun _ : Unit => Json) () where
  host := .recording .default fun _ => ⟨none, none⟩
  world := .initial () (.virtual clock) (.int 0)
  roots := []
  tasks := []
  lastRoot := 0
  allowance := 2

/-- Clear the last handle. -/
def clearLast : Cmd Unit (fun _ : Unit => Json) () := .cancel last

/-- The same with tagged actions. -/
def clearOnceTagged : Cmd Unit (fun _ : Unit => Json) () :=
  clearLast.taggedWith (fun args action => pure (.array (action :: args))) [.null]

/-- The same with actions that are tagged twice. -/
def clearTagged : Cmd Unit (fun _ : Unit => Json) () :=
  clearOnceTagged.tagged fun action => pure (.array [action])

theorem clearTagged_cancels : clearTagged.Cancels last := .map _ _ (.map _ _ .cancel)

/-- The schedule of the last handle is lost, and the repeating one is left.  Nothing is dispatched: this
engine would come to a halt. -/
theorem clears_only_last :
    clearTagged.Cancels last ∧ session.world.keeper = .virtual clock ∧ (clock.timer? last).isSome ∧
      ∃ left, clock.Loses last left ∧ left.timers.map Timer.handle = [⟨7⟩] ∧
        (clearTagged.execute .default).run (session.host.engine 0) session.world =
          (.ok (.ok none), session.world.withClock left) ∧
        (session.serve [.execute (.ok clearTagged) false]).1 = [.noFollowUp] := by
  obtain ⟨-, cleared⟩ := clearTagged_cancels.clears_only
  obtain ⟨left, loses, -, runs, serves⟩ := cleared clock
  refine ⟨clearTagged_cancels, rfl, rfl, left, loses, ?_, ?_, ?_⟩
  · rw [loses.timers]
    rfl
  · exact (runs .default (session.host.engine 0) session.world rfl).1
  · rw [serves session false [] rfl]
    rfl

end Unscheduling

end EffectLoop
