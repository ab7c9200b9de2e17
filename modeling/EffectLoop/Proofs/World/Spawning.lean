import EffectLoop.Proofs.World.Errands
import EffectLoop.Proofs.World.Journeys

/-!
# What becomes of spawned work

Work that is handed over to a virtual clock waits in a queue, until an advance takes the queue and runs
it.  On a journey, what the advances have taken and what is still queued is what was handed over, in that
order.  And if one poll completes each piece of the work, then whatever the work hands over in turn, all
of it is run: before the next schedule fires, before the advance ends, and while the clock stands still.
-/

namespace EffectLoop

variable {S ι : Type} {Action : ι → Type} {A : Type} {alphabet : ι}

open VirtualClock (Asides Entry Leg)

/-! ## Spawned work on a journey -/

/-- The work that is handed over here. -/
@[simp] def VirtualClock.Entry.spawned? {τ : Type} : Entry τ → Option τ
  | ⟨.moved (.spawned task), _⟩ => some task
  | _ => none

/-- All the work that was handed over, the earliest first. -/
def spawnedIn {τ : Type} (history : List (Entry τ)) : List τ :=
  (history.filterMap Entry.spawned?).reverse

/-- The spawned work that the advance takes here. -/
@[simp] def Beat.drains : Beat S Action A → List (Pending S Action A .finished)
  | .took _ (.drained _ tasks) _ _ => tasks
  | _ => []

/-- All the spawned work that was taken, the earliest first. -/
def drainedIn (beats : List (Beat S Action A)) : List (Pending S Action A .finished) :=
  beats.reverse.flatMap Beat.drains

/-- Where an advance under way stands: at the due time of the last schedule that it has fired, or at the
time at which it began. -/
@[simp] def moment? : List (Beat S Action A) → Option Duration
  | .begun _ world :: _ => some world.keeper.now
  | .took _ (.fired _ timer) _ _ :: _ => some timer.due
  | .aside _ _ :: rest | .polled _ _ _ _ :: rest | .took _ (.drained _ _) _ _ :: rest => moment? rest
  | [] | .arrived _ _ _ :: _ => none

/-- The pieces of work are run one after the other, each by one poll that takes it to its end, while the
clock shows this time; in between only the books of joins change. -/
inductive Host.RunsAt (host : Host S Action alphabet) (now : Duration) :
    List (Pending S Action (Action alphabet) .finished) → World S Action (Action alphabet) →
      World S Action (Action alphabet) → Prop where
  | nil {before after} : World.Booked before after → RunsAt host now [] before after
  | cons {task rest before begun later after} (depth : Nat) (waiter : Waiter) :
      World.Booked before begun → begun.keeper.now = now →
      task.poll (host.engine depth) waiter begun = (.ok (.done ()), later) →
      RunsAt host now rest later after → RunsAt host now (task :: rest) before after

/-- How spawned work is run. -/
structure Host.Dutiful (host : Host S Action alphabet)
    (beats : List (Beat S Action (Action alphabet))) : Prop where
  /-- What an advance takes is run at once, where the advance stands, and nothing of it is left. -/
  punctual : ∀ ended now tasks before ready earlier,
    .took ended (.drained now tasks) before ready :: earlier <:+ beats →
      moment? earlier = some now ∧ ∃ left after waiter depth,
        .polled (.taking ended.target tasks) left ready after ::
          .took ended (.drained now tasks) before ready :: earlier <:+ beats ∧
        host.Works waiter depth (.taking ended.target tasks) ready left after ∧
        host.RunsAt now tasks ready after ∧ left.Idle
  /-- When a schedule fires, all that was handed over before has been taken. -/
  patient : ∀ ended now timer before ready earlier history,
    .took ended (.fired now timer) before ready :: earlier <:+ beats → Explains history earlier →
      drainedIn earlier = spawnedIn history
  /-- When an advance ends, all that was handed over before has been taken. -/
  complete : ∀ ended before after earlier history,
    .arrived ended before after :: earlier <:+ beats → Explains history earlier →
      drainedIn earlier = spawnedIn history

section

variable {τ : Type} {recent older : List (Entry τ)}

@[simp] theorem spawnedIn_append : spawnedIn (recent ++ older) = spawnedIn older ++ spawnedIn recent := by
  simp only [spawnedIn, List.filterMap_append, List.reverse_append]

@[simp] theorem spawnedIn_cons {entry : Entry τ} :
    spawnedIn (entry :: older) = spawnedIn older ++ entry.spawned?.toList := by
  rw [← List.singleton_append, spawnedIn_append]
  congr 1
  rw [spawnedIn, List.filterMap_cons, List.filterMap_nil]
  cases entry.spawned? <;> rfl

@[simp] theorem drainedIn_cons {beat : Beat S Action A} {beats : List (Beat S Action A)} :
    drainedIn (beat :: beats) = drainedIn beats ++ beat.drains := by
  simp [drainedIn]

/-- Beside an advance only the work that is handed over is queued. -/
theorem VirtualClock.Asides.spawned_eq {clock moved : VirtualClock τ} {entries : List (Entry τ)}
    (asides : Asides clock entries moved) : moved.spawned = clock.spawned ++ spawnedIn entries := by
  induction asides with
  | nil => exact (List.append_nil _).symm
  | @cons _ _ _ move _ step aside ih =>
      rw [step.spawned_eq]
      cases move with
      | scheduled | cleared | spawned => simp [ih]
      | drained | fired | strained | arrived => cases aside

end

section Journey

variable {host : Host S Action alphabet} {start world before after : World S Action (Action alphabet)}
variable {way : Option (Advancing S Action (Action alphabet))}
variable {beats : List (Beat S Action (Action alphabet))}
variable {history : List (Entry (Pending S Action (Action alphabet) .finished))}
variable {clock : World.Clock S Action (Action alphabet)}
variable {tasks : List (Pending S Action (Action alphabet) .finished)}

/-- What was handed over and is not queued was taken, and the clock shows where the advance stands. -/
theorem Host.Beats.balance (known : host.Beats start none beats world way)
    (outset : start.keeper = .virtual .initial) (explains : Explains history beats)
    (keeper : world.keeper = .virtual clock) :
    spawnedIn history = drainedIn beats ++ clock.spawned ∧
      (way.isSome → moment? beats = some clock.now) := by
  induction known generalizing history clock with
  | stays =>
      cases explains
      rw [outset] at keeper
      cases keeper
      exact ⟨rfl, nofun⟩
  | aside _ _ ih =>
      cases explains with
      | cons shows rest =>
      cases shows with
      | aside keeperBefore keeperAfter asides =>
      rw [keeper] at keeperAfter
      cases keeperAfter
      obtain ⟨balance, stands⟩ := ih rest keeperBefore
      simpa [balance, asides.spawned_eq, asides.now_eq] using stands
  | begun _ _ _ ih =>
      cases explains with
      | cons shows rest =>
      cases shows with
      | begun keeperBefore =>
      rw [keeper] at keeperBefore
      cases keeperBefore
      obtain ⟨balance, -⟩ := ih rest keeper
      simp [balance, keeper, Keeper.now]
  | polled _ _ _ _ ih =>
      cases explains with
      | cons shows rest =>
      cases shows with
      | polled keeperBefore keeperAfter asides =>
      rw [keeper] at keeperAfter
      cases keeperAfter
      obtain ⟨balance, stands⟩ := ih rest keeperBefore
      simpa [balance, asides.spawned_eq, asides.now_eq] using stands
  | took _ _ keeperBefore takes ih =>
      cases explains with
      | cons shows rest =>
      cases shows with
      | took _ _ =>
      cases keeper
      obtain ⟨balance, stands⟩ := ih rest keeperBefore
      have spawned := takes.moves.spawned_eq
      have now := takes.moves.now_eq
      cases takes with
      | drained => simpa [Leg.move, balance, spawned, now] using stands
      | fired => simp [Leg.move, balance, spawned, now]
  | arrived _ _ keeperBefore _ ih =>
      cases explains with
      | cons shows rest =>
      cases shows with
      | arrived _ _ =>
      cases keeper
      obtain ⟨balance, -⟩ := ih rest keeperBefore
      simpa [VirtualClock.arrive] using balance

/-- Pieces that begin while the clock shows some time and that do not advance it all begin then. -/
theorem Host.RunsEach.runsAt (runs : host.RunsEach tasks before after) (within : host.Within .still)
    (all : ∀ task ∈ tasks, Pending.Within .still task) (keeper : before.keeper = .virtual clock)
    (holds : clock.Holds (Pending.Within .still)) : host.RunsAt clock.now tasks before after := by
  induction runs generalizing clock with
  | nil books => exact .nil books
  | @cons task rest before begun later after depth waiter books polled _ ih =>
      obtain ⟨taskWithin, others⟩ := List.forall_mem_cons.1 all
      have keeperBegun := books.keeper_eq keeper
      have happens : host.Happens .still begun (task.poll (host.engine depth) waiter begun).2 :=
        .poll depth waiter taskWithin
      obtain ⟨entries, moved, keeperLater, holdsLater, asides⟩ :=
        (happens.allowed Regime.aside_houses within Regime.passage_same).asides keeperBegun holds
      rw [polled] at keeperLater
      have rest := ih others keeperLater holdsLater
      rw [asides.now_eq] at rest
      exact .cons depth waiter books (by rw [keeperBegun]; rfl) polled rest

/-- What explains beats explains the earlier ones with its older part. -/
theorem Explains.of_suffix {earlier : List (Beat S Action (Action alphabet))}
    (explains : Explains history beats) (suffix : earlier <:+ beats) :
    ∃ older, Explains older earlier ∧ ∀ task ∈ spawnedIn older, task ∈ spawnedIn history := by
  obtain ⟨later, rfl⟩ := suffix
  obtain ⟨recent, older, rfl, -, explainsOlder⟩ := explains.of_append
  refine ⟨older, explainsOlder, fun task handed => ?_⟩
  rw [spawnedIn_append]
  exact List.mem_append_left _ handed

variable (within : host.Within .still)
include within

/-- A batch of errands that an advance has taken is run. -/
theorem Host.Works.runs_errands (fresh : host.Fresh) {waiter : Waiter} {depth : Nat} {target : Duration}
    {left : Advancing S Action (Action alphabet)}
    (works : host.Works waiter depth (.taking target tasks) before left after)
    (errands : ∀ task ∈ tasks, host.Errand task) (all : ∀ task ∈ tasks, Pending.Within .still task)
    (keeper : before.keeper = .virtual clock) (holds : clock.Holds (Pending.Within .still)) :
    host.RunsAt clock.now tasks before after ∧ left.Idle := by
  cases works with
  | intro joined =>
      obtain ⟨runs, ended⟩ := (Engine.pollJoin_rounds fresh errands keeper).holds _ _ joined
      exact ⟨runs.runsAt within all keeper holds, ended⟩

theorem Host.Journey.dutiful (fresh : host.Fresh) (outset : start.keeper = .virtual .initial)
    (journey : host.Journey start none beats world way) (explains : Explains history beats)
    (errands : ∀ task ∈ spawnedIn history, host.Errand task) : host.Dutiful beats where
  punctual ended now tasks before ready earlier suffix := by
    obtain ⟨left, after, waiter, depth, inside, works⟩ := journey.opens suffix
    obtain ⟨_, _, known⟩ := journey.toBeats.of_suffix suffix
    obtain ⟨older, explainsOlder, among⟩ :=
      explains.of_suffix ((List.suffix_cons _ earlier).trans suffix)
    cases known with
    | took known idle keeper takes =>
    cases takes with
    | drained =>
    obtain ⟨balance, stands⟩ := known.balance outset explainsOlder keeper
    obtain ⟨keeperThen, holds, -, -⟩ :=
      (known.timeline within (.fresh outset) explainsOlder).follows within
    rw [keeper] at keeperThen
    cases keeperThen
    have handed : ∀ task ∈ _, host.Errand task := fun task queued =>
      errands task (among task (balance ▸ List.mem_append_right _ queued))
    have ran := works.runs_errands within fresh handed holds.spawned rfl ⟨holds.timers, nofun⟩
    exact ⟨stands rfl, left, after, waiter, depth, inside, works, ran⟩
  patient ended now timer before ready earlier older suffix explainsOlder := by
    obtain ⟨_, _, known⟩ := journey.toBeats.of_suffix suffix
    cases known with
    | took known idle keeper takes =>
    cases takes with
    | fired empty _ _ =>
    obtain ⟨balance, -⟩ := known.balance outset explainsOlder keeper
    rw [balance, empty, List.append_nil]
  complete ended before after earlier older suffix explainsOlder := by
    obtain ⟨_, _, known⟩ := journey.toBeats.of_suffix suffix
    cases known with
    | arrived known idle keeper atRest =>
    obtain ⟨balance, -⟩ := known.balance outset explainsOlder keeper
    rw [balance, atRest.1, List.append_nil]

/-- Spawned work runs once, in the order in which it was spawned.  While at most one advance at a time is
under way, and if one poll completes each piece of spawned work, whatever it spawns in turn: what was run
and what is queued is what was spawned, in the order of the spawn calls; when an advance ends, and whenever
it fires a schedule, all that was spawned before has been run; and work is run while the clock shows the
due time of the last firing, or the time at which the advance began if it has not fired anything. -/
theorem Host.Journey.runs_spawned_once (fresh : host.Fresh) (outset : start.keeper = .virtual .initial)
    (journey : host.Journey start none beats world way) :
    host.Paced ∧ (∃ history, Explains history beats) ∧
      ∀ history, Explains history beats → (∀ task ∈ spawnedIn history, host.Errand task) →
        ∃ clock, world.keeper = .virtual clock ∧
          spawnedIn history = drainedIn beats ++ clock.spawned ∧ host.Dutiful beats := by
  obtain ⟨explained, timelines⟩ := journey.timelines within outset
  refine ⟨host.paced, explained, ?_⟩
  intro history explains errands
  obtain ⟨keeper, -, -, -⟩ := (timelines history explains).follows within
  obtain ⟨balance, -⟩ := journey.toBeats.balance outset explains keeper
  exact ⟨_, keeper, balance, journey.dutiful within fresh outset explains errands⟩

end Journey

/-! ### Work that spawns work -/

namespace Relay

open Lone (world delay span)

def inner : Pending Unit (fun _ : Unit => Json) Json .finished := .done ()

def outer : Pending Unit (fun _ : Unit => Json) Json .finished := .spawn inner (.done ())

/-- The schedule spawns work as well. -/
def timer : Timer (Pending Unit (fun _ : Unit => Json) Json .finished) := ⟨⟨1⟩, delay, none, outer⟩

/-- A clock at some time, with what is scheduled and what is queued. -/
def clock (now : Duration) (timers : List (Timer (Pending Unit (fun _ : Unit => Json) Json .finished)))
    (spawned : List (Pending Unit (fun _ : Unit => Json) Json .finished)) :
    World.Clock Unit (fun _ : Unit => Json) Json :=
  ⟨now, 1, timers, spawned⟩

/-- The schedule is registered, and work is handed over. -/
def setting : Prompt Unit (fun _ : Unit => Json) Json Unit :=
  .schedule delay false outer fun _ => .spawn outer (.done ())

/-- The advance when the work that it has polled is over. -/
def worked : Advancing Unit (fun _ : Unit => Json) Json := .alone span (.done ())

/-- The work that the advance has taken is run. -/
def runs (task : Pending Unit (fun _ : Unit => Json) Json .finished)
    (before after : World.Clock Unit (fun _ : Unit => Json) Json) :
    Beat Unit (fun _ : Unit => Json) Json :=
  .polled (.taking span [task]) worked (world before) (world after)

/-- The beats of the advance, the latest first. -/
def beats : List (Beat Unit (fun _ : Unit => Json) Json) :=
  [.arrived worked (world (clock delay [] [])) (world (clock span [] [])),
    runs inner (clock delay [] []) (clock delay [] []),
    .took worked (.drained delay [inner]) (world (clock delay [] [inner])) (world (clock delay [] [])),
    runs outer (clock delay [] []) (clock delay [] [inner]),
    .took worked (.fired delay timer) (world (clock .zero [timer] [])) (world (clock delay [] [])),
    runs inner (clock .zero [timer] []) (clock .zero [timer] []),
    .took worked (.drained .zero [inner]) (world (clock .zero [timer] [inner]))
      (world (clock .zero [timer] [])),
    runs outer (clock .zero [timer] []) (clock .zero [timer] [inner]),
    .took (.bare span) (.drained .zero [outer]) (world (clock .zero [timer] [outer]))
      (world (clock .zero [timer] [])),
    .polled (.outset span) (.bare span) (world (clock .zero [timer] [outer]))
      (world (clock .zero [timer] [outer]))]

theorem drive : Host.plain.Drive ⟨0, []⟩ 4 (.outset span) (world (clock .zero [timer] [outer])) beats none 0
    (world (clock span [] [])) := by
  have first : (clock .zero [timer] [outer]).Takes span (.drained .zero [outer]) (clock .zero [timer] []) :=
    .drained (by decide)
  have second : (clock .zero [timer] [inner]).Takes span (.drained .zero [inner]) (clock .zero [timer] []) :=
    .drained (by decide)
  have fires : (clock .zero [timer] []).Takes span (.fired delay timer) (clock delay [] []) :=
    @VirtualClock.Takes.fired _ _ _ (clock delay [] []) _ rfl rfl rfl
  have last : (clock delay [] [inner]).Takes span (.drained delay [inner]) (clock delay [] []) :=
    .drained (by decide)
  exact .goes (.outset span) (fun index => index.elim0) rfl first
    (.goes (.single rfl) (Advancing.idle_alone _) rfl second
      (.goes (.single rfl) (Advancing.idle_alone _) rfl fires
        (.goes (.single rfl) (Advancing.idle_alone _) rfl last
          (.arrives (.single rfl) (Advancing.idle_alone _) rfl ⟨rfl, rfl⟩))))

/-- The history of the whole, the latest first. -/
def history : List (Entry (Pending Unit (fun _ : Unit => Json) Json .finished)) :=
  [⟨.moved (.arrived span), clock span [] []⟩, ⟨.completed 1, clock delay [] []⟩,
    ⟨.moved .drained, clock delay [] []⟩, ⟨.completed 1, clock delay [] [inner]⟩,
    ⟨.moved (.spawned inner), clock delay [] [inner]⟩,
    ⟨.moved (.fired span timer), clock delay [] []⟩, ⟨.completed 1, clock .zero [timer] []⟩,
    ⟨.moved .drained, clock .zero [timer] []⟩, ⟨.completed 1, clock .zero [timer] [inner]⟩,
    ⟨.moved (.spawned inner), clock .zero [timer] [inner]⟩,
    ⟨.moved .drained, clock .zero [timer] []⟩, ⟨.completed 0, clock .zero [timer] [outer]⟩,
    ⟨.begun span, clock .zero [timer] [outer]⟩, ⟨.moved (.spawned outer), clock .zero [timer] [outer]⟩,
    ⟨.moved (.scheduled delay false outer), clock .zero [timer] []⟩]

/-- The beats of the whole. -/
def whole : List (Beat Unit (fun _ : Unit => Json) Json) :=
  beats ++ [.begun span (world (clock .zero [timer] [outer])),
    .aside (world .initial) (world (clock .zero [timer] [outer]))]

theorem explains : Explains history whole := by
  have spawns (now timers) : Asides (clock now timers [])
      [⟨.moved (.spawned inner), clock now timers [inner]⟩] (clock now timers [inner]) :=
    .cons (.nil _) (.spawned _ _) trivial
  have handed (now timers) : Beat.ShowsAs (runs outer (clock now timers []) (clock now timers [inner]))
      [⟨.moved (.spawned inner), clock now timers [inner]⟩] := .polled rfl rfl (spawns now timers)
  have ran (now timers) : Beat.ShowsAs (runs inner (clock now timers []) (clock now timers [])) [] :=
    .polled rfl rfl (.nil _)
  have called : Beat.ShowsAs (.aside (world .initial) (world (clock .zero [timer] [outer])))
      [⟨.moved (.spawned outer), clock .zero [timer] [outer]⟩,
        ⟨.moved (.scheduled delay false outer), clock .zero [timer] []⟩] :=
    .aside rfl rfl (.cons (.cons (.nil .initial) (.scheduled _ _ _ _) trivial) (.spawned _ _) trivial)
  have begun : Beat.ShowsAs (.begun span (world (clock .zero [timer] [outer]))) [⟨.begun span, _⟩] :=
    .begun rfl
  have driven : Explains _ beats :=
    .cons (.arrived rfl rfl) (.cons (ran delay []) (.cons (.took rfl rfl) (.cons (handed delay [])
      (.cons (.took rfl rfl) (.cons (ran .zero [timer]) (.cons (.took rfl rfl)
        (.cons (handed .zero [timer]) (.cons (.took rfl rfl)
          (.cons (.polled rfl rfl (.nil _)) .nil)))))))))
  exact driven.append (.cons begun (.cons called .nil))

theorem inner_errand : Host.plain.Errand inner where
  fresh _ := trivial
  ends _ _ _ _ _ _ _ polled := by
    cases polled
    rfl

theorem outer_errand : Host.plain.Errand outer where
  fresh _ := trivial
  ends _ _ _ _ _ _ _ polled := by
    cases polled
    rfl

/-- One poll of the advance runs the three pieces of work in order: one when the advance begins, with the
one that it spawns, and one when the schedule fires. -/
theorem relay_runs_once :
    (Pending.advance span (.done ()) : Pending Unit (fun _ : Unit => Json) Json .finished).poll
        (Host.plain.engine 4) ⟨0, []⟩ (world (clock .zero [timer] [outer])) =
          (.ok (.done ()), world (clock span [] [])) ∧
      spawnedIn history = [outer, inner, inner] ∧ drainedIn whole = spawnedIn history ∧
      Host.plain.Dutiful whole := by
  have called : Host.plain.Happens .still (world .initial)
      (setting.run (Host.plain.engine 4) (world .initial)).2 :=
    .call 4 ⟨⟨trivial, trivial⟩, fun _ => ⟨⟨trivial, trivial⟩, trivial⟩⟩
  have set : Host.plain.Journey (world .initial) none _ (world (clock .zero [timer] [outer])) none :=
    .aside .stays called
  have sum : (clock .zero [timer] [outer]).now.add? span = some span := rfl
  have outset : (world .initial).keeper = .virtual .initial := rfl
  have journey := (set.begun rfl sum).polled ⟨0, []⟩ 4 drive
  obtain ⟨paced, -, runs⟩ :=
    Host.Journey.runs_spawned_once (Host.plain_within .still) trivial outset journey
  have errands (task) (handed : task ∈ spawnedIn history) : Host.plain.Errand task := by
    have handed : task ∈ [outer, inner, inner] := handed
    simp only [List.mem_cons, List.not_mem_nil, or_false] at handed
    rcases handed with rfl | rfl | rfl
    · exact outer_errand
    · exact inner_errand
    · exact inner_errand
  obtain ⟨last, keeper, balance, dutiful⟩ := runs history explains errands
  cases keeper
  have keeper : (world (clock .zero [timer] [outer])).keeper = .virtual (clock .zero [timer] [outer]) := rfl
  exact ⟨(paced.begins keeper).2 ⟨span, sum, .passes drive rfl⟩, rfl, (balance.trans (List.append_nil _)).symm,
    dutiful⟩

end Relay

end EffectLoop
