import EffectLoop.Proofs.Command.Verdicts
import EffectLoop.Proofs.Time.Cadence
import EffectLoop.Proofs.World.Journeys
import EffectLoop.Proofs.World.Driving
import EffectLoop.Proofs.World.Scheduling
import EffectLoop.Proofs.Store.Finishing

/-!
# When scheduled commands are executed

On a virtual clock that one advance drives at a time, a scheduled command that nobody clears is
executed whenever its schedule is due, as far as the advances have come, and at no other time.  It
does not matter how the executions end, what else is scheduled, or how the way is divided into
advances.
-/

namespace EffectLoop

variable {S ι : Type} {Action : ι → Type} {A α : Type} {alphabet child : ι} {answer : Answer ι}

open VirtualClock (Asides Entry Leg Moves issuedIn runsOf)

/-! ## The work of a schedule -/

theorem Prompt.Within.thenPending {rules : Rules} {post : α → Prop} {first : Prompt S Action A α}
    {after : α → Pending S Action A answer} (within : first.Within rules post)
    (afterWithin : ∀ value, post value → (after value).Within rules) :
    (first.thenPending after).Within rules := by
  induction first with
  | done value => exact afterWithin value within
  | call effect next ih => exact ⟨within.1, fun reply => ih reply (within.2 reply)⟩
  | send action keep next ih => exact ih within
  | schedule delay repeating task next ih =>
      exact ⟨within.1, fun handle => ih handle (within.2 handle)⟩
  | spawn task next ih => exact ⟨within.1, ih within.2⟩

/-- A firing is within the rules if the command that it executes is, and if it may log. -/
theorem Cmd.Conforms.firing {rules : Rules} {options : Options} {cmd : Cmd S Action alphabet}
    (conforms : cmd.Conforms rules options) (logs : ∀ cause, rules.effect (.log (.firingFailure cause))) :
    Pending.Within rules (firing (cmd.execute options)) := by
  have failed (cause : CmdFailure) : Pending.Within rules
      (.logging (.firingFailure cause) (.done ()) : Pending S Action (Action alphabet) .finished) :=
    ⟨logs cause, fun _ => trivial⟩
  rw [EffectLoop.firing]
  apply Prompt.Within.thenPending conforms
  intro verdict pendingWithin
  rcases verdict with cause | _ | follow
  · exact failed cause
  · trivial
  · apply (pendingWithin follow rfl).bind
    intro produced
    cases produced with
    | error cause => exact failed cause
    | ok actions =>
        intro reply
        cases reply with
        | error cause => exact failed cause
        | ok _ => trivial

theorem Prompt.Within.ofNoted {rules : Rules} {post : α → Prop} {found : Noted α}
    (notes : ∀ value, rules.effect (.note value)) (holds : post found.value) :
    (Prompt.ofNoted found : Prompt S Action A α).Within rules post := by
  obtain ⟨values, value⟩ := found
  induction values with
  | nil => exact holds
  | cons note rest ih => exact ⟨notes note, fun _ => ih holds⟩

/-- A scheduled command is as still as the command that it schedules. -/
theorem Cmd.Conforms.scheduled {options : Options} {nested : Cmd S Action alphabet}
    (conforms : nested.Conforms .still options) (delay : Duration) (repeating : Bool)
    (creator : Option (TimerHandle → Noted (Action alphabet))) :
    (Cmd.scheduled nested delay repeating creator).Conforms .still options := by
  refine ⟨conforms.firing fun _ => trivial, fun handle => ⟨trivial, fun _ => ?_⟩⟩
  cases creator with
  | none => exact nofun
  | some creator =>
      have noted : (Prompt.ofNoted (some <$> creator handle) : Prompt S Action (Action alphabet) _).Within
          .still fun _ => True := .ofNoted (fun _ => trivial) trivial
      apply noted.bind
      intro action _
      cases action with
      | none => exact nofun
      | some action =>
          rintro follow ⟨⟩
          trivial

/-- What a scheduled command hands to the clock, if its actions are tagged on the way. -/
def Cmd.work (nested : Cmd S Action child) (options : Options) (tag : Action child → Noted A) :
    Pending S Action A .finished :=
  (firing (nested.execute options)).retag tag

/-- The work of a schedule begins with an execution of the command. -/
theorem Cmd.of_work_poll {nested : Cmd S Action child} {options : Options}
    {tag : Action child → Noted A} {engine : Engine S Action A} {waiter : Waiter}
    {world after : World S Action A} {left : Pending S Action A .finished}
    (polled : (nested.work options tag).poll engine waiter world = (.ok left, after)) :
    ∃ verdict middle,
      ((nested.execute options).retag tag).run engine world = (.ok verdict, middle) := by
  rw [work, firing, Prompt.retag_thenPending, Prompt.poll_thenPending] at polled
  obtain ⟨verdict, middle, executed, -⟩ := Run.of_bind_ok polled
  exact ⟨verdict, middle, executed⟩

/-- To execute a scheduled command is to schedule its work.  The clock is not concerned by what is
made of the handle. -/
theorem Cmd.keeper_scheduled {clock : World.Clock S Action A} {world : World S Action A}
    (keeper : world.keeper = .virtual clock) (nested : Cmd S Action child) (delay : Duration)
    (repeating : Bool) (creator : Option (TimerHandle → Noted (Action child))) (options : Options)
    (tag : Action child → Noted A) (engine : Engine S Action A) :
    ((((Cmd.scheduled nested delay repeating creator).execute options).retag tag).run engine
      world).2.keeper =
        .virtual (clock.schedule delay repeating (nested.work options tag)).2 := by
  rw [Cmd.execute, Prompt.retag, Prompt.run, ← work]
  have scheduled := Run.schedule_virtual keeper delay repeating (nested.work options tag)
  cases answer : (clock.schedule delay repeating (nested.work options tag)).1 with
  | none =>
      rw [answer] at scheduled
      rw [Run.bind_of_error scheduled]
  | some handle =>
      rw [answer] at scheduled
      rw [Run.bind_of_ok scheduled]
      cases creator with
      | none => rfl
      | some creator =>
          change ((Prompt.retag tag (Verdict.ofAction (some <$> creator handle))).run engine
            (World.emit _ _)).2.keeper = _
          rw [Verdict.run_ofAction, Store.annotate_eq]
          rfl

/-! ## When the work of a schedule is polled -/

/-- The work that an advance takes from the clock for a schedule, with the time that the clock then
shows. -/
def Beat.fires? (handle : TimerHandle) :
    Beat S Action A → Option (Nat × Pending S Action A .finished)
  | .took _ (.fired _ timer) _ ready =>
      if timer.handle = handle then some (ready.keeper.now.nanos, timer.task) else none
  | _ => none

/-- All the work that was taken for a schedule, the earliest first. -/
def takenFor (handle : TimerHandle) (beats : List (Beat S Action A)) :
    List (Nat × Pending S Action A .finished) :=
  (beats.filterMap (Beat.fires? handle)).reverse

/-- Whenever the schedule has fired, the advance polls its work at once, while the clock shows the time
of the firing, and this poll begins with the computation. -/
def Host.Executes (host : Host S Action alphabet) (start : Prompt S Action (Action alphabet) α)
    (handle : TimerHandle) (beats : List (Beat S Action (Action alphabet))) : Prop :=
  ∀ ended now timer before ready earlier,
    .took ended (.fired now timer) before ready :: earlier <:+ beats → timer.handle = handle →
    ∃ left after waiter depth verdict middle,
      .polled (.taking ended.target [timer.task]) left ready after ::
        .took ended (.fired now timer) before ready :: earlier <:+ beats ∧
      host.Works waiter depth (.taking ended.target [timer.task]) ready left after ∧
      start.run (host.engine depth) ready = (.ok verdict, middle)

section Explains

variable {handle : TimerHandle} {beats : List (Beat S Action A)}
variable {history : List (Entry (Pending S Action A .finished))}

/-- Beside an advance nothing fires. -/
theorem VirtualClock.Asides.runs_eq_nil {τ : Type} {clock moved : VirtualClock τ}
    {entries : List (Entry τ)} (asides : Asides clock entries moved) :
    entries.filterMap (Entry.runs? handle) = [] := by
  induction asides with
  | nil => rfl
  | @cons _ _ _ move _ _ aside ih =>
      cases move with
      | scheduled | cleared | spawned => exact ih
      | drained | fired | strained | arrived => cases aside

/-- What is taken for a schedule is what a history calls its runs. -/
theorem Explains.runsOf_eq (explains : Explains history beats) :
    runsOf handle history = takenFor handle beats := by
  rw [runsOf, takenFor]
  congr 1
  induction explains with
  | nil => rfl
  | cons shows _ ih =>
      rw [List.filterMap_append, ih]
      cases shows with
      | aside _ _ asides => rw [asides.runs_eq_nil]; rfl
      | begun => rfl
      | polled _ _ asides => rw [asides.runs_eq_nil]; rfl
      | @took ended leg _ _ _ _ _ keeper =>
          cases leg with
          | drained => rfl
          | fired now timer =>
              by_cases same : timer.handle = handle <;>
                simp [Leg.move, Entry.runs?, Beat.fires?, keeper, Keeper.now, same]
      | arrived => rfl

theorem mem_takenFor {run : Nat × Pending S Action A .finished} :
    run ∈ takenFor handle beats ↔ ∃ ended now timer before ready,
      .took ended (.fired now timer) before ready ∈ beats ∧ timer.handle = handle ∧
        run = (ready.keeper.now.nanos, timer.task) := by
  rw [takenFor, List.mem_reverse, List.mem_filterMap]
  constructor
  · rintro ⟨beat, within, fires⟩
    cases beat with
    | took ended leg before ready =>
        cases leg with
        | drained => cases fires
        | fired now timer =>
            rw [Beat.fires?, Option.ite_none_right_eq_some] at fires
            cases fires.2
            exact ⟨ended, now, timer, before, ready, within, fires.1, rfl⟩
    | aside | begun | polled | arrived => cases fires
  · rintro ⟨ended, now, timer, before, ready, within, same, rfl⟩
    exact ⟨_, within, if_pos same⟩

end Explains

/-- If only this work is taken for the schedule, each time the command is executed. -/
theorem Host.Journey.executes {host : Host S Action alphabet}
    {start world : World S Action (Action alphabet)}
    {first way : Option (Advancing S Action (Action alphabet))}
    {beats : List (Beat S Action (Action alphabet))}
    (journey : host.Journey start first beats world way) {nested : Cmd S Action child}
    {options : Options} {tag : Action child → Noted (Action alphabet)} {handle : TimerHandle}
    (only : ∀ run ∈ takenFor handle beats, run.2 = nested.work options tag) :
    host.Executes ((nested.execute options).retag tag) handle beats := by
  intro ended now timer before ready earlier suffix same
  obtain ⟨left, after, waiter, depth, inside, works⟩ := journey.opens suffix
  have taken := only _ (mem_takenFor.2
    ⟨ended, now, timer, before, ready, suffix.mem List.mem_cons_self, same, rfl⟩)
  obtain ⟨verdict, middle, executed⟩ : ∃ verdict middle,
      ((nested.execute options).retag tag).run (host.engine depth) ready = (.ok verdict, middle) := by
    cases works with
    | intro joined =>
        have alone := Engine.pollJoin_single_eq (host.engine depth) waiter none [timer.task].get
          fun index => ([timer.task].get index).poll (host.engine depth) waiter
        obtain ⟨rest, last, polled, -⟩ := Run.of_bind_ok ((congrFun alone ready).symm.trans joined)
        have polled : timer.task.poll (host.engine depth) waiter ready = (.ok rest, last) := polled
        rw [show timer.task = nested.work options tag from taken] at polled
        exact Cmd.of_work_poll polled
  exact ⟨left, after, waiter, depth, verdict, middle, inside, works, executed⟩

/-! ## When a scheduled command is executed -/

/-- A scheduled command that nobody clears is executed when it is due: once, after the delay, or after
every period, as far as the advances have come.  The command may be scheduled at any point of a journey,
and then its work is registered; advances of any number and length may follow, each of which ends with an
arrival, and anything may happen in between. -/
theorem Host.Journey.executes_when_due {host : Host S Action alphabet} (within : host.Within .still)
    {start : World S Action (Action alphabet)} (fresh : start.keeper = .virtual .initial)
    (nested : Cmd S Action child) (delay : Duration) (repeating : Bool)
    (creator : Option (TimerHandle → Noted (Action child))) (options : Options)
    (tag : Action child → Noted (Action alphabet)) (conforms : nested.Conforms .still options) :
    host.Paced ∧
    (∀ past before way base clock depth asked, host.Journey start none past before way →
      Explains base past → before.keeper = .virtual clock →
      asked = ((((Cmd.scheduled nested delay repeating creator).execute options).retag tag).run
        (host.engine depth) before).2 →
      host.Journey start none (.aside before asked :: past) asked way ∧
        Explains (⟨.moved (.scheduled delay repeating (nested.work options tag)),
          (clock.schedule delay repeating (nested.work options tag)).2⟩ :: base)
          (.aside before asked :: past)) ∧
    (∀ waiter depth going before more inner after history,
      host.Drive waiter depth going before more none inner after → Explains history more →
        ∃ entry ∈ history, entry.Arrives) ∧
    ∀ beats last final, host.Journey start none beats last none → last.keeper = .virtual final →
      (∃ history, Explains history beats) ∧
      ∀ recent registered base,
        Explains (recent ++ ⟨.moved (.scheduled delay repeating (nested.work options tag)),
          registered⟩ :: base) beats →
        issuedIn (recent ++ ⟨.moved (.scheduled delay repeating (nested.work options tag)),
          registered⟩ :: base) < 2 ^ 64 →
        (∃ entry ∈ recent, entry.Arrives) →
        (∀ shown, ⟨.moved (.cleared ⟨registered.issued⟩), shown⟩ ∉ recent) →
        (repeating = false → takenFor ⟨registered.issued⟩ beats =
          if registered.now.nanos + delay.nanos ≤ final.now.nanos then
            [(registered.now.nanos + delay.nanos, nested.work options tag)]
          else []) ∧
        (repeating = true → takenFor ⟨registered.issued⟩ beats =
          (List.range ((final.now.nanos - registered.now.nanos) /
            max delay.nanos Duration.millisecond)).map fun count =>
              (registered.now.nanos + (count + 1) * max delay.nanos Duration.millisecond,
                nested.work options tag)) ∧
        host.Executes ((nested.execute options).retag tag) ⟨registered.issued⟩ beats := by
  refine ⟨host.paced, ?_, fun _ _ _ _ _ _ _ _ drive explains => drive.exists_arrives explains, ?_⟩
  · rintro past before way base clock depth asked journey explains keeper rfl
    have scheduling : (((Cmd.scheduled nested delay repeating creator).execute options).retag
        tag).Within .still fun _ => True :=
      Prompt.Within.retag (conforms.scheduled delay repeating creator) tag fun _ _ => trivial
    have happens : host.Happens .still before _ := .call depth scheduling
    have asides : Asides clock [⟨.moved (.scheduled delay repeating (nested.work options tag)), _⟩] _ :=
      .cons (.nil clock) (.scheduled clock delay repeating (nested.work options tag)) trivial
    have registers := Cmd.keeper_scheduled keeper nested delay repeating creator options tag
      (host.engine depth)
    exact ⟨journey.aside happens, .cons (.aside keeper registers asides) explains⟩
  · intro beats last final journey keeper
    obtain ⟨explained, timelines⟩ := journey.timelines within fresh
    refine ⟨explained, ?_⟩
    intro recent registered base explains few arrived kept
    cases (timelines _ explains).follows within with
    | intro known _ course under =>
        rw [keeper] at known
        cases known
        cases under
        have runs := course.runsOf_eq few arrived kept
        rw [explains.runsOf_eq] at runs
        refine ⟨?_, ?_, ?_⟩
        · intro single
          rw [runs, single, dueTimes_single, apply_ite (List.map _)]
          rfl
        · intro repeats
          rw [runs, repeats, dueTimes_repeating, List.map_map]
          rfl
        · apply journey.executes
          intro run taken
          rw [runs] at taken
          obtain ⟨time, -, rfl⟩ := List.mem_map.1 taken
          rfl

/-! ### A command that fails whenever it is executed -/

namespace Stubborn

/-- So many tenths of a millisecond. -/
def tenths (count : Fin 100) : Duration :=
  ⟨count * 100000, by
    have small := count.isLt
    simp only [Duration.limit, Duration.second]
    omega⟩

/-- It fails in the call, and nothing is made of that. -/
def command : Cmd Unit (fun _ : Unit => Json) () :=
  .run ⟨fun _ => .done (.ready (.error (.message "broken"))), [], none, none, false⟩

def work : Pending Unit (fun _ : Unit => Json) Json .finished := command.work .default pure

/-- Something else is scheduled. -/
def other : Timer (Pending Unit (fun _ : Unit => Json) Json .finished) :=
  ⟨⟨1⟩, tenths 15, none, .done ()⟩

/-- The schedule of the command, which repeats as often as possible. -/
def timer (due : Duration) : Timer (Pending Unit (fun _ : Unit => Json) Json .finished) :=
  ⟨⟨2⟩, due, some .oneMillisecond, work⟩

def before : World.Clock Unit (fun _ : Unit => Json) Json := ⟨.zero, 1, [other], []⟩

def clock (now : Duration)
    (timers : List (Timer (Pending Unit (fun _ : Unit => Json) Json .finished))) :
    World.Clock Unit (fun _ : Unit => Json) Json := ⟨now, 2, timers, []⟩

/-- The other schedule is asked for. -/
def setting : Prompt Unit (fun _ : Unit => Json) Json TimerHandle :=
  .schedule (tenths 15) false (.done ()) .done

/-- The command is scheduled. -/
def asked : World Unit (fun _ : Unit => Json) Json :=
  ((((Cmd.scheduled command .zero true none).execute .default).retag pure).run
    (Host.plain.engine 3) (Lone.world before)).2

/-- An advance fires it, then the other schedule, and ends a little later. -/
def fired : World Unit (fun _ : Unit => Json) Json := (Run.nextDriven (tenths 18) asked).2

def failed : World Unit (fun _ : Unit => Json) Json := (work.poll (Host.plain.engine 1) ⟨0, []⟩ fired).2

def passed : World Unit (fun _ : Unit => Json) Json := (Run.nextDriven (tenths 18) failed).2

def arrived : World Unit (fun _ : Unit => Json) Json := (Run.nextDriven (tenths 18) passed).2

/-- Another advance fires it again. -/
def firedAgain : World Unit (fun _ : Unit => Json) Json := (Run.nextDriven (tenths 22) arrived).2

def failedAgain : World Unit (fun _ : Unit => Json) Json :=
  (work.poll (Host.plain.engine 0) ⟨0, []⟩ firedAgain).2

def ended : World Unit (fun _ : Unit => Json) Json := (Run.nextDriven (tenths 22) failedAgain).2

/-- An advance when the work that it has polled is over. -/
def spent (target : Duration) : Advancing Unit (fun _ : Unit => Json) Json := .alone target (.done ())

/-- The beats of the first advance, the latest first. -/
def first : List (Beat Unit (fun _ : Unit => Json) Json) :=
  [.arrived (spent (tenths 18)) passed arrived,
    .polled (.taking (tenths 18) [.done ()]) (spent (tenths 18)) passed passed,
    .took (spent (tenths 18)) (.fired (tenths 15) other) failed passed,
    .polled (.taking (tenths 18) [work]) (spent (tenths 18)) fired failed,
    .took (.bare (tenths 18)) (.fired (tenths 10) (timer (tenths 10))) asked fired,
    .polled (.outset (tenths 18)) (.bare (tenths 18)) asked asked]

/-- The beats of the second one. -/
def second : List (Beat Unit (fun _ : Unit => Json) Json) :=
  [.arrived (spent (tenths 22)) failedAgain ended,
    .polled (.taking (tenths 22) [work]) (spent (tenths 22)) firedAgain failedAgain,
    .took (.bare (tenths 22)) (.fired (tenths 20) (timer (tenths 20))) arrived firedAgain,
    .polled (.outset (tenths 22)) (.bare (tenths 22)) arrived arrived]

/-- The beats of the whole. -/
def beats : List (Beat Unit (fun _ : Unit => Json) Json) :=
  second ++ .begun (tenths 4) arrived :: (first ++ .begun (tenths 18) asked ::
    [.aside (Lone.world before) asked, .aside (Lone.world .initial) (Lone.world before)])

/-- What has happened since the command was scheduled, the latest first. -/
def recent : List (Entry (Pending Unit (fun _ : Unit => Json) Json .finished)) :=
  [⟨.moved (.arrived (tenths 22)), clock (tenths 22) [timer (tenths 30)]⟩,
    ⟨.completed 1, clock (tenths 20) [timer (tenths 30)]⟩,
    ⟨.moved (.fired (tenths 22) (timer (tenths 20))), clock (tenths 20) [timer (tenths 30)]⟩,
    ⟨.completed 0, clock (tenths 18) [timer (tenths 20)]⟩,
    ⟨.begun (tenths 4), clock (tenths 18) [timer (tenths 20)]⟩,
    ⟨.moved (.arrived (tenths 18)), clock (tenths 18) [timer (tenths 20)]⟩,
    ⟨.completed 1, clock (tenths 15) [timer (tenths 20)]⟩,
    ⟨.moved (.fired (tenths 18) other), clock (tenths 15) [timer (tenths 20)]⟩,
    ⟨.completed 1, clock (tenths 10) [other, timer (tenths 20)]⟩,
    ⟨.moved (.fired (tenths 18) (timer (tenths 10))), clock (tenths 10) [other, timer (tenths 20)]⟩,
    ⟨.completed 0, clock .zero [other, timer (tenths 10)]⟩,
    ⟨.begun (tenths 18), clock .zero [other, timer (tenths 10)]⟩]

/-- What had happened before. -/
def base : List (Entry (Pending Unit (fun _ : Unit => Json) Json .finished)) :=
  [⟨.moved (.scheduled (tenths 15) false (.done ())), before⟩]

theorem first_drive : Host.plain.Drive ⟨0, []⟩ 2 (.outset (tenths 18)) asked first none 0 arrived := by
  have fires : (clock .zero [other, timer (tenths 10)]).Takes (tenths 18)
      (.fired (tenths 10) (timer (tenths 10))) (clock (tenths 10) [other, timer (tenths 20)]) :=
    @VirtualClock.Takes.fired _ _ _ (clock (tenths 10) [other, timer (tenths 20)]) _ rfl rfl rfl
  have passes : (clock (tenths 10) [other, timer (tenths 20)]).Takes (tenths 18)
      (.fired (tenths 15) other) (clock (tenths 15) [timer (tenths 20)]) :=
    @VirtualClock.Takes.fired _ _ _ (clock (tenths 15) [timer (tenths 20)]) _ rfl rfl rfl
  exact .goes (.outset _) (fun index => index.elim0) rfl fires
    (.goes (.single rfl) (Advancing.idle_alone _) rfl passes
      (.arrives (.single rfl) (Advancing.idle_alone _) rfl ⟨rfl, rfl⟩))

theorem second_drive :
    Host.plain.Drive ⟨0, []⟩ 1 (.outset (tenths 22)) arrived second none 0 ended := by
  have fires : (clock (tenths 18) [timer (tenths 20)]).Takes (tenths 22)
      (.fired (tenths 20) (timer (tenths 20))) (clock (tenths 20) [timer (tenths 30)]) :=
    @VirtualClock.Takes.fired _ _ _ (clock (tenths 20) [timer (tenths 30)]) _ rfl rfl rfl
  exact .goes (.outset _) (fun index => index.elim0) rfl fires
    (.arrives (.single rfl) (Advancing.idle_alone _) rfl ⟨rfl, rfl⟩)

theorem conforms : command.Conforms .still .default := by
  refine ⟨trivial, fun _ pending found => ?_⟩
  cases found

/-- Fired twice, whatever came of the first execution. -/
theorem explains : Explains
    (recent ++ ⟨.moved (.scheduled .zero true work), clock .zero [other, timer (tenths 10)]⟩ :: base) beats := by
  have set : Beat.ShowsAs (.aside (Lone.world .initial) (Lone.world before)) base :=
    .aside rfl rfl (.cons (.nil .initial) (.scheduled _ _ _ _) trivial)
  have asks : Beat.ShowsAs (.aside (Lone.world before) asked)
      [⟨.moved (.scheduled .zero true work), clock .zero [other, timer (tenths 10)]⟩] :=
    .aside rfl rfl (.cons (.nil before) (.scheduled _ _ _ _) trivial)
  have begins : Beat.ShowsAs (.begun (tenths 18) asked) [⟨.begun (tenths 18), _⟩] := .begun rfl
  have resumes : Beat.ShowsAs (.begun (tenths 4) arrived) [⟨.begun (tenths 4), _⟩] := .begun rfl
  have explainsFirst : Explains _ first :=
    .cons (.arrived rfl rfl) (.cons (.polled rfl rfl (.nil _)) (.cons (.took rfl rfl)
      (.cons (.polled rfl rfl (.nil _)) (.cons (.took rfl rfl) (.cons (.polled rfl rfl (.nil _)) .nil)))))
  have explainsSecond : Explains _ second :=
    .cons (.arrived rfl rfl) (.cons (.polled rfl rfl (.nil _)) (.cons (.took rfl rfl)
      (.cons (.polled rfl rfl (.nil _)) .nil)))
  exact explainsSecond.append (.cons resumes (explainsFirst.append
    (.cons begins (.cons asks (.cons set .nil)))))

/-- Two polls of advances take its work, after one millisecond and after two although it fails, and each
time execute the command. -/
theorem command_executed_when_due :
    (Pending.advance (tenths 18) (.done ()) : Pending Unit (fun _ : Unit => Json) Json .finished).poll
        (Host.plain.engine 2) ⟨0, []⟩ asked = (.ok (.done ()), arrived) ∧
      (Pending.advance (tenths 4) (.done ()) : Pending Unit (fun _ : Unit => Json) Json .finished).poll
        (Host.plain.engine 1) ⟨0, []⟩ arrived = (.ok (.done ()), ended) ∧
      takenFor ⟨2⟩ beats = [(1000000, work), (2000000, work)] ∧
      Host.plain.Executes ((command.execute .default).retag pure) ⟨2⟩ beats := by
  have fresh : (Lone.world .initial).keeper = .virtual .initial := rfl
  obtain ⟨paced, scheduling, -, executing⟩ := Host.Journey.executes_when_due (Host.plain_within .still) fresh
    command .zero true none .default pure conforms
  have called : Host.plain.Happens .still (Lone.world .initial) (Lone.world before) :=
    .call 3 (show setting.Within .still fun _ => True from ⟨trivial, fun _ => trivial⟩)
  have set : Host.plain.Journey (Lone.world .initial) none _ (Lone.world before) none := .aside .stays called
  have shown : Explains base [.aside (Lone.world .initial) (Lone.world before)] :=
    .cons (.aside rfl rfl (.cons (.nil .initial) (.scheduled _ _ _ _) trivial)) .nil
  obtain ⟨registered, -⟩ := scheduling _ _ _ _ _ _ _ set shown rfl rfl
  have sum : (clock .zero [other, timer (tenths 10)]).now.add? (tenths 18) = some (tenths 18) := rfl
  have sumAgain : (clock (tenths 18) [timer (tenths 20)]).now.add? (tenths 4) = some (tenths 22) := rfl
  have journey := (((registered.begun rfl sum).polled ⟨0, []⟩ 2 first_drive).begun rfl sumAgain).polled
    ⟨0, []⟩ 1 second_drive
  obtain ⟨-, result⟩ := executing beats ended _ journey rfl
  obtain ⟨-, taken, executes⟩ := result recent _ base explains (by decide)
    ⟨_, List.mem_cons_self, trivial⟩ (by simp [recent])
  have keeper : asked.keeper = .virtual (clock .zero [other, timer (tenths 10)]) := rfl
  have keeperThen : arrived.keeper = .virtual (clock (tenths 18) [timer (tenths 20)]) := rfl
  exact ⟨(paced.begins keeper).2 ⟨_, sum, .passes first_drive rfl⟩,
    (paced.begins keeperThen).2 ⟨_, sumAgain, .passes second_drive rfl⟩, taken rfl, executes⟩

end Stubborn

end EffectLoop
