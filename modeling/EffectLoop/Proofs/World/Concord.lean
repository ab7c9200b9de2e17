import EffectLoop.Proofs.Time.Punctuality
import EffectLoop.Proofs.World.Journeys
import EffectLoop.Proofs.World.Recounting

/-!
# The schedulers agree

A virtual clock keeps a table of due times, and an advance fires one after the other.  A task clock
has a sleeping task for each schedule.  Given the same calls, schedules fire at the same times on
both, as far as both have come, if they are due on whole milliseconds, if their work is over in one
poll and leaves the scheduler alone, and if none is cancelled at a moment at which it is due.  The
timelines of a virtual clock are those of its journeys (`Host.Journey.timelines`).
-/

namespace EffectLoop

variable {S ι T κ : Type} {Action : ι → Type} {Other : κ → Type} {alphabet : ι} {kin : κ}

/-- Under the same calls both schedulers fire every schedule at the same times.  On the virtual clock the
advances are polled: every poll goes through its beats, and the journeys that are made of such beats, with
anything that advances no clock in between, have timelines. -/
theorem Host.Timeline.fires_as_recounted {host : Host S Action alphabet} (within : host.Within .still) :
    host.Paced ∧
    (∀ start beats last way, start.keeper = .virtual .initial → host.Journey start none beats last way →
      (∃ history, Explains history beats) ∧
        ∀ history, Explains history beats → host.Timeline history last way) ∧
    ∀ history world way clock, host.Timeline history world way → world.keeper = .virtual clock →
      VirtualClock.issuedIn history < 2 ^ 64 →
      ∀ (session : Session T Other kin) chronicle tasks, session.Recounts chronicle →
        session.world.keeper = .tasks tasks → chronicle.requests < 2 ^ 64 →
        ∀ bound, bound ≤ clock.now.nanos → bound ≤ tasks.now.nanos →
          (VirtualClock.chronicle history).calls.before bound = chronicle.calls.before bound →
          (chronicle.calls.before bound).Undue →
          ∀ handle, ((VirtualClock.chronicle history).firings handle).filter (· < bound) =
            (chronicle.firings handle).filter (· < bound) := by
  refine ⟨host.paced, fun _ _ _ _ fresh journey => journey.timelines within fresh, ?_⟩
  intro history world way clock timeline keeper few session chronicle tasks recounts tasksKeeper fewer
    bound reached likewise same undue handle
  obtain ⟨known, -, course, -⟩ := timeline.follows within
  rw [keeper] at known
  cases known
  obtain ⟨-, other, known, timely⟩ := recounts.timely fewer
  rw [tasksKeeper] at known
  cases known
  have tells := course.tells few
  exact tells.punctual.firings_eq timely.punctual reached likewise same (same ▸ undue) handle

/-! ### Two schedules on both schedulers -/

namespace Pacing

def period : Duration := ⟨10 * Duration.millisecond, Duration.tenMillis_lt⟩

/-- The first schedule is cancelled while it is not due. -/
def pause : Duration := ⟨12 * Duration.millisecond, by decide⟩

def rest : Duration := ⟨13 * Duration.millisecond, by decide⟩

def again : Duration := ⟨20 * Duration.millisecond, Duration.twentyMillis_lt⟩

def close : Duration := ⟨25 * Duration.millisecond, Duration.twentyFiveMillis_lt⟩

def work : Pending Unit (fun _ : Unit => Json) Json .finished := .done ()

/-! #### The virtual clock -/

/-- Fires over and over. -/
def timer : Timer (Pending Unit (fun _ : Unit => Json) Json .finished) :=
  ⟨⟨1⟩, period, some period, work⟩

/-- Fires once, at once. -/
def single : Timer (Pending Unit (fun _ : Unit => Json) Json .finished) := ⟨⟨2⟩, .zero, none, work⟩

/-- Both schedules are registered, and later the first one is cancelled. -/
def setting : Prompt Unit (fun _ : Unit => Json) Json Unit :=
  .schedule period true work fun _ => .schedule .zero false work fun _ => .done ()

def cancelling : Prompt Unit (fun _ : Unit => Json) Json Unit :=
  .call (.clear ⟨1⟩) fun _ => .done ()

def scheduled : World.Clock Unit (fun _ : Unit => Json) Json := ⟨.zero, 2, [timer, single], []⟩

def begun : World.Clock Unit (fun _ : Unit => Json) Json := ⟨.zero, 2, [timer], []⟩

def ticked : World.Clock Unit (fun _ : Unit => Json) Json :=
  ⟨period, 2, [{ timer with due := again }], []⟩

def paused : World.Clock Unit (fun _ : Unit => Json) Json :=
  ⟨pause, 2, [{ timer with due := again }], []⟩

def cleared : World.Clock Unit (fun _ : Unit => Json) Json := ⟨pause, 2, [], []⟩

def closed : World.Clock Unit (fun _ : Unit => Json) Json := ⟨close, 2, [], []⟩

def history : List (VirtualClock.Entry (Pending Unit (fun _ : Unit => Json) Json .finished)) :=
  [⟨.moved (.arrived close), closed⟩, ⟨.completed 0, cleared⟩, ⟨.begun rest, cleared⟩,
    ⟨.moved (.cleared ⟨1⟩), cleared⟩, ⟨.moved (.arrived pause), paused⟩, ⟨.completed 1, ticked⟩,
    ⟨.moved (.fired pause timer), ticked⟩, ⟨.completed 1, begun⟩,
    ⟨.moved (.fired pause single), begun⟩, ⟨.completed 0, scheduled⟩, ⟨.begun pause, scheduled⟩,
    ⟨.moved (.scheduled .zero false work), scheduled⟩,
    ⟨.moved (.scheduled period true work), ⟨.zero, 1, [timer], []⟩⟩]

/-- The advance when the work that it has polled is over. -/
def worked : Advancing Unit (fun _ : Unit => Json) Json := .alone pause (.done ())

/-- The beats of the first advance, which fires both schedules, the latest first. -/
def firing : List (Beat Unit (fun _ : Unit => Json) Json) :=
  [.arrived worked (Lone.world ticked) (Lone.world paused),
    .polled (.taking pause [work]) worked (Lone.world ticked) (Lone.world ticked),
    .took worked (.fired period timer) (Lone.world begun) (Lone.world ticked),
    .polled (.taking pause [work]) worked (Lone.world begun) (Lone.world begun),
    .took (.bare pause) (.fired .zero single) (Lone.world scheduled) (Lone.world begun),
    .polled (.outset pause) (.bare pause) (Lone.world scheduled) (Lone.world scheduled)]

/-- The beats of the second one, which fires nothing. -/
def closing : List (Beat Unit (fun _ : Unit => Json) Json) :=
  [.arrived (.bare close) (Lone.world cleared) (Lone.world closed),
    .polled (.outset close) (.bare close) (Lone.world cleared) (Lone.world cleared)]

theorem firing_drive : Host.plain.Drive ⟨0, []⟩ 2 (.outset pause) (Lone.world scheduled) firing none 0
    (Lone.world paused) := by
  have fires : scheduled.Takes pause (.fired .zero single) begun :=
    @VirtualClock.Takes.fired _ _ _ begun _ rfl rfl rfl
  have ticks : begun.Takes pause (.fired period timer) ticked :=
    @VirtualClock.Takes.fired _ _ _ ticked _ rfl rfl rfl
  exact .goes (.outset pause) (fun index => index.elim0) rfl fires
    (.goes (.single rfl) (Advancing.idle_alone _) rfl ticks
      (.arrives (.single rfl) (Advancing.idle_alone _) rfl ⟨rfl, rfl⟩))

theorem closing_drive : Host.plain.Drive ⟨0, []⟩ 0 (.outset close) (Lone.world cleared) closing none 0
    (Lone.world closed) := by
  have keeper : (Lone.world cleared).keeper = .virtual cleared := rfl
  exact .arrives (.outset close) (fun index => index.elim0) keeper ⟨rfl, rfl⟩

theorem sum : scheduled.now.add? pause = some pause := rfl

theorem sumAgain : cleared.now.add? rest = some close := rfl

/-- The beats of the whole. -/
def beats : List (Beat Unit (fun _ : Unit => Json) Json) :=
  closing ++ .begun rest (Lone.world cleared) :: .aside (Lone.world paused) (Lone.world cleared) ::
    (firing ++ [.begun pause (Lone.world scheduled), .aside (Lone.world .initial) (Lone.world scheduled)])

theorem journey : Host.plain.Journey (Lone.world .initial) none beats (Lone.world closed) none := by
  have called : Host.plain.Happens .still (Lone.world .initial) (Lone.world scheduled) :=
    .call 2 (show setting.Within .still fun _ => True from
      ⟨trivial, fun _ => ⟨trivial, fun _ => trivial⟩⟩)
  have cancelled : Host.plain.Happens .still (Lone.world paused) (Lone.world cleared) :=
    .call 2 (show cancelling.Within .still fun _ => True from ⟨trivial, fun _ => trivial⟩)
  have set : Host.plain.Journey (Lone.world .initial) none _ (Lone.world scheduled) none :=
    .aside .stays called
  exact ((((set.begun rfl sum).polled ⟨0, []⟩ 2 firing_drive).aside cancelled).begun rfl sumAgain).polled
    ⟨0, []⟩ 0 closing_drive

theorem explains : Explains history beats := by
  have calls : Beat.ShowsAs (.aside (Lone.world .initial) (Lone.world scheduled))
      [⟨.moved (.scheduled .zero false work), scheduled⟩,
        ⟨.moved (.scheduled period true work), ⟨.zero, 1, [timer], []⟩⟩] :=
    .aside rfl rfl (.cons (.cons (.nil .initial) (.scheduled _ _ _ _) trivial) (.scheduled _ _ _ _) trivial)
  have clears : Beat.ShowsAs (.aside (Lone.world paused) (Lone.world cleared))
      [⟨.moved (.cleared ⟨1⟩), cleared⟩] :=
    .aside rfl rfl (.cons (.nil paused) (.cleared _ _) trivial)
  have begins : Beat.ShowsAs (.begun pause (Lone.world scheduled)) [⟨.begun pause, scheduled⟩] := .begun rfl
  have resumes : Beat.ShowsAs (.begun rest (Lone.world cleared)) [⟨.begun rest, cleared⟩] := .begun rfl
  have fires : Explains _ firing :=
    .cons (.arrived rfl rfl) (.cons (.polled rfl rfl (.nil _)) (.cons (.took rfl rfl)
      (.cons (.polled rfl rfl (.nil _)) (.cons (.took rfl rfl) (.cons (.polled rfl rfl (.nil _)) .nil)))))
  have closes : Explains _ closing :=
    .cons (.arrived rfl rfl) (.cons (.polled rfl rfl (.nil _)) .nil)
  exact closes.append (.cons resumes (.cons clears (fires.append (.cons begins (.cons calls .nil)))))

/-! #### The task clock -/

abbrev Clock := TaskClock (LocalTask Unit (fun _ : Unit => Json) Json)

/-- A session with the given clock. -/
def session (clock : Clock) (stirred : Bool) (trace : List LogEntry) :
    Session Unit (fun _ : Unit => Json) () :=
  { Ticking.start with world :=
    { Ticking.start.world with keeper := .tasks clock, stirred, trace := trace.map .log } }

/-- The task of the first schedule. -/
def ticker (due : Duration) : Nat × LocalTask Unit (fun _ : Unit => Json) Json :=
  (0, .background (.recurrent ⟨1⟩ period due work))

def sleeper : Nat × LocalTask Unit (fun _ : Unit => Json) Json :=
  (1, .background (Run.oneShot ⟨2⟩ .zero work))

def entered : Clock := ⟨.zero, 1, [(⟨1⟩, 0)], 1, [ticker period], [0], [], none, false⟩

def bothEntered : Clock :=
  ⟨.zero, 2, [(⟨1⟩, 0), (⟨2⟩, 1)], 2, [ticker period, sleeper], [0, 1], [], none, false⟩

def waiting : Clock := ⟨.zero, 2, [(⟨1⟩, 0), (⟨2⟩, 1)], 2, [sleeper, ticker period], [1],
  [(period, ⟨0, []⟩)], none, false⟩

def idle : Clock :=
  ⟨.zero, 2, [(⟨1⟩, 0)], 2, [ticker period], [], [(period, ⟨0, []⟩)], none, false⟩

def rung : Clock := ⟨period, 2, [(⟨1⟩, 0)], 2, [ticker period], [0], [], none, false⟩

def ticking : Clock :=
  ⟨period, 2, [(⟨1⟩, 0)], 2, [ticker again], [], [(again, ⟨0, []⟩)], none, false⟩

def resting : Clock := { ticking with now := pause }

def quiet : Clock := ⟨pause, 2, [], 2, [], [], [(again, ⟨0, []⟩)], none, false⟩

def ended : Clock := ⟨close, 2, [], 2, [], [], [], none, false⟩

def early : List LogEntry := [.timerScheduled ⟨2⟩ .zero false, .timerScheduled ⟨1⟩ period true]

def late : List LogEntry :=
  [.timerCleared ⟨1⟩, .intervalFired ⟨1⟩, .timeoutFired ⟨2⟩] ++ early

/-- What is asked for. -/
def asked : Chronicle := [⟨0, .scheduled ⟨2⟩ .zero false⟩, ⟨0, .scheduled ⟨1⟩ period true⟩]

/-- What is recounted, the latest first. -/
def chronicle : Chronicle :=
  [⟨pause.nanos, .cleared ⟨1⟩⟩, ⟨period.nanos, .fired ⟨1⟩⟩, ⟨0, .fired ⟨2⟩⟩] ++ asked

theorem ticker_brief (session : Session Unit (fun _ : Unit => Json) ()) (taken : Clock)
    (due : Duration) : session.Brief taken 0 (.recurrent ⟨1⟩ period due work) := by
  intro moment first other called shown
  cases called with
  | once defers => cases defers
  | repeatedly => exact .intro rfl rfl rfl (List.Subset.refl _) (List.nil_append _).symm rfl

theorem sleeper_brief (session : Session Unit (fun _ : Unit => Json) ()) (taken : Clock) :
    session.Brief taken 1 (Run.oneShot ⟨2⟩ .zero work) := by
  intro moment first other called shown
  obtain ⟨rfl, rfl⟩ := called.of_oneShot
  exact .intro rfl rfl rfl (List.Subset.refl _) (List.nil_append _).symm rfl

theorem recounts : (session ended true late).Recounts chronicle := by
  have fresh : (session .initial false []).Recounts [] := .fresh rfl (by decide)
  have first : (session entered false [.timerScheduled ⟨1⟩ period true]).Recounts _ :=
    fresh.schedules period true work rfl (by decide) (by decide) rfl rfl
  have both : (session bothEntered false early).Recounts asked :=
    first.schedules .zero false work rfl (by decide) (by decide) rfl rfl
  have waiting : (session bothEntered false early).runTask bothEntered.takeReady.2 0
      (ticker period).2 = session waiting false early := by
    have polled : (Pending.recurrent ⟨1⟩ period period work).poll Ticking.start.engine ⟨0, []⟩
        ((session bothEntered false early).entering bothEntered.takeReady.2) = _ :=
      (Pending.interval_poll rfl).trans (if_neg (by decide))
    rw [TaskClock.setAlarm_of_whole (Duration.ceilMillis?_of_dvd (by decide))] at polled
    exact (Session.runTask_stopping polled rfl rfl).trans rfl
  have waits := both.runs rfl rfl (ticker_brief _ _ _) waiting (List.nil_append _).symm
  have firing : (session Pacing.waiting false early).runTask Pacing.waiting.takeReady.2 1
      sleeper.2 = session idle false (.timeoutFired ⟨2⟩ :: early) := by
    have polled : (Run.oneShot ⟨2⟩ .zero work).poll Ticking.start.engine ⟨1, []⟩
        ((session Pacing.waiting false early).entering Pacing.waiting.takeReady.2) = _ :=
      Pending.Defers.poll_due (.sleeps _) rfl (by decide)
    exact (Session.runTask_ending polled rfl).trans rfl
  have fires := waits.runs rfl rfl (sleeper_brief _ _) firing List.singleton_append.symm
  have rings : (session rung true (.timeoutFired ⟨2⟩ :: early)).Recounts _ :=
    fires.rings period rfl rfl (by decide) (by decide) (by decide)
  have ticking : (session rung true (.timeoutFired ⟨2⟩ :: early)).runTask rung.takeReady.2 0
      (ticker period).2 =
        session ticking true ([.intervalFired ⟨1⟩, .timeoutFired ⟨2⟩] ++ early) := by
    have next : rung.takeReady.2.nextDue period period = again :=
      Duration.ext (TaskClock.nextDue_nanos rfl (by decide) (by decide))
    have polled : (Pending.recurrent ⟨1⟩ period period work).poll Ticking.start.engine ⟨0, []⟩
        ((session rung true (.timeoutFired ⟨2⟩ :: early)).entering rung.takeReady.2) =
          (.ok (.recurrent ⟨1⟩ period again work),
            (session (rung.takeReady.2.setAlarm again ⟨0, []⟩) true
              ([.intervalFired ⟨1⟩, .timeoutFired ⟨2⟩] ++ early)).world) := by
      have polled : work.poll (Host.plain.engine 8) ⟨0, []⟩
          (session rung.takeReady.2 true ([.intervalFired ⟨1⟩, .timeoutFired ⟨2⟩] ++ early)).world =
            (.ok (.done ()), _) := rfl
      have later : ¬again ≤ rung.takeReady.2.now := by decide
      rw [Pending.interval_poll rfl, if_pos (by decide), next]
      exact Pending.interval_poll_over polled rfl later
    rw [TaskClock.setAlarm_of_whole (Duration.ceilMillis?_of_dvd (by decide))] at polled
    exact (Session.runTask_stopping polled rfl rfl).trans rfl
  have ticks := rings.runs rfl rfl (ticker_brief _ _ _) ticking List.singleton_append.symm
  have pauses : (session resting true ([.intervalFired ⟨1⟩, .timeoutFired ⟨2⟩] ++ early)).Recounts
      ([⟨period.nanos, .fired ⟨1⟩⟩, ⟨0, .fired ⟨2⟩⟩] ++ asked) :=
    ticks.rings pause rfl rfl (by decide) (by decide) (by decide)
  have clears : (session quiet true late).Recounts chronicle := pauses.clears ⟨1⟩ rfl rfl
  exact clears.rings close rfl rfl (by decide) (by decide) (by decide)

/-- The first schedule is due every ten milliseconds, and is cancelled in between. -/
theorem undue : (chronicle.calls.before close.nanos).Undue := by
  intro later between earlier start moment handle delay repeating whole _ due
  have cleared : ⟨moment, .cleared handle⟩ ∈ chronicle.calls.before close.nanos := by
    simp [whole]
  have scheduled : ⟨start, .scheduled handle delay repeating⟩ ∈
      chronicle.calls.before close.nanos := by
    simp [whole]
  have calls : chronicle.calls.before close.nanos = ⟨pause.nanos, .cleared ⟨1⟩⟩ :: asked := rfl
  rw [calls] at cleared scheduled
  obtain ⟨rfl, rfl⟩ : moment = pause.nanos ∧ handle = ⟨1⟩ := by simpa [asked] using cleared
  obtain ⟨rfl, rfl, rfl⟩ : start = 0 ∧ delay = period ∧ repeating = true := by
    simpa [asked] using scheduled
  obtain ⟨count, -, same⟩ := due
  have tens : stride period true = 10 * Duration.millisecond := by decide
  rw [tens] at same
  simp only [pause, Duration.millisecond] at same
  omega

/-- Two polls of advances fire the first schedule once before it is cancelled, and the second one at once,
and so does the other scheduler. -/
theorem fires_alike :
    (Pending.advance pause (.done ()) : Pending Unit (fun _ : Unit => Json) Json .finished).poll
        (Host.plain.engine 2) ⟨0, []⟩ (Lone.world scheduled) = (.ok (.done ()), Lone.world paused) ∧
      (Pending.advance rest (.done ()) : Pending Unit (fun _ : Unit => Json) Json .finished).poll
        (Host.plain.engine 0) ⟨0, []⟩ (Lone.world cleared) = (.ok (.done ()), Lone.world closed) ∧
      ((VirtualClock.chronicle history).firings ⟨1⟩).filter (· < close.nanos) = [period.nanos] ∧
      ((VirtualClock.chronicle history).firings ⟨2⟩).filter (· < close.nanos) = [0] := by
  obtain ⟨paced, timelines, fires⟩ := Host.Timeline.fires_as_recounted (Host.plain_within .still)
  have timeline := (timelines _ _ _ _ rfl journey).2 history explains
  have alike := fires _ _ _ _ timeline rfl (by decide) _ _ _ recounts rfl (by decide) close.nanos
    (Nat.le_refl _) (Nat.le_refl _) rfl undue
  have keeper : (Lone.world scheduled).keeper = .virtual scheduled := rfl
  have keeperThen : (Lone.world cleared).keeper = .virtual cleared := rfl
  exact ⟨(paced.begins keeper).2 ⟨pause, sum, .passes firing_drive rfl⟩,
    (paced.begins keeperThen).2 ⟨close, sumAgain, .passes closing_drive rfl⟩,
    (alike ⟨1⟩).trans (by decide), (alike ⟨2⟩).trans (by decide)⟩

end Pacing

end EffectLoop
