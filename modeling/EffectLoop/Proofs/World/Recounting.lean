import EffectLoop.Proofs.World.Service

/-!
# What is recounted of a session

A session on a fresh task clock whose tasks are all tasks of schedules.  Schedules are asked for and
cancelled from outside, ready tasks run, and when none is ready the clock moves on, up to the next
alarm at most.  What is recounted are the calls and what the trace says has fired, with dates.  It
is punctual.
-/

namespace EffectLoop

variable {S ι : Type} {Action : ι → Type} {A : Type} {alphabet : ι}

/-- Is a schedule asked for? -/
def Incident.isRequest : Incident → Bool
  | scheduled _ _ _ => true
  | cleared _ | fired _ => false

/-- How many schedules were asked for. -/
def Chronicle.requests (chronicle : Chronicle) : Nat := chronicle.countP (·.what.isRequest)

theorem Chronicle.requests_scheduled (chronicle : Chronicle) (now : Nat) (handle : TimerHandle)
    (delay : Duration) (repeating : Bool) :
    requests (⟨now, .scheduled handle delay repeating⟩ :: chronicle) = chronicle.requests + 1 :=
  List.countP_cons_of_pos rfl

/-! ## Alarms -/

namespace World

variable {world : World S Action A} {clock : TaskClock (LocalTask S Action A)}

/-- Waking adds to the tasks that are ready.  A task that waits by itself is ready afterwards. -/
theorem wake_tasks (keeper : world.keeper = .tasks clock) (waiter : Waiter) : ∃ queue,
    (world.wake waiter).keeper = .tasks { clock with ready := queue } ∧ clock.ready ⊆ queue ∧
      (waiter.path = [] → waiter.root ∈ clock.tasks.map Prod.fst → waiter.root ∈ queue) := by
  obtain ⟨root, path⟩ := waiter
  change ∃ queue, (world.wakeAlong root path).keeper = _ ∧ _
  dsimp only
  induction path generalizing world with
  | nil =>
      have woken : (world.wakeAlong root []).keeper = .tasks (clock.enqueue root) := by
        rw [wakeAlong, wakeRoot, keeper]
      rw [woken, TaskClock.enqueue]
      split
      next already =>
        refine ⟨clock.ready, rfl, List.Subset.refl _, fun _ listed => ?_⟩
        obtain ⟨entry, within, same⟩ := List.mem_map.1 listed
        have known : clock.tasks.any (·.1 = root) = true :=
          List.any_eq_true.2 ⟨entry, within, by simpa using same⟩
        simpa [known] using already
      next =>
        exact ⟨clock.ready ++ [root], rfl, List.subset_append_left _ _,
          fun _ _ => List.mem_append_right _ (List.mem_singleton_self _)⟩
  | cons step outer ih =>
      obtain ⟨ticket, child⟩ := step
      have waits (queue : List Nat) : (ticket, child) :: outer = [] →
          root ∈ clock.tasks.map Prod.fst → root ∈ queue := by
        intro alone
        cases alone
      rw [wakeAlong]
      split
      next => exact ⟨clock.ready, keeper, List.Subset.refl _, waits _⟩
      next rally found =>
        split
        · exact ⟨clock.ready, keeper, List.Subset.refl _, waits _⟩
        · have joined : (world.setRally ticket
              { rally with queue := rally.queue ++ [child] }).keeper = .tasks clock := keeper
          obtain ⟨queue, woken, kept, -⟩ := ih joined
          exact ⟨queue, woken, kept, waits _⟩

theorem wakeAll_tasks (keeper : world.keeper = .tasks clock) (waiters : List Waiter) : ∃ queue,
    (waiters.foldl wake world).keeper = .tasks { clock with ready := queue } ∧
      clock.ready ⊆ queue ∧
      ∀ task, ⟨task, []⟩ ∈ waiters → task ∈ clock.tasks.map Prod.fst → task ∈ queue := by
  induction waiters generalizing world clock with
  | nil => exact ⟨clock.ready, keeper, List.Subset.refl _, fun _ within => nomatch within⟩
  | cons waiter rest ih =>
      obtain ⟨first, woken, kept, roused⟩ := wake_tasks keeper waiter
      obtain ⟨queue, wokenAll, keptAll, rousedAll⟩ := ih woken
      refine ⟨queue, wokenAll, List.Subset.trans kept keptAll, ?_⟩
      intro task within listed
      cases List.mem_cons.1 within with
      | inl same =>
          subst same
          exact keptAll (roused rfl listed)
      | inr others => exact rousedAll task others listed

/-- When the clock moves, the alarms up to that moment ring. -/
theorem rings_tasks (world : World S Action A) (clock : TaskClock (LocalTask S Action A))
    (moment : Duration) : ∃ moved,
    ((clock.moveTo moment).1.foldl wake
      { world with keeper := .tasks (clock.moveTo moment).2 }).keeper = .tasks moved ∧
      clock.Rings moment moved ∧ moved.running = clock.running ∧ moved.issued = clock.issued := by
  let left := { world with keeper := .tasks (clock.moveTo moment).2 }
  have keeper : left.keeper = .tasks (clock.moveTo moment).2 := rfl
  obtain ⟨queue, woken, -, roused⟩ := wakeAll_tasks keeper (clock.moveTo moment).1
  refine ⟨_, woken, ?_, rfl, rfl⟩
  constructor
  · rfl
  · rfl
  · rfl
  · rfl
  · intro due task body listed alarm come
    apply roused task
    · exact List.mem_map.2 ⟨(due, ⟨task, []⟩), List.mem_filter.2 ⟨alarm, by simpa using come⟩, rfl⟩
    · exact List.mem_map_of_mem listed
  · intro alarm within ahead
    exact List.mem_filter.2 ⟨within, by simpa using ahead⟩

end World

/-! ## The tasks of new schedules -/

theorem Duration.dvd_stride {delay : Duration} (whole : millisecond ∣ delay.nanos)
    (repeating : Bool) : millisecond ∣ stride delay repeating := by
  cases repeating with
  | false => exact whole
  | true =>
      change millisecond ∣ (repeatPeriod delay).nanos
      unfold repeatPeriod longer
      split
      · exact Nat.dvd_refl millisecond
      · exact whole

section Entering

variable {clock : TaskClock (LocalTask S Action A)} {delay moment : Duration} {repeating : Bool}
variable (found : clock.moment? (if repeating then repeatPeriod delay else delay) = some moment)
include found

/-- What is set for a new schedule is its first firing. -/
theorem Run.timerBody_appointment (work : Pending S Action A .finished) :
    (timerBody clock delay repeating work).appointment? clock.now =
      some (.first ⟨clock.issued + 1⟩ clock.now.nanos delay repeating) := by
  cases repeating with
  | false => rfl
  | true =>
      have sum := (TaskClock.moment?_eq_some_iff.1 found).1
      change clock.moment? (repeatPeriod delay) = some moment at found
      change (repeated _ (clock.moment? (repeatPeriod delay)) _ work).appointment? _ = _
      rw [found]
      change some (Appointment.mk _ moment.nanos _) = _
      rw [sum]
      rfl

theorem Run.timerBody_fits (wholeNow : Duration.millisecond ∣ clock.now.nanos)
    (whole : Duration.millisecond ∣ delay.nanos) (work : Pending S Action A .finished) :
    (timerBody clock delay repeating work).Fits clock.now ⟨clock.issued + 1⟩ := by
  obtain ⟨sum, early⟩ := TaskClock.moment?_eq_some_iff.1 found
  have wholeStride := Duration.dvd_stride whole repeating
  cases repeating with
  | false => exact .sleeps work (Nat.dvd_add wholeNow whole) early
  | true =>
      change clock.moment? (repeatPeriod delay) = some moment at found
      change (repeated _ (clock.moment? (repeatPeriod delay)) _ work).Fits _ _
      rw [found]
      refine .recurs work ?_ wholeStride (stride_pos delay) ?_
      · rw [sum]
        exact Nat.dvd_add wholeNow wholeStride
      · exact (Nat.le_add_left _ _).trans_lt early

end Entering

/-! ## What is recounted -/

/-- A session on a fresh task clock, and what is to be recounted of it. -/
inductive Session.Recounts : Session S Action alphabet → Chronicle → Prop where
  | fresh {session} : session.world.keeper = .tasks .initial → session.allowance ≠ 0 →
      Recounts session []
  /-- A schedule is asked for, at a whole millisecond and with a delay of whole milliseconds.  It
  must be due at a moment. -/
  | schedules {before chronicle clock moment handle after} (delay : Duration) (repeating : Bool)
      (work : Pending S Action (Action alphabet) .finished) : Recounts before chronicle →
      before.world.keeper = .tasks clock → Duration.millisecond ∣ clock.now.nanos →
      Duration.millisecond ∣ delay.nanos →
      clock.moment? (if repeating then repeatPeriod delay else delay) = some moment →
      before.perform (Run.schedule delay repeating work) = (.ok handle, after) →
      Recounts after (⟨clock.now.nanos, .scheduled handle delay repeating⟩ :: chronicle)
  | clears {before chronicle clock answer after} (handle : TimerHandle) :
      Recounts before chronicle → before.world.keeper = .tasks clock →
      before.perform (Run.clear handle) = (.ok answer, after) →
      Recounts after (⟨clock.now.nanos, .cleared handle⟩ :: chronicle)
  /-- A task runs.  If it calls the work of its schedule, that is over in this poll, and does not
  call the scheduler. -/
  | runs {before chronicle clock taken task body after recent} : Recounts before chronicle →
      before.world.keeper = .tasks clock →
      clock.takeReady = (some (task, .background body), taken) → before.Brief taken task body →
      before.runTask taken task (.background body) = after →
      after.world.trace = recent ++ before.world.trace →
      Recounts after ((fired recent).map (⟨clock.now.nanos, .fired ·⟩) ++ chronicle)
  | skips {before chronicle clock taken} : Recounts before chronicle →
      before.world.keeper = .tasks clock → clock.takeReady = (none, taken) →
      Recounts { before with world := { before.world with keeper := .tasks taken } } chronicle
  /-- The clock moves, when no task is ready, and alarms ring.  It does not pass one. -/
  | rings {before chronicle clock} (moment : Duration) : Recounts before chronicle →
      before.world.keeper = .tasks clock → clock.ready = [] → clock.now ≤ moment →
      clock.Reaches moment → moment.nanos < TaskClock.momentLimit →
      Recounts { before with
        world := (clock.moveTo moment).1.foldl World.wake
          { before.world with keeper := .tasks (clock.moveTo moment).2 } } chronicle
  /-- Anything that leaves the scheduler alone. -/
  | beside {before after chronicle} : Recounts before chronicle → after.host = before.host →
      after.allowance = before.allowance → after.world.keeper = before.world.keeper →
      Recounts after chronicle

/-- What is recounted has led up to what is set on the clock. -/
structure TaskClock.Timely (clock : TaskClock (LocalTask S Action A)) (chronicle : Chronicle) :
    Prop where
  stands : clock.running = none
  early : clock.now.nanos < momentLimit
  attentive : clock.Attentive .timers
  punctual : Punctual chronicle clock.now.nanos (clock.agenda .timers)
  counted : clock.issued.toNat = chronicle.requests
  numbered : ∀ handle, chronicle.Names handle → handle.id.toNat ≤ clock.issued.toNat

namespace TaskClock.Timely

variable {clock moved : TaskClock (LocalTask S Action A)} {chronicle : Chronicle}

theorem fresh : (initial : TaskClock (LocalTask S Action A)).Timely [] where
  stands := rfl
  early := Nat.mul_pos (by decide) (by decide)
  attentive := initial_attentive
  punctual := by
    rw [initial_agenda]
    exact .fresh
  counted := rfl
  numbered := by
    rintro handle ⟨_, _, _, within⟩
    cases within

variable (timely : clock.Timely chronicle)
include timely

/-- A handle that was not issued yet cannot be cancelled. -/
theorem not_active {handle : TimerHandle} (unissued : clock.issued.toNat < handle.id.toNat) :
    ¬clock.Active handle := by
  rintro ⟨task, entered⟩
  obtain ⟨body, posts⟩ := timely.attentive.exists_posts_of_active entered
  obtain ⟨appointment, -, rfl, within⟩ := timely.attentive.exists_appointment posts
  have known := timely.numbered _ (timely.punctual.accounted.named appointment within)
  omega

theorem schedules {delay moment : Duration} {repeating : Bool}
    (found : clock.moment? (if repeating then repeatPeriod delay else delay) = some moment)
    (wholeNow : Duration.millisecond ∣ clock.now.nanos)
    (whole : Duration.millisecond ∣ delay.nanos) (few : chronicle.requests + 1 < 2 ^ 64)
    (work : Pending S Action A .finished) :
    ((clock.issue.2.spawn (.background (Run.timerBody clock delay repeating work))).2.register
      ⟨clock.issued + 1⟩ clock.nextTask).Timely
      (⟨clock.now.nanos, .scheduled ⟨clock.issued + 1⟩ delay repeating⟩ :: chronicle) := by
  have counted : (clock.issued + 1).toNat = clock.issued.toNat + 1 := by
    have bound := timely.counted
    rw [UInt64.toNat_add]
    change (clock.issued.toNat + 1) % 2 ^ 64 = _
    omega
  have sets : Service.timers.sets clock.now
      (.background (Run.timerBody clock delay repeating work)) = _ :=
    Run.timerBody_appointment found work
  have fits := Run.timerBody_fits found wholeNow whole work
  constructor
  · exact timely.stands
  · exact timely.early
  · apply timely.attentive.enter
    · apply timely.not_active
      rw [counted]
      exact Nat.lt_succ_self _
    · exact .background fits
  · rw [timely.attentive.agenda_enter rfl sets]
    apply timely.punctual.scheduled
    intro names
    have known := timely.numbered _ names
    rw [counted] at known
    omega
  · change (clock.issued + 1).toNat = _
    rw [counted, timely.counted, Chronicle.requests_scheduled]
  · change ∀ handle : TimerHandle, _ → handle.id.toNat ≤ (clock.issued + 1).toNat
    rw [counted]
    rintro handle ⟨start, wait, kind, within⟩
    cases List.mem_cons.1 within with
    | inl new =>
        cases new
        exact counted.le
    | inr old => exact (timely.numbered handle ⟨start, wait, kind, old⟩).trans (Nat.le_succ _)

/-- What happens meanwhile, if no schedule is asked for. -/
theorem meanwhile {more : Chronicle} (stands : moved.running = none)
    (now : moved.now = clock.now) (issued : moved.issued = clock.issued)
    (attentive : moved.Attentive .timers)
    (punctual : Punctual (more ++ chronicle) clock.now.nanos (moved.agenda .timers))
    (silent : ∀ entry ∈ more, entry.what.isRequest = false) : moved.Timely (more ++ chronicle) where
  stands := stands
  early := by
    rw [now]
    exact timely.early
  attentive := attentive
  punctual := by
    rw [now]
    exact punctual
  counted := by
    have none : more.countP (·.what.isRequest) = 0 := by
      rw [List.countP_eq_zero]
      intro entry within
      rw [silent entry within]
      exact Bool.false_ne_true
    rw [issued, timely.counted, Chronicle.requests, Chronicle.requests, List.countP_append, none,
      Nat.zero_add]
  numbered := by
    rw [issued]
    rintro handle ⟨start, delay, repeating, within⟩
    cases List.mem_append.1 within with
    | inl new => cases silent _ new
    | inr old => exact timely.numbered handle ⟨start, delay, repeating, old⟩

theorem clears (handle : TimerHandle) :
    (clock.clear handle).2.Timely (⟨clock.now.nanos, .cleared handle⟩ :: chronicle) := by
  have cancelled := timely.punctual.cleared handle
  have silent : ∀ entry ∈ [Dated.mk clock.now.nanos (.cleared handle)],
      entry.what.isRequest = false := by
    intro entry within
    cases List.mem_singleton.1 within
    rfl
  cases clock.clear_cases handle with
  | inl absent =>
      have same : {other | other ∈ clock.agenda .timers ∧ other.handle ≠ handle} =
          clock.agenda .timers := by
        ext other
        refine ⟨And.left, fun within => ⟨within, ?_⟩⟩
        rintro rfl
        obtain ⟨task, body, posts, -⟩ := within
        exact absent.2.1 ⟨task, posts.1⟩
      rw [same] at cancelled
      rw [absent.2.2]
      exact timely.meanwhile timely.stands rfl rfl timely.attentive cancelled silent
  | inr present =>
      obtain ⟨task, entered, -, moves⟩ := present
      obtain ⟨body, posts⟩ := timely.attentive.exists_posts_of_active entered
      have concludes := Concludes.of_clear timely.stands handle task
      rw [← timely.attentive.agenda_concludes posts concludes] at cancelled
      rw [moves]
      refine timely.meanwhile ?_ concludes.now ?_ (timely.attentive.concludes posts concludes)
        cancelled silent
      · rw [abort_running]
        exact timely.stands
      · rw [abort_issued]
        rfl

theorem serves {handle : TimerHandle} {task : Nat} {body : LocalTask S Action A}
    {appointment : Appointment} {fired : List TimerHandle} (posts : clock.Posts handle task body)
    (sets : Service.timers.sets clock.now body = some appointment)
    (named : appointment.handle = handle)
    (serves : clock.Serves .timers handle task appointment moved fired)
    (stands : moved.running = none) (issued : moved.issued = clock.issued) :
    moved.Timely (fired.map (⟨clock.now.nanos, .fired ·⟩) ++ chronicle) := by
  obtain ⟨attentive, now, punctual⟩ :=
    timely.attentive.serves timely.punctual posts sets named serves
  apply timely.meanwhile stands now issued attentive punctual
  intro entry within
  obtain ⟨handle, -, rfl⟩ := List.mem_map.1 within
  rfl

theorem skips (ready : clock.takeReady = (none, moved)) : moved.Timely chronicle := by
  obtain ⟨queue, rfl, kept⟩ := takeReady_none_eq ready
  exact ⟨timely.stands, timely.early, timely.attentive.requeue kept, timely.punctual,
    timely.counted, timely.numbered⟩

theorem rings {moment : Duration} (idle : clock.ready = []) (later : clock.now ≤ moment)
    (reaches : clock.Reaches moment) (early : moment.nanos < momentLimit)
    (rings : clock.Rings moment moved) (stands : moved.running = clock.running)
    (issued : moved.issued = clock.issued) : moved.Timely chronicle where
  stands := stands.trans timely.stands
  early := by
    rw [rings.now]
    exact early
  attentive := timely.attentive.rings idle rings
  punctual := by
    rw [rings.now, timely.attentive.agenda_rings idle rings]
    exact timely.punctual.passes _ later (timely.attentive.le_due_of_reaches idle reaches)
  counted := by
    rw [issued]
    exact timely.counted
  numbered := by
    rw [issued]
    exact timely.numbered

end TaskClock.Timely

/-! ## Whole runs -/

namespace Session

theorem runTask_allowance (session : Session S Action alphabet)
    (clock : TaskClock (LocalTask S Action (Action alphabet))) (task : Nat)
    (body : Pending S Action (Action alphabet) .finished) :
    (session.runTask clock task (.background body)).allowance = session.allowance := by
  rw [runTask_background]
  split <;> rfl

/-- As long as handles last, what is recounted leads up to what is set on the clock. -/
theorem Recounts.timely {session : Session S Action alphabet} {chronicle : Chronicle}
    (recounts : session.Recounts chronicle) (few : chronicle.requests < 2 ^ 64) :
    session.allowance ≠ 0 ∧ ∃ clock, session.world.keeper = .tasks clock ∧
      clock.Timely chronicle := by
  induction recounts with
  | fresh keeper enough => exact ⟨enough, .initial, keeper, .fresh⟩
  | @schedules before chronicle clock _ _ _ delay repeating work _ keeper wholeNow whole found
      performed ih =>
      rw [Chronicle.requests_scheduled] at few
      obtain ⟨enough, known, same, timely⟩ := ih (by omega)
      rw [keeper] at same
      cases same
      rw [perform, Run.schedule_tasks keeper] at performed
      cases performed
      exact ⟨enough, _, rfl, timely.schedules found wholeNow whole few work⟩
  | clears handle _ keeper performed ih =>
      obtain ⟨enough, known, same, timely⟩ := ih few
      rw [keeper] at same
      cases same
      rw [perform, Run.clear_tasks keeper] at performed
      cases performed
      exact ⟨enough, _, rfl, timely.clears handle⟩
  | @runs before chronicle clock taken task body after recent _ keeper ready brief ran trace ih =>
      have fewer : chronicle.requests < 2 ^ 64 := by
        rw [Chronicle.requests, List.countP_append] at few
        exact (Nat.le_add_left _ _).trans_lt few
      obtain ⟨enough, known, same, timely⟩ := ih fewer
      rw [keeper] at same
      cases same
      obtain ⟨listed, -⟩ := TaskClock.takeReady_eq ready
      obtain ⟨handle, posts⟩ := timely.attentive.exists_posts_of_task listed
      obtain ⟨appointment, sets, named, within⟩ := timely.attentive.exists_appointment posts
      have fits : body.Fits clock.now handle := by
        cases timely.attentive.fits handle task _ posts with
        | background fits => exact fits
      obtain ⟨moved, told, keeperAfter, traceAfter, stands, issued, serves⟩ :=
        runTask_serves ready enough fits sets timely.early
          (timely.punctual.accounted.timely appointment within) brief
      rw [ran] at keeperAfter traceAfter
      rw [trace] at traceAfter
      cases List.append_cancel_right traceAfter
      rw [← ran, runTask_allowance, ran]
      exact ⟨enough, moved, keeperAfter, timely.serves posts sets named serves stands issued⟩
  | skips _ keeper ready ih =>
      obtain ⟨enough, known, same, timely⟩ := ih few
      rw [keeper] at same
      cases same
      exact ⟨enough, _, rfl, timely.skips ready⟩
  | @rings before _ clock moment _ keeper idle later reaches early ih =>
      obtain ⟨enough, known, same, timely⟩ := ih few
      rw [keeper] at same
      cases same
      obtain ⟨moved, woken, rings, stands, issued⟩ :=
        World.rings_tasks before.world clock moment
      exact ⟨enough, moved, woken, timely.rings idle later reaches early rings stands issued⟩
  | beside _ _ allowance keeper ih =>
      obtain ⟨enough, clock, same, timely⟩ := ih few
      rw [allowance, keeper]
      exact ⟨enough, clock, same, timely⟩

end Session

end EffectLoop
