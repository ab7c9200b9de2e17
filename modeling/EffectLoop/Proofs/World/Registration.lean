import EffectLoop.Proofs.World.Attendance
import EffectLoop.Proofs.World.Cancellation

/-!
# Sessions keep the ledger of their clock

A session on a fresh task clock keeps a ledger of all dealings, however calls, firings and the
motion of the clock alternate, and the ledger of any moment is the beginning of all later ones.  By
it the scheduler answers.  In particular a schedule that does not repeat is not in use any more
while its only firing is under way: to cancel it is refused, and does the firing no harm.
-/

namespace EffectLoop

variable {S ι : Type} {Action : ι → Type} {alphabet : ι}

/-! ## What runs in a world -/

/-- A program of the given rules runs in a world of the host. -/
inductive Host.Performs (host : Host S Action alphabet) (rules : Rules)
    (before : World S Action (Action alphabet)) : World S Action (Action alphabet) → Prop where
  | calls {α : Type} (depth : Nat) {program : Prompt S Action (Action alphabet) α} :
      program.Within rules (fun _ => True) →
      Performs host rules before (program.run (host.engine depth) before).2
  | polls {answer : Answer ι} (depth : Nat) (waiter : Waiter)
      {program : Pending S Action (Action alphabet) answer} : program.Within rules →
      Performs host rules before (program.poll (host.engine depth) waiter before).2

/-- Programs run in a world of the host, one after the other. -/
abbrev Host.Pursues (host : Host S Action alphabet) (rules : Rules) :
    World S Action (Action alphabet) → World S Action (Action alphabet) → Prop :=
  Relation.ReflTransGen (host.Performs rules)

theorem Host.Pursues.allowed {host : Host S Action alphabet} {rules : Rules}
    {regime : Regime S Action (Action alphabet)} {before after : World S Action (Action alphabet)}
    (houses : regime.Houses rules) (within : host.Within rules)
    (pursues : host.Pursues rules before after) : regime.Allows before after := by
  have obeys := Host.engine_obeys houses within
  induction pursues with
  | refl => exact houses.toSteady.same
  | @tail middle after _ performs ih =>
      apply houses.toSteady.andThen ih
      cases performs with
      | calls depth programWithin =>
          exact (Prompt.run_obeys houses.toGoverns (obeys depth) programWithin middle).1
      | polls depth waiter programWithin =>
          exact (Pending.poll_obeys houses.toGoverns (obeys depth) waiter programWithin middle).1

/-- The program does the work of a schedule that does not repeat, once the moment has come. -/
inductive Pending.Defers {A : Type} (clock : TaskClock (LocalTask S Action A))
    (handle : TimerHandle) (work : Pending S Action A .finished) :
    Duration → Pending S Action A .finished → Prop where
  | sleeps (delay : Duration) :
      Defers clock handle work (clock.moment delay) (Run.oneShot handle delay work)
  | waits (moment : Duration) : Defers clock handle work moment
      (.resumeAt moment (.call (.forget handle) fun _ => .logging (.timeoutFired handle) work))

namespace Pending.Defers

variable {A : Type} {clock : TaskClock (LocalTask S Action A)} {handle : TimerHandle}
variable {work body : Pending S Action A .finished} {moment : Duration}
variable (defers : Defers clock handle work moment body)
include defers

theorem expiring : body.expiring? = some handle := by
  cases defers <;> rfl

/-- A task that does the work of a schedule is entered for that schedule. -/
theorem entered {other : TaskClock (LocalTask S Action A)} {task : Nat}
    (owned : (LocalTask.background body).Quiet ∨ ∃ handle,
      (LocalTask.background body).Fires handle ∧ (handle, task) ∈ other.active) :
    (handle, task) ∈ other.active := by
  have expiring := defers.expiring
  cases owned with
  | inl isQuiet =>
      have within : body.Within .honest := isQuiet
      rw [(within.loosen Rules.honest_candid).not_expiring] at expiring
      cases expiring
  | inr owner =>
      obtain ⟨known, fires, entered⟩ := owner
      cases fires with
      | sleeps _ | waits _ =>
          cases expiring
          exact entered
      | recurs _ _ => cases expiring

/-- Once the moment has come, the schedule is forgotten, and then its work is done. -/
theorem poll_due {engine : Engine S Action A} {waiter : Waiter} {world : World S Action A}
    (keeper : world.keeper = .tasks clock) (due : moment ≤ clock.now) :
    body.poll engine waiter world = work.poll engine waiter (Run.expire handle world).2 := by
  have fires : (Pending.resumeAt moment
      (.call (.forget handle) fun _ => .logging (.timeoutFired handle) work)).poll engine waiter
        world = work.poll engine waiter (Run.expire handle world).2 := by
    rw [Pending.resumeAt_poll keeper, if_pos due, Pending.firing_poll keeper,
      Run.expire_tasks keeper]
  cases defers with
  | sleeps delay =>
      rw [Run.oneShot_poll keeper]
      exact fires
  | waits => exact fires

end Pending.Defers

namespace Session

variable {session start before after later : Session S Action alphabet} {ledger : Ledger}
variable {clock taken : TaskClock (LocalTask S Action (Action alphabet))} {task : Nat}

/-- When the task of a schedule that does not repeat runs, and its moment has come, then the
schedule is forgotten before the work begins, and the scheduler answers accordingly while the work
goes on. -/
def FiresBy (session : Session S Action alphabet) (ledger : Ledger) : Prop :=
  ∀ clock taken task handle work moment body, session.world.keeper = .tasks clock →
    clock.takeReady = (some (task, .background body), taken) →
    Pending.Defers taken handle work moment body → moment ≤ taken.now →
    ∃ fired, fired.KeepsLedger (.fired handle :: ledger) ∧
      body.poll session.engine ⟨task, []⟩ (session.entering taken) =
        work.poll session.engine ⟨task, []⟩ fired ∧
      ∀ after, session.host.Pursues .candid fired after →
        (dealings after.trace).calls < 2 ^ 64 →
        ∃ more, after.KeepsLedger (more ++ .fired handle :: ledger) ∧
          after.RepliesBy (more ++ .fired handle :: ledger)

/-! ### A task runs -/

theorem stopped_eq {world : World S Action (Action alphabet)} (keeper : world.keeper = .tasks clock)
    (change : TaskClock (LocalTask S Action (Action alphabet)) →
      TaskClock (LocalTask S Action (Action alphabet))) :
    stopped world change = { world with keeper := .tasks (change clock) } := by
  rw [stopped, keeper]

section Stopping

variable {world : World S Action (Action alphabet)}

theorem retires_attended (task : Nat) :
    Regime.attendance.Allows world (stopped world (·.retire task)) := by
  intro kind
  obtain ⟨clock, keeper, singles⟩ := kind
  rw [stopped_eq keeper]
  refine Regime.attendance_beside keeper rfl rfl rfl rfl ?_ ⟨clock, keeper, singles⟩
  intro entry within
  exact .inl within

theorem putsBack_attended (task : Nat) {left : LocalTask S Action (Action alphabet)}
    (single : left.Single (dealings world.trace)) :
    Regime.attendance.Allows world (stopped world (·.putBack task left)) := by
  intro kind
  obtain ⟨clock, keeper, singles⟩ := kind
  rw [stopped_eq keeper]
  refine Regime.attendance_beside keeper rfl (clock.putBack_issued task left)
    (clock.putBack_active task left) rfl ?_ ⟨clock, keeper, singles⟩
  intro entry within
  cases clock.mem_of_mem_putBack within with
  | inl old => exact .inl old
  | inr same =>
      subst same
      exact .inr single

end Stopping

/-- A task of a schedule enters what it deals while it runs. -/
theorem background_attended (within : session.host.Within .candid)
    (entered : Regime.attendance.kind (session.entering taken)) (runs : taken.running = some task)
    {body : Pending S Action (Action alphabet) .finished}
    (owned : (LocalTask.background body).Quiet ∨
      ∃ handle, (LocalTask.background body).Fires handle ∧ (handle, task) ∈ taken.active)
    (single : (LocalTask.background body).Single (dealings session.world.trace)) :
    Regime.attendance.Allows (session.entering taken)
      (session.runTask taken task (.background body)).world := by
  have houses : (Regime.attendance : Regime S Action (Action alphabet)).Houses .candid :=
    Regime.attendance_houses
  have steady := houses.toSteady
  have polled := LocalTask.background_attends within entered rfl runs session.allowance ⟨task, []⟩
    owned single
  dsimp only at polled
  rw [runTask_background, engine]
  rcases outcome : body.poll (session.host.engine session.allowance) ⟨task, []⟩
    (session.entering taken) with ⟨result, world⟩
  rw [outcome] at polled
  obtain ⟨allowed, leaves⟩ := polled
  cases result with
  | error halt => exact steady.andThen allowed (retires_attended task)
  | ok left =>
      dsimp only
      split
      · exact steady.andThen allowed (retires_attended task)
      · exact steady.andThen allowed (putsBack_attended task (leaves left rfl))

/-- So does a root of the session. -/
theorem root_attended (within : session.host.Within .candid) (number : Nat)
    {body : Pending S Action (Action alphabet) .report} (quiet : body.Within .honest) :
    Regime.attendance.Allows (session.entering taken)
      (session.runTask taken task (.root number body)).world := by
  have houses : (Regime.attendance : Regime S Action (Action alphabet)).Houses .candid :=
    Regime.attendance_houses
  have steady := houses.toSteady
  have polled := Pending.poll_obeys houses.toGoverns
    (Host.engine_obeys houses within session.allowance) ⟨task, []⟩
    (quiet.loosen Rules.honest_candid) (session.entering taken)
  rw [Regime.ObeysIn] at polled
  rw [runTask_root, engine]
  rcases outcome : body.poll (session.host.engine session.allowance) ⟨task, []⟩
    (session.entering taken) with ⟨result, world⟩
  rw [outcome] at polled
  have allowed := polled.1
  have emits (event : Event S (Action alphabet)) (silent : event.dealing? = none) :
      Regime.attendance.Allows world (world.emit event) :=
    Regime.attendance_event event silent rfl rfl
  cases result with
  | error halt =>
      have told := emits (.panicked number halt.message) rfl
      exact steady.andThen (steady.andThen allowed told) (retires_attended task)
  | ok left =>
      dsimp only
      split
      next result _ =>
        have told := emits (.ended number result) rfl
        exact steady.andThen (steady.andThen allowed told) (retires_attended task)
      next =>
        have single : (LocalTask.root number left).Single (dealings world.trace) := trivial
        exact steady.andThen allowed (putsBack_attended task single)

/-- A task enters what it deals while it runs. -/
theorem runTask_attended (within : session.host.Within .honest) (idle : session.world.Idle)
    (once : (issuedBy session.world.trace).Nodup) (kind : Regime.attendance.kind session.world)
    (keeper : session.world.keeper = .tasks clock) {body : LocalTask S Action (Action alphabet)}
    (ready : clock.takeReady = (some (task, body), taken)) :
    Regime.attendance.Allows session.world (session.runTask taken task body).world := by
  have steady :=
    (Regime.attendance_houses : (Regime.attendance : Regime S Action (Action alphabet)).Houses
      .candid).toSteady
  have candid := within.loosen Rules.honest_candid
  obtain ⟨other, same, orderly⟩ := idle
  rw [keeper] at same
  cases same
  obtain ⟨-, runs, -, active, owned⟩ := (orderly once).1.takeReady ready
  obtain ⟨listed, issued, -, left⟩ := TaskClock.takeReady_entries ready
  rw [← active] at owned
  have enters : Regime.attendance.Allows session.world (session.entering taken) :=
    Regime.attendance_beside keeper rfl issued active rfl
      fun entry within => .inl (left entry within)
  apply steady.andThen enters
  cases body with
  | background body =>
      obtain ⟨known, same, singles⟩ := kind
      rw [keeper] at same
      cases same
      have entered := (enters ⟨clock, keeper, singles⟩).1
      exact background_attended candid entered runs owned (singles _ listed)
  | root number body =>
      cases owned with
      | inl isQuiet => exact root_attended candid number isQuiet
      | inr owner => exact owner.choose_spec.1.elim

/-! ### Whatever happens -/

theorem Does.attended (within : before.host.Within .honest) (idle : before.world.Idle)
    (once : (issuedBy before.world.trace).Nodup) (kind : Regime.attendance.kind before.world)
    (does : before.Does after) : Regime.attendance.Allows before.world after.world := by
  have houses : (Regime.attendance : Regime S Action (Action alphabet)).Houses .candid :=
    Regime.attendance_houses
  have loosened := Rules.honest_candid
  have obeys := Host.engine_obeys houses (within.loosen loosened) before.allowance
  have ⟨clock, known, _⟩ := idle
  cases does with
  | calls programWithin =>
      exact (Prompt.run_obeys houses.toGoverns obeys (programWithin.loosen loosened) _).1
  | dispatches action => exact (obeys.dispatch action _).1
  | @starts store loop _ commandWithin =>
      exact (store.start_obeys houses obeys loop (commandWithin.loosen loosened) _).1
  | @launches store cmd _ commandWithin =>
      exact (store.launch_obeys houses obeys cmd (commandWithin.loosen loosened) _).1
  | @hands body number bodyWithin =>
      have single : (LocalTask.root number body).Single (dealings before.world.trace) := trivial
      simp only [activate, known]
      exact Regime.attendance_spawn known single
  | cancels number =>
      simp only [cancel, known]
      split
      · exact houses.same
      · exact Regime.attendance_abort known _
  | skips keeper ready =>
      exact Regime.attendance_tasks keeper rfl (TaskClock.takeReady_none_same ready)
        (TaskClock.takeReady_none_issued ready) rfl
  | runs keeper ready => exact runTask_attended within idle once kind keeper ready
  | @rings clock moment keeper =>
      have moves : Regime.attendance.Allows before.world
          { before.world with keeper := .tasks (clock.moveTo moment).2 } :=
        Regime.attendance_tasks keeper rfl (clock.moveTo_same moment) rfl rfl
      exact houses.andThen moves (houses.wakeAll _ _)
  | beside _ keeper trace => exact Regime.attendance_same keeper (congrArg dealings trace)

/-- As long as handles last, the ledger of a moment goes on in all that happens later. -/
theorem Lives.attended (within : start.host.Within .honest) (idle : start.world.Idle)
    (kind : Regime.attendance.kind start.world) (keeps : start.world.KeepsLedger ledger)
    (lives : start.Lives later) (few : (dealings later.world.trace).calls < 2 ^ 64) :
    Regime.attendance.kind later.world ∧ ∃ more, later.world.KeepsLedger (more ++ ledger) := by
  induction lives with
  | refl => exact ⟨kind, [], keeps⟩
  | @tail middle after lived does ih =>
      have fewer : (dealings middle.world.trace).calls < 2 ^ 64 :=
        (does.grows.sublist.filterMap _).countP_le.trans_lt few
      obtain ⟨kindBefore, more, keepsBefore⟩ := ih fewer
      have once := keepsBefore.once (keepsBefore.calls_eq ▸ fewer)
      obtain ⟨sameHost, idleBefore, -⟩ := Lives.silent within idle lived once
      obtain ⟨kindAfter, enters⟩ := does.attended (sameHost ▸ within) idleBefore once kindBefore
        kindBefore
      obtain ⟨further, keepsAfter⟩ := enters _ keepsBefore
      rw [← List.append_assoc] at keepsAfter
      exact ⟨kindAfter, further ++ more, keepsAfter⟩

/-! ### Firings -/

theorem fires_by (within : session.host.Within .honest) (idle : session.world.Idle)
    (once : (issuedBy session.world.trace).Nodup) (kind : Regime.attendance.kind session.world)
    (keeps : session.world.KeepsLedger ledger) : session.FiresBy ledger := by
  intro clock taken task handle work moment body keeper ready defers due
  obtain ⟨other, same, orderly⟩ := idle
  rw [keeper] at same
  cases same
  obtain ⟨known, same, singles⟩ := kind
  rw [keeper] at same
  cases same
  obtain ⟨-, runs, -, active, owned⟩ := (orderly once).1.takeReady ready
  obtain ⟨listed, issued, -, left⟩ := TaskClock.takeReady_entries ready
  have single : .scheduled (some handle) false ∈ dealings (session.entering taken).trace :=
    singles _ listed handle defers.expiring
  have entered : (handle, task) ∈ taken.active := by
    rw [active]
    exact defers.entered owned
  have enters : Regime.attendance.Allows session.world (session.entering taken) :=
    Regime.attendance_beside keeper rfl issued active rfl
      fun entry within => .inl (left entry within)
  have entering := (enters ⟨clock, keeper, singles⟩).1
  have keepsEntering : (session.entering taken).KeepsLedger ledger :=
    keeps.beside keeper rfl issued active rfl
  have expires : Regime.attendance.Allows (session.entering taken) _ :=
    Regime.attendance_expires rfl runs entered single
  have expired := keepsEntering.expire rfl runs entered single
  refine ⟨_, expired, defers.poll_due rfl due, ?_⟩
  intro after pursues few
  obtain ⟨-, goesOn⟩ := pursues.allowed Regime.attendance_houses
    (within.loosen Rules.honest_candid) (expires entering).1
  obtain ⟨more, keepsAfter⟩ := goesOn _ expired
  exact ⟨more, keepsAfter, keepsAfter.replies (keepsAfter.calls_eq ▸ few)⟩

/-- A session keeps the ledger of its task clock well.  As long as handles of 64 bits last, every
entry is right, the handles are one, two, three and so on, the scheduler answers by the ledger,
between tasks and in the midst of a firing, and all that happens later is entered as well. -/
theorem keeps_register (within : start.host.Within .honest)
    (fresh : start.world.keeper = .tasks .initial) (blank : start.world.trace = [])
    (lives : start.Lives session) (few : (dealings session.world.trace).calls < 2 ^ 64) :
    (∃ ledger, session.world.KeepsLedger ledger) ∧
      ∀ ledger, session.world.KeepsLedger ledger →
        ledger.Upheld ∧ ledger.handedOut.map (·.id.toNat) = List.range' 1 ledger.calls ∧
          dealings session.world.trace = ledger.filter Dealing.isLogged ∧
            session.world.RepliesBy ledger ∧ session.FiresBy ledger ∧
            ∀ later, session.Lives later → (dealings later.world.trace).calls < 2 ^ 64 →
              ∃ more, later.world.KeepsLedger (more ++ ledger) := by
  have idle : start.world.Idle := by
    refine ⟨.initial, fresh, ?_⟩
    intro _
    rw [World.Orderly, blank]
    exact ⟨TaskClock.initial_orderly, rfl⟩
  have kind : Regime.attendance.kind start.world :=
    ⟨.initial, fresh, fun entry within => (List.not_mem_nil within).elim⟩
  obtain ⟨reached, more, keeps⟩ := lives.attended within idle kind (.fresh fresh blank) few
  refine ⟨⟨_, keeps⟩, ?_⟩
  intro ledger keeps
  have fewer := keeps.calls_eq ▸ few
  have once := keeps.once fewer
  obtain ⟨sameHost, idleThen, -⟩ := Lives.silent within idle lives once
  obtain ⟨clock, -, agrees⟩ := keeps.agrees fewer
  refine ⟨agrees.sound.upheld, keeps.sequence fewer, keeps.logged, keeps.replies fewer, ?_, ?_⟩
  · exact fires_by (sameHost ▸ within) idleThen once reached keeps
  · intro later onwards fewLater
    exact (onwards.attended (sameHost ▸ within) idleThen reached keeps fewLater).2

end Session

/-! ### A schedule that cancels itself while it fires -/

namespace Snoozing

/-- It finds that it cannot be cancelled any more, and goes on to schedule something else. -/
def work : Pending Unit (fun _ : Unit => Json) Json .finished :=
  .call (.clear ⟨1⟩) fun answer => .call (.note (.bool answer)) fun _ =>
    .schedule Ticking.period true (.done ()) fun _ => .done ()

def register : Prompt Unit (fun _ : Unit => Json) Json TimerHandle :=
  .schedule Ticking.period false work .done

/-- The schedule is registered, and its task begins to wait. -/
def waiting : Session Unit (fun _ : Unit => Json) () :=
  (Ticking.start.perform (register.run Ticking.start.engine)).2.runReady 9

/-- It has fired, and what it has scheduled has fired once. -/
def rung : Session Unit (fun _ : Unit => Json) () :=
  waiting.ring ⟨25 * Duration.millisecond, Duration.twentyFiveMillis_lt⟩ 9

theorem rung_dealings : dealings rung.world.trace =
    [.scheduled (some ⟨2⟩) true, .fired ⟨1⟩, .scheduled (some ⟨1⟩) false] := by
  decide +kernel

/-- The session keeps its ledger, and what has fired cannot be cancelled. -/
theorem rung_register : Ticking.start.Lives rung ∧ (dealings rung.world.trace).calls < 2 ^ 64 ∧
    ∃ ledger, rung.world.KeepsLedger ledger ∧ ledger.Upheld ∧ rung.world.RepliesBy ledger ∧
      Run.clear ⟨1⟩ rung.world = (.ok false, rung.world) := by
  have workWithin : work.Within .honest := ⟨trivial, fun _ => ⟨trivial, fun _ => ⟨trivial, fun _ =>
    trivial⟩⟩⟩
  have registerWithin : register.Within .honest fun _ => True := ⟨workWithin, fun _ => trivial⟩
  have registers : Ticking.start.Lives waiting :=
    .head (.calls registerWithin) (Session.runReady_lives _ 9)
  have rings : waiting.Lives rung := Session.ring_lives _ _ 9
  have few : (dealings rung.world.trace).calls < 2 ^ 64 := by
    rw [rung_dealings]
    decide
  obtain ⟨⟨ledger, keeps⟩, well⟩ := Session.keeps_register (Host.plain_within .honest) rfl rfl
    (registers.trans rings) few
  obtain ⟨upheld, -, logged, replies, -, -⟩ := well ledger keeps
  refine ⟨registers.trans rings, few, ledger, keeps, upheld, replies, replies.forgotten ⟨1⟩ ?_⟩
  have fired : .fired ⟨1⟩ ∈ dealings rung.world.trace := by
    rw [rung_dealings]
    decide
  rw [logged] at fired
  exact List.mem_of_mem_filter fired

end Snoozing

end EffectLoop
