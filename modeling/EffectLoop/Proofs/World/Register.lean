import EffectLoop.Proofs.Time.Entries
import EffectLoop.Proofs.World.Vigil

/-!
# The ledger of a world with a task clock

What is dealt with a task clock is entered in a ledger, with the answers that are given.  A
schedule that does not repeat is entered as fired when its task forgets it, which is before the work
of the schedule begins.  The trace tells the same as the ledger, except that it has no line for a
cancellation that finds nothing.

As long as handles last the clock agrees with its ledger at every moment, so what the scheduler
answers next can be read off it.
-/

namespace EffectLoop

variable {S ι : Type} {Action : ι → Type} {A : Type}

/-- The dealing that an event tells of.  Firings of repeating schedules change nothing about them
and are left out. -/
def Event.dealing? : Event S A → Option Dealing
  | log (.timerScheduled handle _ repeating) => some (.scheduled (some handle) repeating)
  | log (.timerCleared handle) => some (.cleared handle true)
  | log (.timeoutFired handle) => some (.fired handle)
  | _ => none

theorem Event.not_dealing {entry : LogEntry} (benign : ¬entry.IsBooking) :
    (log entry : Event S A).dealing? = none := by
  cases entry with
  | timerScheduled | timerCleared | timeoutFired => exact (benign trivial).elim
  | _ => rfl

/-- The dealings that a trace tells of, the latest first. -/
def dealings (trace : List (Event S A)) : Ledger := trace.filterMap Event.dealing?

theorem issuedBy_eq (trace : List (Event S A)) :
    issuedBy trace = (dealings trace).filterMap Ledger.handedOut? := by
  rw [issuedBy, dealings, List.filterMap_filterMap]
  congr 1
  funext event
  cases event with
  | log entry => cases entry <;> rfl
  | _ => rfl

/-- Is there a line for the dealing? -/
def Dealing.isLogged : Dealing → Bool
  | .cleared _ answer => answer
  | .scheduled _ _ | .fired _ => true

/-- A schedule that does not repeat begins its firing. -/
def Run.expire (handle : TimerHandle) : Run S Action A Unit := do
  Run.forget handle
  Run.emit (.log (.timeoutFired handle))

theorem Run.expire_tasks {world : World S Action A} {clock : TaskClock (LocalTask S Action A)}
    (keeper : world.keeper = .tasks clock) (handle : TimerHandle) :
    expire handle world = (.ok (), { world with
      keeper := .tasks (clock.forget handle)
      trace := .log (.timeoutFired handle) :: world.trace }) := by
  cases world
  cases keeper
  rfl

namespace World

/-- The ledger of a world whose task clock was fresh once. -/
inductive KeepsLedger : World S Action A → Ledger → Prop where
  | fresh {world} : world.keeper = .tasks .initial → world.trace = [] → KeepsLedger world []
  | schedules {world ledger clock after handle} (delay : Duration) (repeating : Bool)
      (task : Pending S Action A .finished) : KeepsLedger world ledger →
      world.keeper = .tasks clock → Run.schedule delay repeating task world = (.ok handle, after) →
      KeepsLedger after (.scheduled (some handle) repeating :: ledger)
  | clears {world ledger clock after answer} (handle : TimerHandle) : KeepsLedger world ledger →
      world.keeper = .tasks clock → Run.clear handle world = (.ok answer, after) →
      KeepsLedger after (.cleared handle answer :: ledger)
  /-- The task of a schedule that does not repeat is running, and the schedule begins its firing. -/
  | expires {world ledger clock after handle} (task : Nat) : KeepsLedger world ledger →
      world.keeper = .tasks clock → clock.running = some task → (handle, task) ∈ clock.active →
      .scheduled (some handle) false ∈ ledger → Run.expire handle world = (.ok (), after) →
      KeepsLedger after (.fired handle :: ledger)
  /-- Anything else leaves the entries alone and tells of no dealing. -/
  | beside {before ledger clock after moved} : KeepsLedger before ledger →
      before.keeper = .tasks clock → after.keeper = .tasks moved → moved.issued = clock.issued →
      moved.active = clock.active → dealings after.trace = dealings before.trace →
      KeepsLedger after ledger

variable {world after : World S Action A} {ledger : Ledger}
variable {clock : TaskClock (LocalTask S Action A)}

/-- As long as handles last, the clock agrees with the ledger. -/
theorem KeepsLedger.agrees (keeps : world.KeepsLedger ledger) (few : ledger.calls < 2 ^ 64) :
    ∃ clock, world.keeper = .tasks clock ∧ clock.Agrees ledger := by
  induction keeps with
  | fresh keeper _ => exact ⟨.initial, keeper, TaskClock.initial_agrees⟩
  | schedules delay repeating task _ keeper answered ih =>
      rw [Ledger.calls_scheduled] at few
      obtain ⟨known, same, agrees⟩ := ih (by omega)
      rw [keeper] at same
      cases same
      rw [Run.schedule_tasks keeper] at answered
      cases answered
      exact ⟨_, rfl, agrees.scheduled repeating few rfl rfl⟩
  | clears handle _ keeper answered ih =>
      rw [Ledger.calls_cleared] at few
      obtain ⟨known, same, agrees⟩ := ih few
      rw [keeper] at same
      cases same
      rw [Run.clear_tasks keeper] at answered
      cases answered
      exact ⟨_, rfl, agrees.cleared handle⟩
  | expires task _ keeper _ entered single answered ih =>
      rw [Ledger.calls_fired] at few
      obtain ⟨known, same, agrees⟩ := ih few
      rw [keeper] at same
      cases same
      rw [Run.expire_tasks keeper] at answered
      cases answered
      exact ⟨_, rfl, agrees.expired single ⟨task, entered⟩⟩
  | beside _ keeper keeperAfter issued active _ ih =>
      obtain ⟨known, same, agrees⟩ := ih few
      rw [keeper] at same
      cases same
      exact ⟨_, keeperAfter, agrees.same issued active⟩

/-- The trace tells what the ledger says, but for the cancellations that found nothing. -/
theorem KeepsLedger.logged (keeps : world.KeepsLedger ledger) :
    dealings world.trace = ledger.filter Dealing.isLogged := by
  induction keeps with
  | fresh _ blank =>
      rw [blank]
      rfl
  | schedules delay repeating task _ keeper answered ih =>
      rw [Run.schedule_tasks keeper] at answered
      cases answered
      exact congrArg (_ :: ·) ih
  | @clears _ _ clock _ answer handle _ keeper answered ih =>
      rw [Run.clear_tasks keeper] at answered
      cases answer : (clock.clear handle).1 with
      | true =>
          rw [answer] at answered
          cases answered
          exact congrArg (_ :: ·) ih
      | false =>
          rw [answer] at answered
          cases answered
          exact ih
  | expires task _ keeper _ _ _ answered ih =>
      rw [Run.expire_tasks keeper] at answered
      cases answered
      exact congrArg (_ :: ·) ih
  | beside _ _ _ _ _ same ih => exact same.trans ih

/-- Only schedules that do not repeat are entered as fired. -/
theorem KeepsLedger.single_of_fired (keeps : world.KeepsLedger ledger) {handle : TimerHandle}
    (fired : .fired handle ∈ ledger) : .scheduled (some handle) false ∈ ledger := by
  induction keeps with
  | fresh _ _ => cases fired
  | schedules _ _ _ _ _ _ ih | clears _ _ _ _ ih =>
      cases List.mem_cons.1 fired with
      | inl same => cases same
      | inr before => exact List.mem_cons_of_mem _ (ih before)
  | expires _ _ _ _ _ single _ ih =>
      cases List.mem_cons.1 fired with
      | inl same =>
          cases same
          exact List.mem_cons_of_mem _ single
      | inr before => exact List.mem_cons_of_mem _ (ih before)
  | beside _ _ _ _ _ _ ih => exact ih fired

/-- Every call for a schedule has answered. -/
theorem KeepsLedger.answered (keeps : world.KeepsLedger ledger) (repeating : Bool) :
    .scheduled none repeating ∉ ledger := by
  induction keeps with
  | fresh _ _ => exact List.not_mem_nil
  | schedules _ _ _ _ _ _ ih | clears _ _ _ _ ih | expires _ _ _ _ _ _ _ ih => simpa using ih
  | beside _ _ _ _ _ _ ih => exact ih

theorem KeepsLedger.calls_eq (keeps : world.KeepsLedger ledger) :
    (dealings world.trace).calls = ledger.calls := by
  have logged (entry : Dealing) :
      (Ledger.isCall entry && entry.isLogged) = Ledger.isCall entry := by
    cases entry <;> rfl
  simp only [keeps.logged, Ledger.calls, List.countP_filter, logged]

/-- The handles are one, two, three and so on. -/
theorem KeepsLedger.sequence (keeps : world.KeepsLedger ledger) (few : ledger.calls < 2 ^ 64) :
    ledger.handedOut.map (·.id.toNat) = List.range' 1 ledger.calls := by
  obtain ⟨clock, -, agrees⟩ := keeps.agrees few
  exact agrees.sound.sequence keeps.answered

/-- No handle is used up twice. -/
theorem KeepsLedger.once (keeps : world.KeepsLedger ledger) (few : ledger.calls < 2 ^ 64) :
    (issuedBy world.trace).Nodup := by
  have handles : ledger.handedOut.Nodup := by
    apply List.Nodup.of_map (·.id.toNat)
    rw [keeps.sequence few]
    exact List.nodup_range' _
  rw [Ledger.handedOut, List.filterMap_reverse, List.nodup_reverse] at handles
  have told : issuedBy world.trace = ledger.filterMap Ledger.handedOut? := by
    rw [issuedBy_eq, keeps.logged, List.filterMap_filter]
    congr 1
    funext entry
    cases entry with
    | cleared handle answer => cases answer <;> rfl
    | _ => rfl
  rw [told]
  exact handles

/-- What the scheduler of the world answers is what the ledger says. -/
structure RepliesBy (world : World S Action A) (ledger : Ledger) : Prop where
  /-- The next handle bears the number of the call. -/
  scheduled : ledger.calls + 1 < 2 ^ 64 → ∀ delay repeating task, ∃ handle,
    (Run.schedule delay repeating task world).1 = .ok handle ∧ handle.id.toNat = ledger.calls + 1
  /-- A cancellation is answered with yes exactly if the handle is in use. -/
  cleared : ∀ handle, ∃ answer, (Run.clear handle world).1 = .ok answer ∧
    (answer = true ↔ ledger.InUse handle)
  /-- A schedule that does not repeat is forgotten as soon as its firing begins: cancelling it is
  refused, and changes nothing at all. -/
  forgotten : ∀ handle, .fired handle ∈ ledger → Run.clear handle world = (.ok false, world)
  /-- As many schedules are active as can be cancelled. -/
  active : ∃ now, world.keeper.status =
    .tasks now {handle | (Run.clear handle world).1 = .ok true}.ncard

theorem KeepsLedger.replies (keeps : world.KeepsLedger ledger) (few : ledger.calls < 2 ^ 64) :
    world.RepliesBy ledger := by
  obtain ⟨clock, keeper, agrees⟩ := keeps.agrees few
  constructor
  · intro few delay repeating task
    rw [Run.schedule_tasks keeper]
    exact ⟨_, rfl, agrees.next_number few⟩
  · intro handle
    rw [Run.clear_tasks keeper]
    exact ⟨_, rfl, agrees.clear_iff⟩
  · intro handle fired
    have unused : ¬ledger.InUse handle := by
      intro inUse
      obtain ⟨kind, listed, -, repeats | unfired⟩ := inUse
      · have also := agrees.sound.unique (keeps.single_of_fired fired) listed
        rw [repeats] at also
        cases also
      · exact unfired fired
    have refused : (clock.clear handle).1 = false := by
      rw [← Bool.not_eq_true, agrees.clear_iff]
      exact unused
    rw [Run.clear_tasks keeper, refused, TaskClock.clear_eq_of_false refused, ← keeper]
    rfl
  · refine ⟨clock.now, ?_⟩
    have answers (handle) :
        (Run.clear handle world).1 = .ok true ↔ (clock.clear handle).1 = true := by
      rw [Run.clear_tasks keeper]
      simp
    simp only [answers, ← agrees.length_active, keeper]
    rfl

end World

end EffectLoop
