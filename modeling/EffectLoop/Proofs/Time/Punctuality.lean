import EffectLoop.Proofs.Time.Chronicle
import EffectLoop.Proofs.Time.Course

/-!
# A virtual clock is punctual

On the course of a clock that one advance drives at a time, what is registered is what is set for
the schedules.  The clock moves to the first of these times, and an advance ends before the next.
-/

namespace EffectLoop

variable {τ : Type}

/-- The next firing of a registered schedule. -/
def Timer.appointment (timer : Timer τ) : Appointment :=
  ⟨timer.handle, timer.due.nanos, timer.period.map Duration.nanos⟩

namespace VirtualClock

variable {clock after : VirtualClock τ} {history : List (Entry τ)} {advance : Option Advance}
variable {target : Duration} {timer : Timer τ}

/-- What an entry of a history tells of schedules.  A schedule is not registered if the time at
which it would be due first is no duration. -/
def Entry.incident? : Entry τ → Option Dated
  | ⟨.moved (.scheduled delay repeating _), clock⟩ =>
      (clock.now.add? (if repeating then repeatPeriod delay else delay)).map fun _ =>
        ⟨clock.now.nanos, .scheduled ⟨clock.issued⟩ delay repeating⟩
  | ⟨.moved (.cleared handle), clock⟩ => some ⟨clock.now.nanos, .cleared handle⟩
  | ⟨.moved (.fired _ timer), clock⟩ => some ⟨clock.now.nanos, .fired timer.handle⟩
  | _ => none

/-- What a history tells of schedules. -/
def chronicle (history : List (Entry τ)) : Chronicle := history.filterMap Entry.incident?

theorem chronicle_cons_none {entry : Entry τ} (silent : entry.incident? = none) :
    chronicle (entry :: history) = chronicle history :=
  List.filterMap_cons_none silent

theorem chronicle_cons_some {entry : Entry τ} {dated : Dated}
    (tells : entry.incident? = some dated) :
    chronicle (entry :: history) = dated :: chronicle history :=
  List.filterMap_cons_some tells

/-- What is set for the registered schedules. -/
def agenda (clock : VirtualClock τ) : Set Appointment :=
  {appointment | ∃ timer ∈ clock.timers, timer.appointment = appointment}

theorem agenda_schedule {delay due : Duration} {repeating : Bool} {task : τ}
    (sum : clock.now.add? (if repeating then repeatPeriod delay else delay) = some due) :
    (clock.schedule delay repeating task).2.agenda =
      {other | other ∈ clock.agenda ∨
        other = .first ⟨clock.issued + 1⟩ clock.now.nanos delay repeating} := by
  have wait : (if repeating then some (repeatPeriod delay) else none).getD delay =
      if repeating then repeatPeriod delay else delay := by
    cases repeating <;> rfl
  have first : (Timer.mk ⟨clock.issued + 1⟩ due
      (if repeating then some (repeatPeriod delay) else none) task).appointment =
        .first ⟨clock.issued + 1⟩ clock.now.nanos delay repeating := by
    rw [Duration.add?_eq_some_iff] at sum
    rw [Timer.appointment, sum]
    cases repeating <;> rfl
  ext other
  simp only [agenda, schedule, wait, sum, Set.mem_ofPred_eq, List.mem_append, List.mem_singleton]
  constructor
  · rintro ⟨timer, old | rfl, rfl⟩
    · exact .inl ⟨timer, old, rfl⟩
    · exact .inr first
  · rintro (⟨timer, old, rfl⟩ | rfl)
    · exact ⟨timer, .inl old, rfl⟩
    · exact ⟨_, .inr rfl, first⟩

theorem agenda_clear (clock : VirtualClock τ) (handle : TimerHandle) :
    (clock.clear handle).2.agenda = {other | other ∈ clock.agenda ∧ other.handle ≠ handle} := by
  ext other
  simp only [agenda, clear, Set.mem_ofPred_eq, List.mem_filter, decide_eq_true_eq]
  constructor
  · rintro ⟨timer, ⟨old, different⟩, rfl⟩
    exact ⟨⟨timer, old, rfl⟩, different⟩
  · rintro ⟨⟨timer, old, rfl⟩, different⟩
    exact ⟨timer, ⟨old, different⟩, rfl⟩

/-- A schedule that fires is set anew if it repeats. -/
theorem agenda_takeDue (found : clock.due? target = some timer)
    (taken : clock.takeDue target = (.task timer.task, after))
    (unique : ∀ left ∈ clock.agenda, ∀ right ∈ clock.agenda, left.handle = right.handle →
      left = right) :
    after.agenda = {other | other ∈ clock.agenda ∧ other.handle ≠ timer.appointment.handle ∨
      timer.appointment.next? = some other} := by
  have within := (mem_of_due? found).1
  obtain ⟨first, foundFirst, -, change⟩ := takeDue_eq_task taken
  rw [found] at foundFirst
  cases foundFirst
  ext other
  obtain ⟨single, rfl⟩ | ⟨period, due, repeats, sum, rfl⟩ := change
  · have last : timer.appointment.next? = none := by
      rw [Appointment.next?, Timer.appointment, single]
      rfl
    simp only [agenda, last, Set.mem_ofPred_eq, List.mem_filter, decide_eq_true_eq, reduceCtorEq,
      or_false]
    constructor
    · rintro ⟨kept, ⟨old, different⟩, rfl⟩
      exact ⟨⟨kept, old, rfl⟩, different⟩
    · rintro ⟨⟨kept, old, rfl⟩, different⟩
      exact ⟨kept, ⟨old, different⟩, rfl⟩
  · rw [Duration.add?_eq_some_iff] at sum
    have again : timer.appointment.next? = some ⟨timer.handle, due.nanos, some period.nanos⟩ := by
      rw [Appointment.next?, Timer.appointment, repeats, sum]
      rfl
    simp only [agenda, again, Set.mem_ofPred_eq, List.mem_map, exists_exists_and_eq_and,
      Option.some.injEq]
    constructor
    · rintro ⟨kept, old, rfl⟩
      by_cases same : kept.handle = timer.handle
      · have equal := unique _ ⟨kept, old, rfl⟩ _ ⟨timer, within, rfl⟩ same
        have period : kept.period.map Duration.nanos = some period.nanos := by
          rw [← Option.map_some, ← repeats]
          exact congrArg Appointment.period equal
        rw [if_pos same]
        right
        rw [Timer.appointment, period, same]
      · rw [if_neg same]
        exact .inl ⟨⟨kept, old, rfl⟩, same⟩
    · rintro (⟨⟨kept, old, rfl⟩, different⟩ | rfl)
      · have apart : kept.handle ≠ timer.handle := different
        exact ⟨kept, old, by rw [if_neg apart]⟩
      · refine ⟨timer, within, ?_⟩
        rw [if_pos rfl, Timer.appointment, repeats]
        rfl

/-! ## Courses -/

/-- What is told leads up to what is set, and handles are told in the order of their numbers. -/
structure Tells (history : List (Entry τ)) (clock : VirtualClock τ) : Prop where
  punctual : Punctual (chronicle history) clock.now.nanos clock.agenda
  numbered : ∀ handle, (chronicle history).Names handle → handle.id.toNat ≤ clock.issued.toNat

namespace Tells

theorem fresh : Tells [] (initial : VirtualClock τ) where
  punctual := by
    have nothing : (initial : VirtualClock τ).agenda = ∅ := by
      ext other
      simp [agenda, initial]
    rw [nothing]
    exact .fresh
  numbered := by
    rintro handle ⟨_, _, _, within⟩
    cases within

variable (tells : Tells history clock)
include tells

/-- Nothing is told. -/
theorem silent {entry : Entry τ} (silent : entry.incident? = none) (later : clock.now ≤ after.now)
    (timers : after.timers = clock.timers) (issued : clock.issued.toNat ≤ after.issued.toNat)
    (ahead : ∀ timer ∈ clock.timers, after.now ≤ timer.due) : Tells (entry :: history) after where
  punctual := by
    have same : after.agenda = clock.agenda := by rw [agenda, timers, agenda]
    rw [chronicle_cons_none silent, same]
    apply tells.punctual.passes _ later
    rintro _ ⟨timer, within, rfl⟩
    exact ahead timer within
  numbered := by
    rw [chronicle_cons_none silent]
    intro handle names
    exact (tells.numbered handle names).trans issued

theorem scheduled {delay : Duration} {repeating : Bool} {task : τ}
    (sound : clock.Sound)
    (counted : (clock.issued + 1).toNat = clock.issued.toNat + 1) :
    Tells (⟨.moved (.scheduled delay repeating task), (clock.schedule delay repeating task).2⟩ ::
      history) (clock.schedule delay repeating task).2 := by
  have wait : (if repeating then some (repeatPeriod delay) else none).getD delay =
      if repeating then repeatPeriod delay else delay := by
    cases repeating <;> rfl
  cases sum : clock.now.add? (if repeating then repeatPeriod delay else delay) with
  | none =>
      have refused : (clock.schedule delay repeating task).2 =
          { clock with issued := clock.issued + 1 } := by
        simp only [schedule, wait, sum]
      rw [refused]
      apply tells.silent
      · simp [Entry.incident?, sum]
      · exact Nat.le_refl _
      · rfl
      · simp only [counted, Nat.le_add_right]
      · exact sound
  | some due =>
      have issued : (clock.schedule delay repeating task).2.issued = clock.issued + 1 := by
        simp only [schedule, wait, sum]
      have now : (clock.schedule delay repeating task).2.now = clock.now := by
        simp only [schedule, wait, sum]
      have told : (Entry.mk (.moved (.scheduled delay repeating task))
          (clock.schedule delay repeating task).2).incident? =
            some ⟨clock.now.nanos, .scheduled ⟨clock.issued + 1⟩ delay repeating⟩ := by
        rw [Entry.incident?, now, issued, sum]
        rfl
      constructor
      · rw [chronicle_cons_some told, agenda_schedule sum, now]
        apply tells.punctual.scheduled
        intro names
        have known := tells.numbered _ names
        dsimp only at known
        omega
      · rw [chronicle_cons_some told, issued, counted]
        rintro handle ⟨start, wait, kind, within⟩
        cases List.mem_cons.1 within with
        | inl new =>
            cases new
            exact counted.le
        | inr old => exact (tells.numbered handle ⟨start, wait, kind, old⟩).trans (Nat.le_succ _)

theorem cleared (handle : TimerHandle) :
    Tells (⟨.moved (.cleared handle), (clock.clear handle).2⟩ :: history)
      (clock.clear handle).2 where
  punctual := by
    rw [chronicle_cons_some rfl, agenda_clear]
    exact tells.punctual.cleared handle
  numbered := by
    rw [chronicle_cons_some rfl]
    rintro other ⟨start, delay, repeating, within⟩
    cases List.mem_cons.1 within with
    | inl new => cases new
    | inr old => exact tells.numbered other ⟨start, delay, repeating, old⟩

theorem fired (sound : clock.Sound) (moved : Moves clock (.fired target timer) after) :
    Tells (⟨.moved (.fired target timer), after⟩ :: history) after := by
  have now : after.now = timer.due := moved.now_eq
  have issued : after.issued = clock.issued := moved.issued_eq
  have told : (Entry.mk (.moved (.fired target timer)) after).incident? =
      some ⟨timer.due.nanos, .fired timer.appointment.handle⟩ := by
    rw [Entry.incident?, now]
    rfl
  constructor
  · cases moved with
    | fired _ found taken =>
        have within := (mem_of_due? found).1
        have waits : Punctual (chronicle history) timer.due.nanos clock.agenda := by
          apply tells.punctual.passes _ (sound timer within)
          rintro _ ⟨other, also, rfl⟩
          exact due_le_of_due? found also
        rw [chronicle_cons_some told, now,
          agenda_takeDue found taken tells.punctual.accounted.unique]
        exact waits.fired ⟨timer, within, rfl⟩ rfl
  · rw [chronicle_cons_some told, issued]
    rintro other ⟨start, delay, repeating, listed⟩
    cases List.mem_cons.1 listed with
    | inl new => cases new
    | inr old => exact tells.numbered other ⟨start, delay, repeating, old⟩

end Tells

/-- While at most one advance at a time is under way, a virtual clock is punctual, as long as
handles of 64 bits last. -/
theorem Course.tells (course : Course history clock advance) (few : issuedIn history < 2 ^ 64) :
    Tells history clock := by
  induction course with
  | fresh => exact .fresh
  | @aside history clock _ move _ before moved aside ih =>
      have fewer : issuedIn history < 2 ^ 64 := by
        rw [issuedIn_cons] at few
        omega
      have tells := ih fewer
      have standing := (before.standing fewer).1
      have issued := standing.issued_moved moved few
      cases moved with
      | scheduled delay repeating task =>
          rw [(Moves.scheduled clock delay repeating task).issued_eq] at issued
          exact tells.scheduled standing.sound (issued.trans (Nat.add_comm _ _))
      | cleared handle => exact tells.cleared handle
      | spawned task =>
          exact tells.silent rfl (Nat.le_refl _) rfl (Nat.le_refl _) standing.sound
      | drained | fired | strained | arrived => cases aside
  | @begun history _ _ _ before _ ih =>
      have fewer : issuedIn history < 2 ^ 64 := by simpa using few
      exact (ih fewer).silent rfl (Nat.le_refl _) rfl (Nat.le_refl _)
        (before.standing fewer).1.sound
  | @completed history _ _ _ _ before ih =>
      have fewer : issuedIn history < 2 ^ 64 := by simpa using few
      exact (ih fewer).silent rfl (Nat.le_refl _) rfl (Nat.le_refl _)
        (before.standing fewer).1.sound
  | @drained history _ _ _ _ before moved ih =>
      have fewer : issuedIn history < 2 ^ 64 := by simpa using few
      cases moved with
      | drained _ =>
          exact (ih fewer).silent rfl (Nat.le_refl _) rfl (Nat.le_refl _)
            (before.standing fewer).1.sound
  | @fired history _ _ _ _ _ before moved ih =>
      have fewer : issuedIn history < 2 ^ 64 := by simpa using few
      exact (ih fewer).fired (before.standing fewer).1.sound moved
  | @arrived history _ _ _ _ before moved ih =>
      have fewer : issuedIn history < 2 ^ 64 := by simpa using few
      obtain ⟨-, timers, ahead⟩ := moved.of_arrived
      have within := (before.standing fewer).2 _ rfl
      cases moved with
      | arrived _ _ =>
          apply (ih fewer).silent rfl within timers (Nat.le_refl _)
          intro timer registered
          exact Nat.le_of_lt (ahead timer registered)

end VirtualClock

end EffectLoop
