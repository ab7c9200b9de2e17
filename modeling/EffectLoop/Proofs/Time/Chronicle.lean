import Mathlib.Data.List.Sort
import EffectLoop.Time.Handle
import EffectLoop.Time.Duration

/-!
# When schedules fire

A chronicle of a scheduler says, with dates, which schedules were asked for, which were cancelled,
and which have fired.  It is *punctual* if every schedule fires at the time that is set for it: time
never goes beyond a time that is set, what fires is due, and what repeats is set anew a period
later.

When schedules fire in a punctual chronicle is then determined by the calls, as far as time has
come, unless a schedule is cancelled at a moment at which it is due.
-/

namespace EffectLoop

/-- Something that concerns a schedule. -/
inductive Incident where
  | scheduled (handle : TimerHandle) (delay : Duration) (repeating : Bool)
  | cleared (handle : TimerHandle)
  | fired (handle : TimerHandle)
  deriving DecidableEq

/-- Does someone ask for it? -/
def Incident.isCall : Incident → Bool
  | scheduled _ _ _ | cleared _ => true
  | fired _ => false

/-- An incident with its date. -/
structure Dated where
  /-- In nanoseconds. -/
  time : Nat
  what : Incident
  deriving DecidableEq

/-- The time until a schedule is due for the first time, and, if it repeats, between firings. -/
def stride (delay : Duration) (repeating : Bool) : Nat :=
  (if repeating then repeatPeriod delay else delay).nanos

/-- A schedule that was asked for at `start` is due at `time`. -/
def DueAt (start : Nat) (delay : Duration) (repeating : Bool) (time : Nat) : Prop :=
  ∃ count, (repeating = false → count = 0) ∧ time = start + (count + 1) * stride delay repeating

/-- Dated incidents, the latest first. -/
abbrev Chronicle := List Dated

namespace Chronicle

/-- What was asked for. -/
def calls (chronicle : Chronicle) : Chronicle := chronicle.filter (·.what.isCall)

/-- What came to pass before a bound. -/
def before (bound : Nat) (chronicle : Chronicle) : Chronicle := chronicle.filter (·.time < bound)

/-- The dates at which the schedule has fired, the earliest first. -/
def firings (handle : TimerHandle) (chronicle : Chronicle) : List Nat :=
  (chronicle.reverse.filter (·.what = .fired handle)).map Dated.time

/-- A schedule with that handle was asked for. -/
def Names (chronicle : Chronicle) (handle : TimerHandle) : Prop :=
  ∃ start delay repeating, ⟨start, .scheduled handle delay repeating⟩ ∈ chronicle

/-- Judging by the calls, the schedule fires at that time: it is due, and was not cancelled
before. -/
def Falls (calls : Chronicle) (handle : TimerHandle) (time : Nat) : Prop :=
  ∃ (later earlier : Chronicle) (start : Nat) (delay : Duration) (repeating : Bool),
    calls = later ++ ⟨start, .scheduled handle delay repeating⟩ :: earlier ∧
      DueAt start delay repeating time ∧ ∀ moment, ⟨moment, .cleared handle⟩ ∈ later → time < moment

/-- A schedule that is cancelled is not due at that moment. -/
def Undue (calls : Chronicle) : Prop :=
  ∀ (later between earlier : Chronicle) (start moment : Nat) (handle : TimerHandle)
    (delay : Duration) (repeating : Bool),
    calls = later ++ ⟨moment, .cleared handle⟩ ::
      (between ++ ⟨start, .scheduled handle delay repeating⟩ :: earlier) →
    (∀ other, ⟨other, .cleared handle⟩ ∉ between) → ¬DueAt start delay repeating moment

end Chronicle

/-- The next firing that is set for a schedule. -/
structure Appointment where
  handle : TimerHandle
  due : Nat
  period : Option Nat

namespace Appointment

/-- The first firing that is set for a schedule. -/
def first (handle : TimerHandle) (now : Nat) (delay : Duration) (repeating : Bool) : Appointment :=
  ⟨handle, now + stride delay repeating, if repeating then some (stride delay repeating) else none⟩

/-- What is set when the schedule has fired. -/
def next? (appointment : Appointment) : Option Appointment :=
  appointment.period.map fun period =>
    ⟨appointment.handle, appointment.due + period, some period⟩

theorem next?_eq_some_iff {appointment other : Appointment} : appointment.next? = some other ↔
    ∃ period, appointment.period = some period ∧
      other = ⟨appointment.handle, appointment.due + period, some period⟩ := by
  rw [next?, Option.map_eq_some_iff]
  simp only [eq_comm]

end Appointment

/-- Every schedule fires at the time that is set for it.  The agenda is what is set now. -/
inductive Punctual : Chronicle → (now : Nat) → (agenda : Set Appointment) → Prop where
  | fresh : Punctual [] 0 ∅
  | passes {chronicle now agenda} (moment : Nat) : Punctual chronicle now agenda → now ≤ moment →
      (∀ appointment ∈ agenda, moment ≤ appointment.due) → Punctual chronicle moment agenda
  | scheduled {chronicle now agenda handle} (delay : Duration) (repeating : Bool) :
      Punctual chronicle now agenda → ¬chronicle.Names handle →
      Punctual (⟨now, .scheduled handle delay repeating⟩ :: chronicle) now
        {other | other ∈ agenda ∨ other = .first handle now delay repeating}
  | cleared {chronicle now agenda} (handle : TimerHandle) : Punctual chronicle now agenda →
      Punctual (⟨now, .cleared handle⟩ :: chronicle) now
        {other | other ∈ agenda ∧ other.handle ≠ handle}
  | fired {chronicle now agenda appointment} : Punctual chronicle now agenda →
      appointment ∈ agenda → appointment.due = now →
      Punctual (⟨now, .fired appointment.handle⟩ :: chronicle) now
        {other | other ∈ agenda ∧ other.handle ≠ appointment.handle ∨
          appointment.next? = some other}

theorem stride_pos (delay : Duration) : 0 < stride delay true := by
  have least : Duration.millisecond ≤ (repeatPeriod delay).nanos :=
    oneMillisecond_le_repeatPeriod delay
  simp only [Duration.millisecond] at least
  change 0 < (repeatPeriod delay).nanos
  omega

namespace DueAt

variable {start time : Nat} {delay : Duration} {repeating : Bool}

theorem first (start : Nat) (delay : Duration) (repeating : Bool) :
    DueAt start delay repeating (start + stride delay repeating) :=
  ⟨0, fun _ => rfl, by rw [Nat.zero_add, Nat.one_mul]⟩

theorem le (due : DueAt start delay repeating time) : start ≤ time := by
  obtain ⟨count, -, rfl⟩ := due
  exact Nat.le_add_right _ _

theorem first_le (due : DueAt start delay repeating time) :
    start + stride delay repeating ≤ time := by
  obtain ⟨count, -, rfl⟩ := due
  exact Nat.add_le_add_left (Nat.le_mul_of_pos_left _ (Nat.succ_pos count)) _

theorem next (due : DueAt start delay true time) :
    DueAt start delay true (time + stride delay true) := by
  obtain ⟨count, -, rfl⟩ := due
  refine ⟨count + 1, nofun, ?_⟩
  rw [Nat.succ_mul (count + 1), Nat.add_assoc]

theorem eq_of_single {other : Nat} (due : DueAt start delay false time)
    (also : DueAt start delay false other) : time = other := by
  obtain ⟨count, single, rfl⟩ := due
  obtain ⟨again, alone, rfl⟩ := also
  rw [single rfl, alone rfl]

/-- A repeating schedule is not due between a firing and the next. -/
theorem next_le {other : Nat} (due : DueAt start delay true time)
    (also : DueAt start delay true other) (later : time < other) :
    time + stride delay true ≤ other := by
  obtain ⟨count, -, rfl⟩ := due
  obtain ⟨again, -, rfl⟩ := also
  have more : count + 1 < again + 1 := Nat.lt_of_mul_lt_mul_right (Nat.lt_of_add_lt_add_left later)
  rw [Nat.add_assoc, ← Nat.succ_mul]
  exact Nat.add_le_add_left (Nat.mul_le_mul_right _ more) _

end DueAt

namespace Chronicle

variable {chronicle : Chronicle} {entry : Dated} {handle : TimerHandle} {time : Nat}

theorem mem_firings : time ∈ chronicle.firings handle ↔ ⟨time, .fired handle⟩ ∈ chronicle := by
  simp only [firings, List.mem_map, List.mem_filter, List.mem_reverse, decide_eq_true_eq]
  constructor
  · rintro ⟨⟨_, _⟩, ⟨within, rfl⟩, rfl⟩
    exact within
  · intro within
    exact ⟨_, ⟨within, rfl⟩, rfl⟩

theorem firings_fired :
    firings handle (⟨time, .fired handle⟩ :: chronicle) = chronicle.firings handle ++ [time] := by
  simp [firings]

theorem firings_of_ne (other : entry.what ≠ .fired handle) :
    firings handle (entry :: chronicle) = chronicle.firings handle := by
  simp [firings, other]

theorem calls_call (call : entry.what.isCall) :
    calls (entry :: chronicle) = entry :: chronicle.calls :=
  List.filter_cons_of_pos call

/-- A bound divides the parts of a chronicle as it divides the whole. -/
theorem before_append {bound : Nat} (later earlier : Chronicle) (shown : entry.time < bound) :
    before bound (later ++ entry :: earlier) =
      later.before bound ++ entry :: earlier.before bound := by
  have kept : before bound (entry :: earlier) = entry :: earlier.before bound :=
    List.filter_cons_of_pos (by simpa using shown)
  rw [before, List.filter_append]
  exact congrArg (later.before bound ++ ·) kept

/-- Of several cancellations there is an earliest. -/
theorem exists_earliest_cleared (within : ⟨time, .cleared handle⟩ ∈ chronicle) :
    ∃ (later earlier : Chronicle) (first : Nat),
      chronicle = later ++ ⟨first, .cleared handle⟩ :: earlier ∧
        ∀ other, ⟨other, .cleared handle⟩ ∉ earlier := by
  induction chronicle generalizing time with
  | nil => cases within
  | cons entry rest ih =>
      by_cases more : ∃ other, ⟨other, .cleared handle⟩ ∈ rest
      · obtain ⟨other, again⟩ := more
        obtain ⟨later, earlier, first, parts, none⟩ := ih again
        exact ⟨entry :: later, earlier, first, by rw [parts, List.cons_append], none⟩
      · cases List.mem_cons.1 within with
        | inl same =>
            subst same
            exact ⟨[], rest, time, rfl, fun other old => more ⟨other, old⟩⟩
        | inr old => exact (more ⟨time, old⟩).elim

/-- What is due, and is cancelled no sooner, is cancelled later. -/
theorem lt_of_cleared {calls later earlier : Chronicle} {start : Nat} {delay : Duration}
    {repeating : Bool} (ordered : calls.Pairwise fun late early => early.time ≤ late.time)
    (undue : calls.Undue)
    (split : calls = later ++ ⟨start, .scheduled handle delay repeating⟩ :: earlier)
    (due : DueAt start delay repeating time)
    (least : ∀ moment, ⟨moment, .cleared handle⟩ ∈ later → time ≤ moment) :
    ∀ moment, ⟨moment, .cleared handle⟩ ∈ later → time < moment := by
  intro moment within
  -- The first cancellation comes after the firing, and so do all others.
  obtain ⟨late, between, first, rfl, none⟩ := exists_earliest_cleared within
  rw [List.append_assoc] at split
  have sooner : time ≤ first := least first (List.mem_append_right _ List.mem_cons_self)
  have apart : time ≠ first := by
    rintro rfl
    exact undue late between earlier start time handle delay repeating split none due
  rw [split, List.pairwise_append] at ordered
  have first_le : first ≤ moment := by
    cases List.mem_append.1 within with
    | inl since => exact ordered.2.2 _ since _ List.mem_cons_self
    | inr rest =>
        cases List.mem_cons.1 rest with
        | inl same =>
            cases same
            exact Nat.le_refl _
        | inr old => exact (none _ old).elim
  omega

theorem calls_fired : calls (⟨time, .fired handle⟩ :: chronicle) = chronicle.calls := rfl

end Chronicle

/-! ## What a chronicle accounts for -/

/-- How a schedule stands that was asked for at `start`; `later` is what was asked for since. -/
structure Standing (chronicle : Chronicle) (agenda : Set Appointment) (later : Chronicle)
    (start : Nat) (handle : TimerHandle) (delay : Duration) (repeating : Bool) : Prop where
  increasing : (chronicle.firings handle).Pairwise (· < ·)
  due : ∀ time ∈ chronicle.firings handle, DueAt start delay repeating time
  /-- Nothing fires once it is cancelled. -/
  uncleared : ∀ time ∈ chronicle.firings handle, ∀ moment, ⟨moment, .cleared handle⟩ ∈ later →
    time ≤ moment
  /-- It has fired whenever it was due, unless it was cancelled or that is still to come. -/
  covered : ∀ time, DueAt start delay repeating time → time ∈ chronicle.firings handle ∨
    (∃ moment ≤ time, ⟨moment, .cleared handle⟩ ∈ later) ∨
    ∃ appointment ∈ agenda, appointment.handle = handle ∧ appointment.due ≤ time
  /-- What is set for it. -/
  pending : ∀ appointment ∈ agenda, appointment.handle = handle →
    DueAt start delay repeating appointment.due ∧
      appointment.period = (if repeating then some (stride delay repeating) else none) ∧
      (∀ time ∈ chronicle.firings handle, time < appointment.due) ∧
      ∀ moment, ⟨moment, .cleared handle⟩ ∉ later

/-- What holds of a punctual chronicle at every moment. -/
structure Accounted (chronicle : Chronicle) (now : Nat) (agenda : Set Appointment) : Prop where
  timely : ∀ appointment ∈ agenda, now ≤ appointment.due
  unique : ∀ left ∈ agenda, ∀ right ∈ agenda, left.handle = right.handle → left = right
  named : ∀ appointment ∈ agenda, chronicle.Names appointment.handle
  told : ∀ handle, ∀ time ∈ chronicle.firings handle, chronicle.Names handle
  past : ∀ entry ∈ chronicle, entry.time ≤ now
  ordered : chronicle.Pairwise fun late early => early.time ≤ late.time
  standing : ∀ (later earlier : Chronicle) start handle delay repeating,
    chronicle.calls = later ++ ⟨start, .scheduled handle delay repeating⟩ :: earlier →
    Standing chronicle agenda later start handle delay repeating

/-- What does not concern the schedule changes nothing for it. -/
theorem Standing.aside {chronicle : Chronicle} {agenda set : Set Appointment}
    {later since : Chronicle} {start : Nat} {handle : TimerHandle} {delay : Duration}
    {repeating : Bool} {entry : Dated}
    (standing : Standing chronicle agenda later start handle delay repeating)
    (other : entry.what ≠ .fired handle)
    (cleared : ∀ moment, ⟨moment, .cleared handle⟩ ∈ since ↔ ⟨moment, .cleared handle⟩ ∈ later)
    (same : ∀ appointment, appointment.handle = handle →
      (appointment ∈ set ↔ appointment ∈ agenda)) :
    Standing (entry :: chronicle) set since start handle delay repeating := by
  have still : Chronicle.firings handle (entry :: chronicle) = chronicle.firings handle :=
    Chronicle.firings_of_ne other
  constructor
  · rw [still]
    exact standing.increasing
  · rw [still]
    exact standing.due
  · intro time fired moment within
    rw [still] at fired
    exact standing.uncleared time fired moment ((cleared moment).1 within)
  · intro time due
    rw [still]
    obtain fired | ⟨moment, least, within⟩ | ⟨appointment, within, named, least⟩ :=
      standing.covered time due
    · exact .inl fired
    · exact .inr (.inl ⟨moment, least, (cleared moment).2 within⟩)
    · exact .inr (.inr ⟨appointment, (same appointment named).2 within, named, least⟩)
  · intro appointment within named
    obtain ⟨due, period, past, uncleared⟩ :=
      standing.pending appointment ((same appointment named).1 within) named
    rw [still]
    exact ⟨due, period, past, fun moment within => uncleared moment ((cleared moment).1 within)⟩

/-- A schedule that was only just asked for is due for the first time. -/
theorem Standing.first {chronicle : Chronicle} {agenda : Set Appointment} {handle : TimerHandle}
    (silent : chronicle.firings handle = [])
    (others : ∀ appointment ∈ agenda, appointment.handle ≠ handle) (now : Nat) (delay : Duration)
    (repeating : Bool) :
    Standing (⟨now, .scheduled handle delay repeating⟩ :: chronicle)
      {other | other ∈ agenda ∨ other = .first handle now delay repeating} [] now handle delay
      repeating := by
  have still : Chronicle.firings handle
      (⟨now, .scheduled handle delay repeating⟩ :: chronicle) = [] := by
    rw [Chronicle.firings_of_ne (by simp), silent]
  constructor
  · rw [still]
    exact .nil
  · simp [still]
  · simp [still]
  · intro time due
    exact .inr (.inr ⟨_, .inr rfl, rfl, due.first_le⟩)
  · rintro other (old | rfl) same
    · exact (others other old same).elim
    · exact ⟨.first now delay repeating, rfl, by simp [still], fun _ => List.not_mem_nil⟩

/-- A schedule that is cancelled does not fire from now on. -/
theorem Standing.cleared {chronicle : Chronicle} {agenda : Set Appointment} {later : Chronicle}
    {start now : Nat} {handle : TimerHandle} {delay : Duration} {repeating : Bool}
    (standing : Standing chronicle agenda later start handle delay repeating)
    (past : ∀ time ∈ chronicle.firings handle, time ≤ now)
    (timely : ∀ appointment ∈ agenda, now ≤ appointment.due) :
    Standing (⟨now, .cleared handle⟩ :: chronicle)
      {other | other ∈ agenda ∧ other.handle ≠ handle} (⟨now, .cleared handle⟩ :: later) start
      handle delay repeating := by
  have still : Chronicle.firings handle (⟨now, .cleared handle⟩ :: chronicle) =
      chronicle.firings handle := Chronicle.firings_of_ne (by simp)
  constructor
  · rw [still]
    exact standing.increasing
  · rw [still]
    exact standing.due
  · intro time fired moment within
    rw [still] at fired
    cases List.mem_cons.1 within with
    | inl same =>
        cases same
        exact past time fired
    | inr old => exact standing.uncleared time fired moment old
  · intro time due
    rw [still]
    obtain fired | ⟨moment, least, within⟩ | ⟨appointment, within, named, least⟩ :=
      standing.covered time due
    · exact .inl fired
    · exact .inr (.inl ⟨moment, least, List.mem_cons_of_mem _ within⟩)
    · exact .inr (.inl ⟨now, (timely appointment within).trans least, List.mem_cons_self⟩)
  · intro appointment within named
    exact (within.2 named).elim

/-- A schedule that fires is set anew if it repeats, and is over otherwise. -/
theorem Standing.fired {chronicle : Chronicle} {agenda : Set Appointment} {later : Chronicle}
    {start now : Nat} {appointment : Appointment} {delay : Duration} {repeating : Bool}
    (standing : Standing chronicle agenda later start appointment.handle delay repeating)
    (unique : ∀ left ∈ agenda, ∀ right ∈ agenda, left.handle = right.handle → left = right)
    (within : appointment ∈ agenda) (shown : appointment.due = now) :
    Standing (⟨now, .fired appointment.handle⟩ :: chronicle)
      {other | other ∈ agenda ∧ other.handle ≠ appointment.handle ∨ appointment.next? = some other}
      later start appointment.handle delay repeating := by
  subst shown
  obtain ⟨due, period, past, uncleared⟩ := standing.pending appointment within rfl
  have longer : Chronicle.firings appointment.handle
      (⟨appointment.due, .fired appointment.handle⟩ :: chronicle) =
        chronicle.firings appointment.handle ++ [appointment.due] := Chronicle.firings_fired
  constructor
  · rw [longer, List.pairwise_append]
    refine ⟨standing.increasing, List.pairwise_singleton _ _, ?_⟩
    intro time fired last same
    rw [List.mem_singleton.1 same]
    exact past time fired
  · intro time fired
    rw [longer] at fired
    cases List.mem_append.1 fired with
    | inl old => exact standing.due time old
    | inr now =>
        rw [List.mem_singleton.1 now]
        exact due
  · intro time fired moment cleared
    exact (uncleared moment cleared).elim
  · intro time dueThen
    rw [longer]
    obtain fired | ⟨moment, least, cleared⟩ | ⟨other, also, named, least⟩ :=
      standing.covered time dueThen
    · exact .inl (List.mem_append_left _ fired)
    · exact (uncleared moment cleared).elim
    · cases unique other also appointment within named
      rcases Nat.eq_or_lt_of_le least with now | later
      · rw [now]
        exact .inl (List.mem_append_right _ (List.mem_singleton_self _))
      · cases repeating with
        | true =>
            have again := Appointment.next?_eq_some_iff.2 ⟨_, period, rfl⟩
            exact .inr (.inr ⟨_, .inr again, rfl, due.next_le dueThen later⟩)
        | false =>
            have same := due.eq_of_single dueThen
            omega
  · rintro other (⟨-, apart⟩ | again) named
    · exact (apart named).elim
    · obtain ⟨span, repeats, rfl⟩ := Appointment.next?_eq_some_iff.1 again
      rw [period] at repeats
      cases repeating with
      | true =>
          cases repeats
          refine ⟨due.next, rfl, ?_, uncleared⟩
          intro time fired
          have positive := stride_pos delay
          rw [longer] at fired
          dsimp only
          cases List.mem_append.1 fired with
          | inl old => exact (past time old).trans (Nat.lt_add_of_pos_right positive)
          | inr now =>
              rw [List.mem_singleton.1 now]
              exact Nat.lt_add_of_pos_right positive
      | false => cases repeats

namespace Accounted

variable {chronicle : Chronicle} {now : Nat} {agenda : Set Appointment}
variable {handle : TimerHandle} {appointment : Appointment}

theorem fresh : Accounted [] 0 ∅ where
  timely _ within := within.elim
  unique _ within := within.elim
  named _ within := within.elim
  told _ _ within := (List.not_mem_nil within).elim
  past _ within := (List.not_mem_nil within).elim
  ordered := .nil
  standing := by
    intro later earlier start handle delay repeating whole
    cases later <;> cases whole

variable (accounted : Accounted chronicle now agenda)
include accounted

theorem passes {moment : Nat} (later : now ≤ moment)
    (ahead : ∀ appointment ∈ agenda, moment ≤ appointment.due) :
    Accounted chronicle moment agenda :=
  { accounted with
    timely := ahead
    past := fun entry within => (accounted.past entry within).trans later }

theorem past_cons (what : Incident) :
    ∀ entry ∈ (⟨now, what⟩ :: chronicle : Chronicle), entry.time ≤ now := by
  intro entry within
  cases List.mem_cons.1 within with
  | inl same =>
      rw [same]
  | inr old => exact accounted.past entry old

theorem ordered_cons (what : Incident) :
    (⟨now, what⟩ :: chronicle : Chronicle).Pairwise fun late early => early.time ≤ late.time :=
  .cons accounted.past accounted.ordered

omit accounted in
theorem names_cons {entry : Dated} (names : chronicle.Names handle) :
    Chronicle.Names (entry :: chronicle) handle := by
  obtain ⟨start, delay, repeating, within⟩ := names
  exact ⟨start, delay, repeating, List.mem_cons_of_mem _ within⟩

omit accounted in
theorem names_of_calls {later earlier : Chronicle} {start : Nat} {delay : Duration}
    {repeating : Bool}
    (whole : chronicle.calls = later ++ ⟨start, .scheduled handle delay repeating⟩ :: earlier) :
    chronicle.Names handle := by
  have within : ⟨start, .scheduled handle delay repeating⟩ ∈ chronicle.calls := by
    rw [whole]
    exact List.mem_append_right _ List.mem_cons_self
  exact ⟨start, delay, repeating, List.mem_of_mem_filter within⟩

/-- Anything but a firing adds nothing to be accounted for. -/
theorem told_cons {entry : Dated} {time : Nat} (other : entry.what ≠ .fired handle)
    (fired : time ∈ Chronicle.firings handle (entry :: chronicle)) :
    Chronicle.Names (entry :: chronicle) handle := by
  rw [Chronicle.firings_of_ne other] at fired
  exact names_cons (accounted.told handle time fired)

/-- What was not asked for does not fire. -/
theorem silent (fresh : ¬chronicle.Names handle) : chronicle.firings handle = [] := by
  apply List.eq_nil_iff_forall_not_mem.2
  intro time fired
  exact fresh (accounted.told handle time fired)

theorem handle_ne (fresh : ¬chronicle.Names handle) (within : appointment ∈ agenda) :
    appointment.handle ≠ handle := by
  intro same
  exact fresh (same ▸ accounted.named appointment within)

theorem scheduled (delay : Duration) (repeating : Bool) (fresh : ¬chronicle.Names handle) :
    Accounted (⟨now, .scheduled handle delay repeating⟩ :: chronicle) now
      {other | other ∈ agenda ∨ other = .first handle now delay repeating} where
  timely := by
    rintro other (old | rfl)
    · exact accounted.timely other old
    · exact Nat.le_add_right _ _
  unique := by
    rintro left (old | rfl) right (also | rfl) same
    · exact accounted.unique left old right also same
    · exact (accounted.handle_ne fresh old same).elim
    · exact (accounted.handle_ne fresh also same.symm).elim
    · rfl
  named := by
    rintro other (old | rfl)
    · exact names_cons (accounted.named other old)
    · exact ⟨now, delay, repeating, List.mem_cons_self⟩
  told other _ := accounted.told_cons (by simp)
  past := accounted.past_cons _
  ordered := accounted.ordered_cons _
  standing := by
    intro later earlier start other wait again whole
    rw [Chronicle.calls_call rfl] at whole
    obtain ⟨rfl, new⟩ | ⟨since, rfl, old⟩ := List.cons_eq_append_iff.1 whole
    · cases new
      exact .first (accounted.silent fresh) (fun _ => accounted.handle_ne fresh) now delay repeating
    · have different : other ≠ handle := by
        intro same
        exact fresh (same ▸ names_of_calls old)
      apply (accounted.standing _ _ _ _ _ _ old).aside
      · simp
      · simp
      · intro appointment named
        constructor
        · rintro (old | rfl)
          · exact old
          · exact (different named.symm).elim
        · exact .inl

theorem cleared (handle : TimerHandle) :
    Accounted (⟨now, .cleared handle⟩ :: chronicle) now
      {other | other ∈ agenda ∧ other.handle ≠ handle} where
  timely other within := accounted.timely other within.1
  unique left old right also := accounted.unique left old.1 right also.1
  named other within := names_cons (accounted.named other within.1)
  told other _ := accounted.told_cons (by simp)
  past := accounted.past_cons _
  ordered := accounted.ordered_cons _
  standing := by
    intro later earlier start other delay repeating whole
    rw [Chronicle.calls_call rfl] at whole
    obtain ⟨rfl, new⟩ | ⟨since, rfl, old⟩ := List.cons_eq_append_iff.1 whole
    · cases new
    · have standing := accounted.standing _ _ _ _ _ _ old
      by_cases same : other = handle
      · subst same
        apply standing.cleared _ accounted.timely
        intro time fired
        exact accounted.past _ (Chronicle.mem_firings.1 fired)
      · apply standing.aside
        · simp
        · intro moment
          simp [same]
        · intro appointment named
          simp [named, same]

theorem fired (within : appointment ∈ agenda) (due : appointment.due = now) :
    Accounted (⟨now, .fired appointment.handle⟩ :: chronicle) now
      {other | other ∈ agenda ∧ other.handle ≠ appointment.handle ∨
        appointment.next? = some other} where
  timely := by
    rintro other (⟨old, -⟩ | again)
    · exact accounted.timely other old
    · obtain ⟨period, -, rfl⟩ := Appointment.next?_eq_some_iff.1 again
      rw [← due]
      exact Nat.le_add_right _ _
  unique := by
    rintro left (⟨old, apart⟩ | again) right (⟨also, distinct⟩ | further) same
    · exact accounted.unique left old right also same
    · obtain ⟨period, -, rfl⟩ := Appointment.next?_eq_some_iff.1 further
      exact (apart same).elim
    · obtain ⟨period, -, rfl⟩ := Appointment.next?_eq_some_iff.1 again
      exact (distinct same.symm).elim
    · exact Option.some.inj (again.symm.trans further)
  named := by
    rintro other (⟨old, -⟩ | again)
    · exact names_cons (accounted.named other old)
    · obtain ⟨period, -, rfl⟩ := Appointment.next?_eq_some_iff.1 again
      exact names_cons (accounted.named appointment within)
  told := by
    intro other time fired
    by_cases same : other = appointment.handle
    · rw [same]
      exact names_cons (accounted.named appointment within)
    · exact accounted.told_cons (by simpa using Ne.symm same) fired
  past := accounted.past_cons _
  ordered := accounted.ordered_cons _
  standing := by
    intro later earlier start other delay repeating whole
    rw [Chronicle.calls_fired] at whole
    have standing := accounted.standing _ _ _ _ _ _ whole
    by_cases same : other = appointment.handle
    · subst same
      exact standing.fired accounted.unique within due
    · apply standing.aside
      · simpa using Ne.symm same
      · simp
      · intro again named
        constructor
        · rintro (old | next)
          · exact old.1
          · obtain ⟨period, -, rfl⟩ := Appointment.next?_eq_some_iff.1 next
            exact (same named.symm).elim
        · intro old
          exact .inl ⟨old, named ▸ same⟩

end Accounted

theorem Punctual.accounted {chronicle : Chronicle} {now : Nat} {agenda : Set Appointment}
    (punctual : Punctual chronicle now agenda) : Accounted chronicle now agenda := by
  induction punctual with
  | fresh => exact .fresh
  | passes moment _ later ahead ih => exact ih.passes later ahead
  | scheduled delay repeating _ fresh ih => exact ih.scheduled delay repeating fresh
  | cleared handle _ ih => exact ih.cleared handle
  | fired _ within due ih => exact ih.fired within due

/-! ## What the calls determine -/

namespace Accounted

variable {chronicle : Chronicle} {now bound time : Nat} {agenda : Set Appointment}
variable {handle : TimerHandle} (accounted : Accounted chronicle now agenda)
include accounted

omit accounted in
theorem exists_call (names : chronicle.Names handle) :
    ∃ (later earlier : Chronicle) (start : Nat) (delay : Duration) (repeating : Bool),
      chronicle.calls = later ++ ⟨start, .scheduled handle delay repeating⟩ :: earlier := by
  obtain ⟨start, delay, repeating, within⟩ := names
  have call : ⟨start, .scheduled handle delay repeating⟩ ∈ chronicle.calls :=
    List.mem_filter.2 ⟨within, rfl⟩
  obtain ⟨later, earlier, whole⟩ := List.append_of_mem call
  exact ⟨later, earlier, start, delay, repeating, whole⟩

theorem increasing (handle : TimerHandle) : (chronicle.firings handle).Pairwise (· < ·) := by
  by_cases names : chronicle.Names handle
  · obtain ⟨later, earlier, start, delay, repeating, whole⟩ := exists_call names
    exact (accounted.standing _ _ _ _ _ _ whole).increasing
  · rw [accounted.silent names]
    exact .nil

/-- A schedule fires at the times at which, by the calls, it should. -/
theorem falls_of_fired (undue : (chronicle.calls.before bound).Undue) (early : time < bound)
    (fired : time ∈ chronicle.firings handle) :
    (chronicle.calls.before bound).Falls handle time := by
  obtain ⟨later, earlier, start, delay, repeating, whole⟩ :=
    exists_call (accounted.told handle time fired)
  have standing := accounted.standing _ _ _ _ _ _ whole
  have due := standing.due time fired
  have started : start < bound := due.le.trans_lt early
  have split : chronicle.calls.before bound = later.before bound ++
      ⟨start, .scheduled handle delay repeating⟩ :: earlier.before bound := by
    rw [whole]
    exact Chronicle.before_append later earlier started
  refine ⟨_, _, start, delay, repeating, split, due, ?_⟩
  apply Chronicle.lt_of_cleared ((accounted.ordered.filter _).filter _) undue split due
  intro moment within
  exact standing.uncleared time fired moment (List.mem_of_mem_filter within)

/-- As far as time has come, it has fired at these times. -/
theorem fired_of_falls (reached : bound ≤ now) (early : time < bound)
    (falls : (chronicle.calls.before bound).Falls handle time) :
    time ∈ chronicle.firings handle := by
  obtain ⟨later, earlier, start, delay, repeating, split, due, uncleared⟩ := falls
  obtain ⟨late, rest, whole, lateParts, restParts⟩ := List.filter_eq_append_iff.1 split
  obtain ⟨between, old, rfl, unshown, -, -⟩ := List.filter_eq_cons_iff.1 restParts
  rw [← List.append_assoc] at whole
  obtain fired | ⟨moment, least, within⟩ | ⟨appointment, within, -, least⟩ :=
    (accounted.standing _ _ _ _ _ _ whole).covered time due
  · exact fired
  · have shown : moment < bound := least.trans_lt early
    obtain within | within := List.mem_append.1 within
    · have cleared : ⟨moment, .cleared handle⟩ ∈ later := by
        rw [← lateParts]
        exact List.mem_filter.2 ⟨within, by simpa using shown⟩
      have after := uncleared moment cleared
      omega
    · exact (unshown _ within (by simpa using shown)).elim
  · have ahead := accounted.timely appointment within
    omega

end Accounted

/-- Two punctual chronicles with the same calls tell of the same firings, as far as time has come in
both. -/
theorem Punctual.firings_eq {left right : Chronicle} {now also bound : Nat}
    {agenda set : Set Appointment} (first : Punctual left now agenda)
    (second : Punctual right also set) (reached : bound ≤ now) (likewise : bound ≤ also)
    (same : left.calls.before bound = right.calls.before bound)
    (undue : (left.calls.before bound).Undue) (handle : TimerHandle) :
    (left.firings handle).filter (· < bound) = (right.firings handle).filter (· < bound) := by
  have accounts := first.accounted
  have balances := second.accounted
  apply ((accounts.increasing handle).filter _).eq_of_mem_iff
    ((balances.increasing handle).filter _)
  intro time
  simp only [List.mem_filter, decide_eq_true_eq]
  apply and_congr_left
  intro early
  constructor
  · intro fired
    have falls := accounts.falls_of_fired undue early fired
    rw [same] at falls
    exact balances.fired_of_falls likewise early falls
  · intro fired
    have falls := balances.falls_of_fired (same ▸ undue) early fired
    rw [← same] at falls
    exact accounts.fired_of_falls reached early falls

end EffectLoop
