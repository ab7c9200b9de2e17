import EffectLoop.Proofs.Time.Punctuality

/-!
# The cadence of a schedule

On the course of a clock that one advance drives at a time, a schedule that nobody clears fires
whenever it is due, as far as the advances have come, and at no other time.  A schedule that repeats
is due after every period, counted from the moment at which it was registered, however the way is
divided into advances.
-/

namespace EffectLoop

variable {τ : Type}

/-- The times at which a schedule is due that was asked for at `start`, up to a time. -/
def dueTimes (start : Nat) (delay : Duration) (repeating : Bool) (now : Nat) : List Nat :=
  if repeating then
    (List.range ((now - start) / stride delay true)).map fun count =>
      start + (count + 1) * stride delay true
  else if start + stride delay false ≤ now then [start + stride delay false] else []

section

variable {start now time : Nat} {delay : Duration} {repeating : Bool}

theorem stride_true_eq (delay : Duration) :
    stride delay true = max delay.nanos Duration.millisecond := by
  rw [stride, if_pos rfl, repeatPeriod, Duration.longer]
  split
  next short => exact (Nat.max_eq_right short).symm
  next long => exact (Nat.max_eq_left (Nat.le_of_lt (Nat.lt_of_not_le long))).symm

theorem dueTimes_single (start : Nat) (delay : Duration) (now : Nat) :
    dueTimes start delay false now =
      if start + delay.nanos ≤ now then [start + delay.nanos] else [] := rfl

theorem dueTimes_repeating (start : Nat) (delay : Duration) (now : Nat) :
    dueTimes start delay true now =
      (List.range ((now - start) / max delay.nanos Duration.millisecond)).map fun count =>
        start + (count + 1) * max delay.nanos Duration.millisecond := by
  rw [dueTimes, if_pos rfl, stride_true_eq]

theorem mem_dueTimes : time ∈ dueTimes start delay repeating now ↔
    DueAt start delay repeating time ∧ time ≤ now := by
  rw [dueTimes, DueAt]
  cases repeating with
  | true =>
      simp only [↓reduceIte, List.mem_map, List.mem_range, reduceCtorEq, false_implies, true_and]
      constructor
      · rintro ⟨count, early, rfl⟩
        have fits : (count + 1) * stride delay true ≤ now - start :=
          (Nat.le_div_iff_mul_le (stride_pos delay)).1 early
        have positive : 0 < (count + 1) * stride delay true :=
          Nat.mul_pos (Nat.succ_pos count) (stride_pos delay)
        exact ⟨⟨count, rfl⟩, by omega⟩
      · rintro ⟨⟨count, rfl⟩, early⟩
        have fits : (count + 1) * stride delay true ≤ now - start := by omega
        exact ⟨count, (Nat.le_div_iff_mul_le (stride_pos delay)).2 fits, rfl⟩
  | false =>
      simp only [Bool.false_eq_true, ↓reduceIte, forall_const]
      constructor
      · intro within
        split at within
        next early =>
          cases List.mem_singleton.1 within
          exact ⟨⟨0, rfl, by omega⟩, early⟩
        next => cases within
      · rintro ⟨⟨count, rfl, rfl⟩, early⟩
        rw [Nat.zero_add, Nat.one_mul] at early ⊢
        rw [if_pos early]
        exact List.mem_singleton.2 rfl

theorem dueTimes_increasing : (dueTimes start delay repeating now).Pairwise (· < ·) := by
  rw [dueTimes]
  split
  · refine List.pairwise_lt_range.map _ ?_
    intro early late before
    have positive := stride_pos delay
    exact Nat.add_lt_add_left (Nat.mul_lt_mul_of_pos_right (Nat.succ_lt_succ before) positive) _
  · split
    · exact List.pairwise_singleton _ _
    · exact .nil

end

/-- If nothing that is set for a schedule is due by now, and it was not cancelled, it has fired
whenever it was due. -/
theorem Accounted.firings_eq {chronicle later earlier : Chronicle} {now start : Nat}
    {agenda : Set Appointment} {handle : TimerHandle} {delay : Duration} {repeating : Bool}
    (accounted : Accounted chronicle now agenda)
    (whole : chronicle.calls = later ++ ⟨start, .scheduled handle delay repeating⟩ :: earlier)
    (kept : ∀ moment, ⟨moment, .cleared handle⟩ ∉ later)
    (ahead : ∀ appointment ∈ agenda, appointment.handle = handle → now < appointment.due) :
    chronicle.firings handle = dueTimes start delay repeating now := by
  have standing := accounted.standing _ _ _ _ _ _ whole
  apply standing.increasing.eq_of_mem_iff dueTimes_increasing
  intro time
  rw [mem_dueTimes]
  constructor
  · intro fired
    exact ⟨standing.due time fired, accounted.past _ (Chronicle.mem_firings.1 fired)⟩
  · rintro ⟨due, early⟩
    rcases standing.covered time due with fired | ⟨moment, -, cleared⟩ | ⟨appointment, set, same, least⟩
    · exact fired
    · exact absurd cleared (kept moment)
    · have later := ahead appointment set same
      omega

namespace VirtualClock

variable {history later earlier : List (Entry τ)} {clock registered : VirtualClock τ}
  {advance : Option Advance} {handle : TimerHandle} {delay : Duration} {repeating : Bool} {task : τ}

/-- The work that is run for a schedule, with the time that the clock shows. -/
def Entry.runs? (handle : TimerHandle) : Entry τ → Option (Nat × τ)
  | ⟨.moved (.fired _ timer), clock⟩ =>
      if timer.handle = handle then some (clock.now.nanos, timer.task) else none
  | _ => none

/-- All the work that was run for a schedule, the earliest first. -/
def runsOf (handle : TimerHandle) (history : List (Entry τ)) : List (Nat × τ) :=
  (history.filterMap (Entry.runs? handle)).reverse

theorem mem_runsOf {run : Nat × τ} : run ∈ runsOf handle history ↔ ∃ target timer clock,
    ⟨.moved (.fired target timer), clock⟩ ∈ history ∧ timer.handle = handle ∧
      run = (clock.now.nanos, timer.task) := by
  rw [runsOf, List.mem_reverse, List.mem_filterMap]
  constructor
  · rintro ⟨⟨what, clock⟩, within, runs⟩
    rcases what with move | _ | _
    · cases move with
      | fired target timer =>
          rw [Entry.runs?, Option.ite_none_right_eq_some] at runs
          cases runs.2
          exact ⟨target, timer, clock, within, runs.1, rfl⟩
      | scheduled | cleared | spawned | drained | strained | arrived => cases runs
    · cases runs
    · cases runs
  · rintro ⟨target, timer, clock, within, same, rfl⟩
    exact ⟨_, within, if_pos same⟩

theorem runsOf_cons_none {entry : Entry τ} (quiet : entry.runs? handle = none) :
    runsOf handle (entry :: history) = runsOf handle history := by
  rw [runsOf, List.filterMap_cons_none quiet, runsOf]

theorem runsOf_cons_some {entry : Entry τ} {run : Nat × τ} (runs : entry.runs? handle = some run) :
    runsOf handle (entry :: history) = runsOf handle history ++ [run] := by
  rw [runsOf, List.filterMap_cons_some runs, List.reverse_cons, runsOf]

theorem firings_cons_of_ne {entry : Entry τ}
    (other : ∀ dated, entry.incident? = some dated → dated.what ≠ .fired handle) :
    (chronicle (entry :: history)).firings handle = (chronicle history).firings handle := by
  cases tells : entry.incident? with
  | none => rw [chronicle_cons_none tells]
  | some dated => rw [chronicle_cons_some tells, Chronicle.firings_of_ne (other dated tells)]

/-- The times at which work is run are those at which the schedule fires. -/
theorem map_runsOf (handle : TimerHandle) (history : List (Entry τ)) :
    (runsOf handle history).map Prod.fst = (chronicle history).firings handle := by
  induction history with
  | nil => rfl
  | cons entry history ih =>
      have silent (quiet : entry.runs? handle = none)
          (other : ∀ dated, entry.incident? = some dated → dated.what ≠ .fired handle) :
          (runsOf handle (entry :: history)).map Prod.fst =
            (chronicle (entry :: history)).firings handle := by
        rw [runsOf_cons_none quiet, firings_cons_of_ne other, ih]
      obtain ⟨what, clock⟩ := entry
      cases what with
      | moved move =>
          cases move with
          | scheduled delay repeating task =>
              refine silent rfl fun dated tells => ?_
              obtain ⟨_, -, rfl⟩ := Option.map_eq_some_iff.1 tells
              exact nofun
          | cleared cancelled =>
              refine silent rfl fun dated tells => ?_
              cases tells
              exact nofun
          | fired target timer =>
              have tells : (Entry.mk (.moved (.fired target timer)) clock).incident? =
                  some ⟨clock.now.nanos, .fired timer.handle⟩ := rfl
              by_cases same : timer.handle = handle
              · have runs : (Entry.mk (.moved (.fired target timer)) clock).runs? handle =
                    some (clock.now.nanos, timer.task) := if_pos same
                rw [runsOf_cons_some runs, chronicle_cons_some tells, same,
                  Chronicle.firings_fired, List.map_append, ih]
                rfl
              · refine silent (if_neg same) fun dated told => ?_
                rw [tells] at told
                cases told
                exact fun fires => same (Incident.fired.inj fires)
          | spawned task => exact silent rfl nofun
          | drained => exact silent rfl nofun
          | strained target timer => exact silent rfl nofun
          | arrived target => exact silent rfl nofun
      | begun span => exact silent rfl nofun
      | completed count => exact silent rfl nofun

/-! ## What an advance leaves behind -/

/-- When an advance has arrived, and no other has begun since, nothing is due that was registered
before. -/
theorem Course.ahead (course : Course (later ++ earlier) clock advance)
    (few : issuedIn (later ++ earlier) < 2 ^ 64) (resting : advance = none)
    (arrived : ∃ entry ∈ later, entry.Arrives) :
    ∀ timer ∈ clock.timers, timer.handle.id.toNat ≤ issuedIn earlier → clock.now < timer.due := by
  induction later generalizing clock advance with
  | nil =>
      obtain ⟨_, within, -⟩ := arrived
      cases within
  | cons entry later ih =>
      have fewer : issuedIn (later ++ earlier) < 2 ^ 64 := by
        rw [List.cons_append, issuedIn_cons] at few
        omega
      cases course with
      | @aside _ before _ move _ course step aside =>
          have course : Course (later ++ earlier) before advance := course
          have arrivedBefore : ∃ entry ∈ later, entry.Arrives := by
            obtain ⟨entry, within, arrives⟩ := arrived
            cases List.mem_cons.1 within with
            | inl same =>
                rw [same] at arrives
                cases move with
                | scheduled | cleared | spawned => exact arrives.elim
                | drained | fired | strained | arrived => cases aside
            | inr old => exact ⟨entry, old, arrives⟩
          have still : clock.now = before.now := by
            rw [step.now_eq]
            cases move with
            | scheduled | cleared | spawned => rfl
            | drained | fired | strained | arrived => cases aside
          intro other within old
          rw [still]
          cases step.origin within with
          | kept registered _ => exact ih course fewer resting arrivedBefore other registered old
          | made _ _ =>
              -- Its handle is newer than all that were used up before.
              have standing := (course.standing fewer).1
              have issued := standing.issued_moved step few
              rw [step.issued_eq, standing.counted] at issued
              dsimp only [Move.issues, Entry.issues] at issued old
              have more : issuedIn earlier ≤ issuedIn (later ++ earlier) := by
                simp [issuedIn]
              omega
          | deferred _ _ _ _ => cases aside
      | begun => cases resting
      | completed => cases resting
      | drained => cases resting
      | fired => cases resting
      | arrived _ step =>
          intro other within _
          obtain ⟨-, same, ahead⟩ := step.of_arrived
          rw [step.now_eq]
          exact ahead other (same ▸ within)

/-! ## The work of a schedule -/

/-- All work that is registered under the handle, and all that was run for it, is of this kind. -/
structure Devoted (handle : TimerHandle) (kind : τ → Prop) (history : List (Entry τ))
    (clock : VirtualClock τ) : Prop where
  waits : ∀ timer ∈ clock.timers, timer.handle = handle → kind timer.task
  ran : ∀ run ∈ runsOf handle history, kind run.2

namespace Devoted

/-- What is new is registered under a new handle. -/
theorem moved {before : VirtualClock τ} {move : Move τ} {kind : τ → Prop}
    (devoted : Devoted handle kind history before) (step : Moves before move clock)
    (fresh : (∃ delay repeating work, move = .scheduled delay repeating work) →
      ⟨before.issued + 1⟩ ≠ handle) :
    Devoted handle kind (⟨.moved move, clock⟩ :: history) clock where
  waits := by
    intro other within same
    cases step.origin within with
    | kept old _ => exact devoted.waits other old same
    | made _ _ => exact absurd same (fresh ⟨_, _, _, rfl⟩)
    | @deferred _ _ _ _ before old _ _ _ => exact devoted.waits before old same
  ran := by
    have quiet (silent : (⟨.moved move, clock⟩ : Entry τ).runs? handle = none) :
        ∀ run ∈ runsOf handle (⟨.moved move, clock⟩ :: history), kind run.2 := by
      rw [runsOf_cons_none silent]
      exact devoted.ran
    cases move with
    | fired target timer =>
        by_cases same : timer.handle = handle
        · have registered := (mem_of_due? step.of_fired.2).1
          have runs : (⟨.moved (.fired target timer), clock⟩ : Entry τ).runs? handle =
              some (clock.now.nanos, timer.task) := if_pos same
          rw [runsOf_cons_some runs]
          intro run within
          cases List.mem_append.1 within with
          | inl old => exact devoted.ran run old
          | inr new =>
              rw [List.mem_singleton.1 new]
              exact devoted.waits timer registered same
        · exact quiet (if_neg same)
    | scheduled | cleared | spawned | drained | strained | arrived => exact quiet rfl

theorem same {entry : Entry τ} {kind : τ → Prop} (devoted : Devoted handle kind history clock)
    (silent : entry.runs? handle = none) : Devoted handle kind (entry :: history) clock where
  waits := devoted.waits
  ran := by
    rw [runsOf_cons_none silent]
    exact devoted.ran

end Devoted

theorem issuedIn_append (later earlier : List (Entry τ)) :
    issuedIn (later ++ earlier) = issuedIn later + issuedIn earlier := by
  simp [issuedIn]

/-- The last handle that a clock had used up at an entry is the number of those used up by then. -/
theorem Course.issued_of_append {what : Occurrence τ}
    (course : Course (later ++ ⟨what, registered⟩ :: earlier) clock advance)
    (few : issuedIn (later ++ ⟨what, registered⟩ :: earlier) < 2 ^ 64) :
    registered.issued.toNat = issuedIn (⟨what, registered⟩ :: earlier) := by
  rw [issuedIn_append] at few
  have fewer : issuedIn (⟨what, registered⟩ :: earlier) < 2 ^ 64 := by omega
  obtain ⟨shown, _, part⟩ := course.of_append
  have counted := (part.standing fewer).1.counted
  cases part <;> exact counted

/-- A schedule is registered only if the time at which it would be due is a duration. -/
theorem timers_schedule_of_none
    (none_due : clock.now.add? (if repeating then repeatPeriod delay else delay) = none) :
    (clock.schedule delay repeating task).2.timers = clock.timers := by
  cases repeating <;> simp_all [schedule]

/-- What is registered under a new handle is the only work that is run for it, and it is not run at
all if it is never due. -/
theorem Course.devoted
    (course : Course (later ++ ⟨.moved (.scheduled delay repeating task), registered⟩ :: earlier)
      clock advance)
    (few : issuedIn (later ++ ⟨.moved (.scheduled delay repeating task), registered⟩ :: earlier) <
      2 ^ 64) :
    Devoted ⟨registered.issued⟩
      (fun work => work = task ∧
        registered.now.add? (if repeating then repeatPeriod delay else delay) ≠ none)
      (later ++ ⟨.moved (.scheduled delay repeating task), registered⟩ :: earlier) clock := by
  induction later generalizing clock advance with
  | nil =>
      cases course with
      | @aside _ before _ _ _ course step aside =>
          have fewer : issuedIn earlier < 2 ^ 64 := by
            rw [List.nil_append, issuedIn_cons] at few
            omega
          have standing := (course.standing fewer).1
          have issued := standing.issued_moved step few
          dsimp only [Entry.issues] at issued
          have apart {number : UInt64} (old : number.toNat ≤ before.issued.toNat) :
              (⟨number⟩ : TimerHandle) ≠ ⟨registered.issued⟩ := by
            rintro ⟨⟩
            omega
          constructor
          · intro other within same
            have new : other ∉ before.timers := fun old =>
              absurd same (apart (standing.issued other old))
            cases step.origin within with
            | kept old _ => exact absurd old new
            | made _ _ =>
                refine ⟨rfl, fun none_due => new ?_⟩
                rw [step.now_eq] at none_due
                cases step with
                | scheduled => exact timers_schedule_of_none none_due ▸ within
          · rw [List.nil_append, runsOf_cons_none rfl]
            intro run within
            obtain ⟨target, timer, shown, listed, same, -⟩ := mem_runsOf.1 within
            have fired : timer ∈ firings earlier := List.mem_filterMap.2 ⟨_, listed, rfl⟩
            exact absurd same (apart (standing.past timer fired).2)
  | cons entry later ih =>
      have fewer : issuedIn (later ++ ⟨.moved (.scheduled delay repeating task), registered⟩ ::
          earlier) < 2 ^ 64 := by
        rw [List.cons_append, issuedIn_cons] at few
        omega
      have fresh {before : VirtualClock τ} {way : Option Advance} {wait : Duration} {again : Bool}
          {work : τ} (course : Course
            (later ++ ⟨.moved (.scheduled delay repeating task), registered⟩ :: earlier) before way)
          (step : Moves before (.scheduled wait again work) clock)
          (within : issuedIn (⟨.moved (.scheduled wait again work), clock⟩ ::
            (later ++ ⟨.moved (.scheduled delay repeating task), registered⟩ :: earlier)) < 2 ^ 64) :
          (⟨before.issued + 1⟩ : TimerHandle) ≠ ⟨registered.issued⟩ := by
        have standing := (course.standing fewer).1
        have issued := standing.issued_moved step within
        have known := course.issued_of_append fewer
        rw [step.issued_eq, standing.counted, issuedIn_append] at issued
        dsimp only [Move.issues, Entry.issues] at issued
        rintro same
        rw [TimerHandle.mk.injEq] at same
        rw [same] at issued
        omega
      cases course with
      | aside course step aside =>
          refine (ih course fewer).moved step ?_
          rintro ⟨_, _, _, rfl⟩
          exact fresh course step few
      | begun course _ => exact (ih course fewer).same rfl
      | completed course => exact (ih course fewer).same rfl
      | drained course step => exact (ih course fewer).moved step nofun
      | fired course step => exact (ih course fewer).moved step nofun
      | arrived course step => exact (ih course fewer).moved step nofun

/-! ## When the work of a schedule is run -/

theorem chronicle_append (later earlier : List (Entry τ)) :
    chronicle (later ++ earlier) = chronicle later ++ chronicle earlier :=
  List.filterMap_append

/-- What tells of a cancellation is one. -/
theorem mem_of_cleared {moment : Nat} (told : ⟨moment, .cleared handle⟩ ∈ chronicle history) :
    ∃ clock, ⟨.moved (.cleared handle), clock⟩ ∈ history := by
  obtain ⟨⟨what, clock⟩, within, tells⟩ := List.mem_filterMap.1 told
  cases what with
  | moved move =>
      cases move with
      | cleared cancelled =>
          cases tells
          exact ⟨clock, within⟩
      | scheduled delay repeating task =>
          obtain ⟨_, -, other⟩ := Option.map_eq_some_iff.1 tells
          cases other
      | fired | spawned | drained | strained | arrived => cases tells
  | begun | completed => cases tells

/-- When advances have ended since, the work of a schedule that nobody clears was run whenever the
schedule was due, and at no other time. -/
theorem Course.runsOf_eq
    (course : Course (later ++ ⟨.moved (.scheduled delay repeating task), registered⟩ :: earlier)
      clock none)
    (few : issuedIn (later ++ ⟨.moved (.scheduled delay repeating task), registered⟩ :: earlier) <
      2 ^ 64)
    (arrived : ∃ entry ∈ later, entry.Arrives)
    (kept : ∀ shown, ⟨.moved (.cleared ⟨registered.issued⟩), shown⟩ ∉ later) :
    runsOf ⟨registered.issued⟩
        (later ++ ⟨.moved (.scheduled delay repeating task), registered⟩ :: earlier) =
      (dueTimes registered.now.nanos delay repeating clock.now.nanos).map (·, task) := by
  have devoted := course.devoted few
  cases sum : registered.now.add? (if repeating then repeatPeriod delay else delay) with
  | none =>
      have idle : runsOf ⟨registered.issued⟩
          (later ++ ⟨.moved (.scheduled delay repeating task), registered⟩ :: earlier) = [] :=
        List.eq_nil_iff_forall_not_mem.2 fun run within => (devoted.ran run within).2 sum
      have never : dueTimes registered.now.nanos delay repeating clock.now.nanos = [] := by
        rw [List.eq_nil_iff_forall_not_mem]
        intro time within
        obtain ⟨due, early⟩ := mem_dueTimes.1 within
        have fits : registered.now.nanos + stride delay repeating < Duration.limit :=
          (due.first_le.trans early).trans_lt clock.now.representable
        have sums : registered.now.add? (if repeating then repeatPeriod delay else delay) =
            some ⟨_, fits⟩ := Duration.add?_eq_some_iff.2 rfl
        rw [sum] at sums
        cases sums
      rw [idle, never, List.map_nil]
  | some due =>
      have told : (⟨.moved (.scheduled delay repeating task), registered⟩ : Entry τ).incident? =
          some ⟨registered.now.nanos, .scheduled ⟨registered.issued⟩ delay repeating⟩ := by
        rw [Entry.incident?, sum, Option.map_some]
      have whole : (chronicle (later ++
          ⟨.moved (.scheduled delay repeating task), registered⟩ :: earlier)).calls =
            (chronicle later).calls ++
              ⟨registered.now.nanos, .scheduled ⟨registered.issued⟩ delay repeating⟩ ::
                (chronicle earlier).calls := by
        rw [chronicle_append, chronicle_cons_some told, Chronicle.calls, List.filter_append]
        rfl
      have uncleared (moment : Nat) :
          ⟨moment, .cleared ⟨registered.issued⟩⟩ ∉ (chronicle later).calls := by
        intro within
        obtain ⟨shown, cleared⟩ := mem_of_cleared (List.mem_filter.1 within).1
        exact kept shown cleared
      have number := course.issued_of_append few
      have ahead (appointment : Appointment) (set : appointment ∈ clock.agenda)
          (same : appointment.handle = ⟨registered.issued⟩) :
          clock.now.nanos < appointment.due := by
        obtain ⟨timer, within, rfl⟩ := set
        apply course.ahead few rfl arrived timer within
        rw [← number]
        exact Nat.le_of_eq (congrArg (fun handle => handle.id.toNat) same)
      have fires := (course.tells few).punctual.accounted.firings_eq whole uncleared ahead
      rw [← fires, ← map_runsOf, List.map_map]
      refine (List.map_id _).symm.trans (List.map_congr_left ?_)
      intro run within
      rw [Function.comp_apply, ← (devoted.ran run within).1]
      rfl

end VirtualClock

end EffectLoop
