import EffectLoop.Proofs.World.Beats

/-!
# Journeys

A *journey* is what happens in a world while its clock is driven by at most one advance at a time: the
polls of the advance, beat by beat, and in between anything that advances no clock.  A history of the
clock *explains* the beats of a journey if it says what each of them has done to the clock.

Every journey is explained by some history, and every history that explains it is disciplined: schedules
fire in the order of their due times and handles, each at its due time, and after all work that was handed
over before.  And when an advance ends, the clock shows the time at which it began plus its span, and
nothing is left that is due (`Host.Journey.keeps_discipline`).
-/

namespace EffectLoop

variable {S ι : Type} {Action : ι → Type} {A : Type} {alphabet : ι} {answer : Answer ι}

open VirtualClock (Asides Entry Leg Moves)

/-- The beats of a world, the latest first, each of them in the world that the last one has left; and the
advance that is then under way. -/
inductive Host.Beats (host : Host S Action alphabet) (start : World S Action (Action alphabet))
    (first : Option (Advancing S Action (Action alphabet))) :
    List (Beat S Action (Action alphabet)) → World S Action (Action alphabet) →
      Option (Advancing S Action (Action alphabet)) → Prop where
  | stays : Beats host start first [] start first
  | aside {beats before way after} : Beats host start first beats before way →
      host.Happens .still before after → Beats host start first (.aside before after :: beats) after way
  | begun {beats world clock span target} : Beats host start first beats world none →
      world.keeper = .virtual clock → clock.now.add? span = some target →
      Beats host start first (.begun span world :: beats) world (some (.outset target))
  | polled {beats before going left after} (waiter : Waiter) (depth : Nat) :
      Beats host start first beats before (some going) → host.Works waiter depth going before left after →
      Beats host start first (.polled going left before after :: beats) after (some left)
  | took {beats before ended clock leg moved} : Beats host start first beats before (some ended) →
      ended.Idle → before.keeper = .virtual clock → clock.Takes ended.target leg moved →
      Beats host start first
        (.took ended leg before { before with keeper := .virtual moved } :: beats)
        { before with keeper := .virtual moved } (some (.taking ended.target leg.tasks))
  | arrived {beats before ended clock} : Beats host start first beats before (some ended) →
      ended.Idle → before.keeper = .virtual clock → clock.AtRest ended.target →
      Beats host start first
        (.arrived ended before { before with keeper := .virtual (clock.arrive ended.target) } :: beats)
        { before with keeper := .virtual (clock.arrive ended.target) } none

/-- What happens in a world while at most one advance at a time is under way, beat by beat: all the beats
of a poll of the advance follow each other. -/
inductive Host.Journey (host : Host S Action alphabet) (start : World S Action (Action alphabet))
    (first : Option (Advancing S Action (Action alphabet))) :
    List (Beat S Action (Action alphabet)) → World S Action (Action alphabet) →
      Option (Advancing S Action (Action alphabet)) → Prop where
  | stays : Journey host start first [] start first
  | aside {beats before way after} : Journey host start first beats before way →
      host.Happens .still before after → Journey host start first (.aside before after :: beats) after way
  | begun {beats world clock span target} : Journey host start first beats world none →
      world.keeper = .virtual clock → clock.now.add? span = some target →
      Journey host start first (.begun span world :: beats) world (some (.outset target))
  | polled {beats before going more outcome inner after} (waiter : Waiter) (depth : Nat) :
      Journey host start first beats before (some going) →
      host.Drive waiter depth going before more outcome inner after →
      Journey host start first (more ++ beats) after outcome

/-- What a history of the clock says of a beat. -/
inductive Beat.ShowsAs :
    Beat S Action A → List (Entry (Pending S Action A .finished)) → Prop where
  | aside {before after clock moved entries} : before.keeper = .virtual clock →
      after.keeper = .virtual moved → Asides clock entries moved → ShowsAs (.aside before after) entries
  | begun {span world clock} : world.keeper = .virtual clock →
      ShowsAs (.begun span world) [⟨.begun span, clock⟩]
  | polled {going left before after clock moved entries} : before.keeper = .virtual clock →
      after.keeper = .virtual moved → Asides clock entries moved →
      ShowsAs (.polled going left before after) entries
  | took {ended leg before after clock moved} : before.keeper = .virtual clock →
      after.keeper = .virtual moved →
      ShowsAs (.took ended leg before after)
        [⟨.moved (leg.move ended.target), moved⟩, ⟨.completed ended.count, clock⟩]
  | arrived {ended before after clock moved} : before.keeper = .virtual clock →
      after.keeper = .virtual moved →
      ShowsAs (.arrived ended before after)
        [⟨.moved (.arrived ended.target), moved⟩, ⟨.completed ended.count, clock⟩]

/-- The history says what the beats have done to the clock. -/
inductive Explains : List (Entry (Pending S Action A .finished)) → List (Beat S Action A) → Prop where
  | nil : Explains [] []
  | cons {beat beats entries history} : beat.ShowsAs entries → Explains history beats →
      Explains (entries ++ history) (beat :: beats)

/-- An advance ends here. -/
def Beat.Arrives : Beat S Action A → Prop
  | arrived _ _ _ => True
  | aside _ _ | begun _ _ | polled _ _ _ _ | took _ _ _ _ => False

/-- When an advance ends, the clock shows the time at which it began plus its span, no schedule is left
that is due, and no work is queued. -/
def Lands (beats : List (Beat S Action A)) : Prop :=
  ∀ ended before after earlier, .arrived ended before after :: earlier <:+ beats →
    ∃ between span outset older departs arrives,
      earlier = between ++ .begun span outset :: older ∧ (∀ beat ∈ between, ¬beat.Arrives) ∧
      outset.keeper = .virtual departs ∧ after.keeper = .virtual arrives ∧
      departs.now.add? span = some arrives.now ∧
      (∀ timer ∈ arrives.timers, arrives.now < timer.due) ∧ arrives.queued = 0

/-! ## Explanations -/

namespace Explains

variable {recent older : List (Entry (Pending S Action A .finished))}
variable {late early : List (Beat S Action A)}

theorem append (explains : Explains recent late) (before : Explains older early) :
    Explains (recent ++ older) (late ++ early) := by
  induction explains with
  | nil => exact before
  | cons shows _ ih =>
      rw [List.append_assoc]
      exact .cons shows ih

theorem of_append {history : List (Entry (Pending S Action A .finished))}
    (explains : Explains history (late ++ early)) :
    ∃ recent older, history = recent ++ older ∧ Explains recent late ∧ Explains older early := by
  induction late generalizing history with
  | nil => exact ⟨[], history, rfl, .nil, explains⟩
  | cons beat late ih =>
      cases explains with
      | @cons _ _ entries _ shows rest =>
          obtain ⟨recent, older, rfl, explainsLate, explainsEarly⟩ := ih rest
          exact ⟨entries ++ recent, older, (List.append_assoc _ _ _).symm, .cons shows explainsLate,
            explainsEarly⟩

end Explains

/-! ## Journeys are made of beats -/

section Beats

variable {host : Host S Action alphabet} {start world : World S Action (Action alphabet)}
variable {first way : Option (Advancing S Action (Action alphabet))}
variable {beats more earlier : List (Beat S Action (Action alphabet))}

theorem Host.Drive.toBeats {waiter : Waiter} {depth inner : Nat}
    {going : Advancing S Action (Action alphabet)} {before : World S Action (Action alphabet)}
    (drive : host.Drive waiter depth going before more way inner world)
    (known : host.Beats start first beats before (some going)) :
    host.Beats start first (more ++ beats) world way := by
  induction drive generalizing beats with
  | waits works _ => exact known.polled waiter _ works
  | arrives works idle keeper atRest => exact (known.polled waiter _ works).arrived idle keeper atRest
  | goes works idle keeper takes _ ih =>
      rw [List.append_assoc]
      exact ih ((known.polled waiter _ works).took idle keeper takes)

theorem Host.Journey.toBeats (journey : host.Journey start first beats world way) :
    host.Beats start first beats world way := by
  induction journey with
  | stays => exact .stays
  | aside _ happens ih => exact ih.aside happens
  | begun _ keeper sum ih => exact ih.begun keeper sum
  | polled waiter depth _ drive ih => exact drive.toBeats ih

/-- What has led to earlier beats are beats as well. -/
theorem Host.Beats.of_suffix (known : host.Beats start first beats world way)
    (suffix : earlier <:+ beats) : ∃ world way, host.Beats start first earlier world way := by
  induction known with
  | stays =>
      rw [List.suffix_nil.1 suffix]
      exact ⟨_, _, .stays⟩
  | aside known happens ih =>
      rcases List.suffix_cons_iff.1 suffix with rfl | earlier
      · exact ⟨_, _, known.aside happens⟩
      · exact ih earlier
  | begun known keeper sum ih =>
      rcases List.suffix_cons_iff.1 suffix with rfl | earlier
      · exact ⟨_, _, known.begun keeper sum⟩
      · exact ih earlier
  | polled waiter depth known works ih =>
      rcases List.suffix_cons_iff.1 suffix with rfl | earlier
      · exact ⟨_, _, known.polled waiter depth works⟩
      · exact ih earlier
  | took known idle keeper takes ih =>
      rcases List.suffix_cons_iff.1 suffix with rfl | earlier
      · exact ⟨_, _, known.took idle keeper takes⟩
      · exact ih earlier
  | arrived known idle keeper atRest ih =>
      rcases List.suffix_cons_iff.1 suffix with rfl | earlier
      · exact ⟨_, _, known.arrived idle keeper atRest⟩
      · exact ih earlier

/-- An advance has begun that is to end at the target, and none has ended since. -/
def Heads (beats : List (Beat S Action A)) (target : Duration) : Prop :=
  ∃ between span outset older departs, beats = between ++ .begun span outset :: older ∧
    (∀ beat ∈ between, ¬beat.Arrives) ∧ outset.keeper = .virtual departs ∧
    departs.now.add? span = some target

theorem Heads.cons {beats : List (Beat S Action A)} {target : Duration} {beat : Beat S Action A}
    (heads : Heads beats target) (goesOn : ¬beat.Arrives) : Heads (beat :: beats) target := by
  obtain ⟨between, span, outset, older, departs, rfl, none, keeper, sum⟩ := heads
  exact ⟨beat :: between, span, outset, older, departs, rfl, List.forall_mem_cons.2 ⟨goesOn, none⟩,
    keeper, sum⟩

theorem Host.Beats.heads {going : Advancing S Action (Action alphabet)}
    (known : host.Beats start none beats world (some going)) : Heads beats going.target := by
  generalize same : some going = way at known
  induction known generalizing going with
  | stays => cases same
  | aside _ _ ih => exact (ih same).cons id
  | @begun older outset departs span _ _ keeper sum =>
      cases same
      exact ⟨[], span, outset, older, departs, rfl, List.forall_mem_nil _, keeper, sum⟩
  | polled _ _ _ works ih =>
      cases same
      rw [works.target_eq]
      exact (ih rfl).cons id
  | took _ _ _ _ ih =>
      cases same
      exact (ih rfl).cons id
  | arrived => cases same

theorem Host.Beats.lands (known : host.Beats start none beats world way) : Lands beats := by
  intro ended before after earlier suffix
  obtain ⟨_, _, known⟩ := known.of_suffix suffix
  cases known with
  | arrived known _ _ atRest =>
      obtain ⟨between, span, outset, older, departs, same, none, keeper, sum⟩ := known.heads
      exact ⟨between, span, outset, older, departs, _, same, none, keeper, rfl, sum,
        VirtualClock.due?_eq_none_iff.1 atRest.2, congrArg List.length atRest.1⟩

end Beats

/-! ## What is taken is polled at once -/

section Took

variable {host : Host S Action alphabet} {start world after : World S Action (Action alphabet)}
variable {first way : Option (Advancing S Action (Action alphabet))}
variable {beats more earlier : List (Beat S Action (Action alphabet))}
variable {going ended : Advancing S Action (Action alphabet)}
variable {before ready : World S Action (Action alphabet)} {depth inner : Nat} {waiter : Waiter}
variable {leg : Leg (Pending S Action (Action alphabet) .finished)}

/-- The work of a leg is polled, in the world in which the leg was taken. -/
def Host.Opens (host : Host S Action alphabet) (ended : Advancing S Action (Action alphabet))
    (leg : Leg (Pending S Action (Action alphabet) .finished))
    (ready : World S Action (Action alphabet)) (earlier beats : List (Beat S Action (Action alphabet))) :
    Prop :=
  ∃ left after waiter depth,
    .polled (.taking ended.target leg.tasks) left ready after :: earlier <:+ beats ∧
      host.Works waiter depth (.taking ended.target leg.tasks) ready left after

theorem Host.Opens.of_suffix (opens : host.Opens ended leg ready earlier beats)
    (suffix : beats <:+ more) : host.Opens ended leg ready earlier more := by
  obtain ⟨left, after, waiter, depth, inside, works⟩ := opens
  exact ⟨left, after, waiter, depth, inside.trans suffix, works⟩

/-- The first beat of a poll is one of the work. -/
theorem Host.Drive.starts_polled (drive : host.Drive waiter depth going before more way inner world) :
    ∃ rest left after, more = rest ++ [.polled going left before after] ∧
      host.Works waiter depth going before left after := by
  cases drive with
  | waits works _ => exact ⟨[], _, _, rfl, works⟩
  | arrives works _ _ _ => exact ⟨[_], _, _, rfl, works⟩
  | goes works _ _ _ _ => exact ⟨_ ++ [_], _, _, (List.append_assoc _ [_] [_]).symm, works⟩

theorem Host.Drive.opens (drive : host.Drive waiter depth going world more way inner after)
    (suffix : .took ended leg before ready :: earlier <:+ more ++ beats) :
    .took ended leg before ready :: earlier <:+ beats ∨
      host.Opens ended leg ready (.took ended leg before ready :: earlier) (more ++ beats) := by
  induction drive generalizing beats with
  | waits => exact .inl ((List.suffix_cons_iff.1 suffix).resolve_left nofun)
  | arrives =>
      have later := (List.suffix_cons_iff.1 suffix).resolve_left nofun
      exact .inl ((List.suffix_cons_iff.1 later).resolve_left nofun)
  | goes works idle keeper takes drive ih =>
      rw [List.append_assoc] at suffix ⊢
      rcases ih suffix with inside | opens
      · rcases List.suffix_cons_iff.1 inside with same | later
        · cases same
          obtain ⟨rest, left, after, rfl, works⟩ := drive.starts_polled
          refine .inr ⟨left, after, _, _, ?_, works⟩
          rw [List.append_assoc]
          exact List.suffix_append _ _
        · exact .inl ((List.suffix_cons_iff.1 later).resolve_left nofun)
      · exact .inr opens

/-- On a journey the work of each leg is polled at once. -/
theorem Host.Journey.opens (journey : host.Journey start first beats world way)
    (suffix : .took ended leg before ready :: earlier <:+ beats) :
    host.Opens ended leg ready (.took ended leg before ready :: earlier) beats := by
  induction journey with
  | stays => cases List.suffix_nil.1 suffix
  | aside _ _ ih =>
      have inside := (List.suffix_cons_iff.1 suffix).resolve_left nofun
      exact (ih inside).of_suffix (List.suffix_cons _ _)
  | begun _ _ _ ih =>
      have inside := (List.suffix_cons_iff.1 suffix).resolve_left nofun
      exact (ih inside).of_suffix (List.suffix_cons _ _)
  | polled _ _ _ drive ih =>
      rcases drive.opens suffix with inside | opens
      · exact (ih inside).of_suffix (List.suffix_append _ _)
      · exact opens

end Took

/-! ## What explains a journey -/

/-- A poll that ends the advance is explained by an arrival. -/
theorem Host.Drive.exists_arrives {host : Host S Action alphabet} {waiter : Waiter} {depth inner : Nat}
    {going : Advancing S Action (Action alphabet)} {before after : World S Action (Action alphabet)}
    {more : List (Beat S Action (Action alphabet))}
    {history : List (Entry (Pending S Action (Action alphabet) .finished))}
    (drive : host.Drive waiter depth going before more none inner after)
    (explains : Explains history more) : ∃ entry ∈ history, entry.Arrives := by
  generalize same : none = outcome at drive
  induction drive generalizing history with
  | waits => cases same
  | arrives =>
      cases explains with
      | cons shows _ =>
      cases shows with
      | arrived _ _ => exact ⟨_, List.mem_cons_self, trivial⟩
  | goes _ _ _ _ _ ih =>
      obtain ⟨recent, older, rfl, explainsLate, -⟩ := explains.of_append
      obtain ⟨entry, within, arrives⟩ := ih explainsLate same
      exact ⟨entry, List.mem_append_left _ within, arrives⟩

section Timeline

variable {host : Host S Action alphabet} (within : host.Within .still)
variable {start world : World S Action (Action alphabet)}
variable {first way : Option (Advancing S Action (Action alphabet))}
variable {beats : List (Beat S Action (Action alphabet))}
variable {base history : List (Entry (Pending S Action (Action alphabet) .finished))}
variable (before : host.Timeline base start first)
include within before

/-- What explains the beats continues the timeline. -/
theorem Host.Beats.timeline (known : host.Beats start first beats world way)
    (explains : Explains history beats) : host.Timeline (history ++ base) world way := by
  induction known generalizing history with
  | stays =>
      cases explains
      exact before
  | aside _ happens ih =>
      cases explains with
      | cons shows rest =>
      cases shows with
      | aside keeper keeperAfter asides =>
      have earlier := ih rest
      obtain ⟨known, holds, -, -⟩ := earlier.follows within
      rw [keeper] at known
      cases known
      obtain ⟨_, moved, keeperMoved, holdsAfter, -⟩ :=
        (happens.allowed Regime.aside_houses within Regime.passage_same).asides keeper holds
      rw [keeperAfter] at keeperMoved
      cases keeperMoved
      rw [List.append_assoc]
      exact earlier.happens keeper keeperAfter asides holdsAfter
  | begun _ keeper sum ih =>
      cases explains with
      | cons shows rest =>
      cases shows with
      | begun keeperThen =>
      rw [keeper] at keeperThen
      cases keeperThen
      exact (ih rest).begins keeper (Run.deadline_of_sum keeper sum)
  | polled waiter depth _ works ih =>
      cases explains with
      | cons shows rest =>
      cases shows with
      | polled keeper keeperAfter asides =>
      cases works with
      | intro joined =>
      rw [List.append_assoc]
      exact (ih rest).works depth waiter joined keeper keeperAfter asides
  | took _ idle keeper takes ih =>
      cases explains with
      | cons shows rest =>
      cases shows with
      | took keeperThen keeperAfter =>
      rw [keeper] at keeperThen
      cases keeperThen
      cases keeperAfter
      exact (ih rest).takes idle (Run.nextDriven_takes keeper takes) keeper rfl takes.moves takes.drives
  | arrived _ idle keeper atRest ih =>
      cases explains with
      | cons shows rest =>
      cases shows with
      | arrived keeperThen keeperAfter =>
      rw [keeper] at keeperThen
      cases keeperThen
      cases keeperAfter
      exact (ih rest).ends idle (Run.nextDriven_atRest keeper atRest) keeper rfl

/-- Whatever happens can be explained. -/
theorem Host.Beats.exists_explains (known : host.Beats start first beats world way) :
    ∃ history, Explains history beats := by
  induction known with
  | stays => exact ⟨[], .nil⟩
  | aside known happens ih =>
      obtain ⟨history, explains⟩ := ih
      obtain ⟨keeper, holds, -, -⟩ := (known.timeline within before explains).follows within
      obtain ⟨_, _, keeperAfter, -, asides⟩ :=
        (happens.allowed Regime.aside_houses within Regime.passage_same).asides keeper holds
      exact ⟨_, .cons (.aside keeper keeperAfter asides) explains⟩
  | begun _ keeper sum ih =>
      obtain ⟨history, explains⟩ := ih
      exact ⟨_, .cons (.begun keeper) explains⟩
  | polled waiter depth known works ih =>
      obtain ⟨history, explains⟩ := ih
      obtain ⟨keeper, holds, -, under⟩ := (known.timeline within before explains).follows within
      cases under with
      | way drivenWithin =>
      cases works with
      | intro joined =>
      obtain ⟨allowed, -⟩ := Engine.pollJoin_aside within depth waiter _ drivenWithin _
      rw [joined] at allowed
      obtain ⟨_, _, keeperAfter, -, asides⟩ := allowed.asides keeper holds
      exact ⟨_, .cons (.polled keeper keeperAfter asides) explains⟩
  | took _ _ keeper _ ih =>
      obtain ⟨history, explains⟩ := ih
      exact ⟨_, .cons (.took keeper rfl) explains⟩
  | arrived _ _ keeper _ ih =>
      obtain ⟨history, explains⟩ := ih
      exact ⟨_, .cons (.arrived keeper rfl) explains⟩

end Timeline

/-- A journey of a fresh clock can be explained, and whatever explains it is a timeline. -/
theorem Host.Journey.timelines {host : Host S Action alphabet} (within : host.Within .still)
    {start world : World S Action (Action alphabet)} (fresh : start.keeper = .virtual .initial)
    {beats : List (Beat S Action (Action alphabet))}
    {way : Option (Advancing S Action (Action alphabet))}
    (journey : host.Journey start none beats world way) :
    (∃ history, Explains history beats) ∧
      ∀ history, Explains history beats → host.Timeline history world way := by
  have opens : host.Timeline [] start none := .fresh fresh
  refine ⟨journey.toBeats.exists_explains within opens, fun history explains => ?_⟩
  have timeline := journey.toBeats.timeline within opens explains
  rwa [List.append_nil] at timeline

/-! ## The discipline of a journey -/

/-- While at most one advance at a time is under way, schedules fire in the order of their due times and
handles, at their due times, and after all work that was handed over before; and an advance ends where
it was to end, with nothing left that is due.  A journey is made of the beats of polls, and every poll of
an advance goes through such beats. -/
theorem Host.Journey.keeps_discipline {host : Host S Action alphabet} (within : host.Within .still)
    {start world : World S Action (Action alphabet)} (fresh : start.keeper = .virtual .initial)
    {beats : List (Beat S Action (Action alphabet))}
    {way : Option (Advancing S Action (Action alphabet))}
    (journey : host.Journey start none beats world way) :
    host.Paced ∧ (∃ history, Explains history beats) ∧
      (∀ history, Explains history beats → VirtualClock.Disciplined history) ∧ Lands beats := by
  obtain ⟨explained, timelines⟩ := journey.timelines within fresh
  refine ⟨host.paced, explained, fun history explains => ?_, journey.toBeats.lands⟩
  obtain ⟨-, -, course, -⟩ := (timelines history explains).follows within
  exact course.disciplined

/-! ### An advance with something to do -/

namespace Lone

/-- A world with the given clock. -/
def world (clock : World.Clock Unit (fun _ : Unit => Json) Json) :
    World Unit (fun _ : Unit => Json) Json :=
  .initial () (.virtual clock) (.int 0)

def delay : Duration := ⟨10 * Duration.millisecond, Duration.tenMillis_lt⟩

def span : Duration := ⟨20 * Duration.millisecond, Duration.twentyMillis_lt⟩

def task : Pending Unit (fun _ : Unit => Json) Json .finished := .done ()

def timer : Timer (Pending Unit (fun _ : Unit => Json) Json .finished) := ⟨⟨1⟩, delay, none, task⟩

/-- A schedule is registered, and work is handed over. -/
def setting : Prompt Unit (fun _ : Unit => Json) Json Unit :=
  .schedule delay false task fun _ => .spawn task (.done ())

def scheduled : World.Clock Unit (fun _ : Unit => Json) Json := ⟨.zero, 1, [timer], []⟩

def queued : World.Clock Unit (fun _ : Unit => Json) Json := ⟨.zero, 1, [timer], [task]⟩

/-- An advance takes the work, then the schedule, and ends ten milliseconds later. -/
def drained : World.Clock Unit (fun _ : Unit => Json) Json := ⟨.zero, 1, [timer], []⟩

def fired : World.Clock Unit (fun _ : Unit => Json) Json := ⟨delay, 1, [], []⟩

def arrived : World.Clock Unit (fun _ : Unit => Json) Json := ⟨span, 1, [], []⟩

/-- The history of the whole, the latest first. -/
def history : List (Entry (Pending Unit (fun _ : Unit => Json) Json .finished)) :=
  [⟨.moved (.arrived span), arrived⟩, ⟨.completed 1, fired⟩, ⟨.moved (.fired span timer), fired⟩,
    ⟨.completed 1, drained⟩, ⟨.moved .drained, drained⟩, ⟨.completed 0, queued⟩, ⟨.begun span, queued⟩,
    ⟨.moved (.spawned task), queued⟩, ⟨.moved (.scheduled delay false task), scheduled⟩]

/-- The advance when the work that it has polled is over. -/
def worked : Advancing Unit (fun _ : Unit => Json) Json := .alone span (.done ())

/-- The beats of the advance, the latest first. -/
def beats : List (Beat Unit (fun _ : Unit => Json) Json) :=
  [.arrived worked (world fired) (world arrived),
    .polled (.taking span [task]) worked (world fired) (world fired),
    .took worked (.fired delay timer) (world drained) (world fired),
    .polled (.taking span [task]) worked (world drained) (world drained),
    .took (.bare span) (.drained .zero [task]) (world queued) (world drained),
    .polled (.outset span) (.bare span) (world queued) (world queued)]

theorem drive : Host.plain.Drive ⟨0, []⟩ 2 (.outset span) (world queued) beats none 0 (world arrived) := by
  have drains : queued.Takes span (.drained .zero [task]) drained := .drained (by decide)
  have fires : drained.Takes span (.fired fired.now timer) fired := .fired rfl rfl rfl
  exact .goes (.outset span) (fun index => index.elim0) rfl drains
    (.goes (.single rfl) (Advancing.idle_alone _) rfl fires
      (.arrives (.single rfl) (Advancing.idle_alone _) rfl ⟨rfl, rfl⟩))

theorem explains : Explains history
    (beats ++ [.begun span (world queued), .aside (world .initial) (world queued)]) := by
  have calls : Asides .initial [⟨.moved (.spawned task), queued⟩,
      ⟨.moved (.scheduled delay false task), scheduled⟩] queued :=
    .cons (.cons (.nil _) (.scheduled _ _ _ _) trivial) (.spawned _ _) trivial
  have called : Beat.ShowsAs (.aside (world .initial) (world queued)) _ := .aside rfl rfl calls
  have begun : Beat.ShowsAs (.begun span (world queued)) [⟨.begun span, queued⟩] := .begun rfl
  have driven : Explains _ beats :=
    .cons (.arrived rfl rfl) (.cons (.polled rfl rfl (.nil fired)) (.cons (.took rfl rfl)
      (.cons (.polled rfl rfl (.nil drained)) (.cons (.took rfl rfl)
        (.cons (.polled rfl rfl (.nil queued)) .nil)))))
  exact driven.append (.cons begun (.cons called .nil))

/-- The poll of the advance runs both pieces of work and returns twenty milliseconds later. -/
theorem advance_disciplined :
    (Pending.advance span (.done ()) : Pending Unit (fun _ : Unit => Json) Json .finished).poll
        (Host.plain.engine 2) ⟨0, []⟩ (world queued) = (.ok (.done ()), world arrived) ∧
      VirtualClock.Disciplined history ∧
      Lands (beats ++ [.begun span (world queued), .aside (world .initial) (world queued)]) := by
  have called : Host.plain.Happens .still (world .initial)
      (setting.run (Host.plain.engine 2) (world .initial)).2 :=
    .call 2 ⟨trivial, fun _ => ⟨trivial, trivial⟩⟩
  have set : Host.plain.Journey (world .initial) none _ (world queued) none := .aside .stays called
  have sum : queued.now.add? span = some span := rfl
  have journey := (set.begun rfl sum).polled ⟨0, []⟩ 2 drive
  obtain ⟨paced, -, disciplined, lands⟩ :=
    Host.Journey.keeps_discipline (Host.plain_within .still) rfl journey
  have keeper : (world queued).keeper = .virtual queued := rfl
  exact ⟨(paced.begins keeper).2 ⟨span, sum, .passes drive rfl⟩, disciplined history explains, lands⟩

end Lone

end EffectLoop
