import EffectLoop.Proofs.Store.Replay

/-!
# The log of a store

A store tells its observer of an action before it reduces it, and of a command before it starts it.
What an observer is told is therefore a transcript of what the store went through.  It splits into
blocks.  The block of a dispatch is the action, at once followed by the command that the reducer
answers, unless that command is empty; a start or a launch from outside has the block of its
command.  Whatever a command dispatches while it runs comes after its block, and the commands inside
of a command, like those of a timer, have no block of their own.

The transcript is stated on the marks of a store, which are its observations, what the observer made
of them, and its commits.  It holds of every run: however calls nest, in whatever order pending
computations are polled, and whatever fails.
-/

namespace EffectLoop

variable {S ι : Type} {Action : ι → Type} {A : Type} {alphabet : ι}

/-! ## Marks -/

/-- Is it an event of the store itself: an observation, what is made of it, or a commit? -/
def Event.isMark : Event S A → Bool
  | .observed _ | .delivered _ | .committed _ => true
  | _ => false

/-- The observation, if the event is one. -/
def Event.observation? : Event S A → Option (Observation A)
  | .observed seen => some seen
  | _ => none

/-- The action, if a dispatch was observed. -/
def Observation.action? : Observation A → Option A
  | .dispatch action => some action
  | .effect _ => none

/-- Do the observations begin with an action? -/
def opensWithAction : List (Observation A) → Bool
  | .dispatch _ :: _ => true
  | _ => false

/-- The events of the store itself, the earliest first. -/
def marks (trace : List (Event S A)) : List (Event S A) := trace.reverse.filter Event.isMark

/-- What the observer was told, the earliest first. -/
def observations (trace : List (Event S A)) : List (Observation A) :=
  trace.reverse.filterMap Event.observation?

theorem marks_append (later earlier : List (Event S A)) :
    marks (later ++ earlier) = marks earlier ++ marks later := by
  simp only [marks, List.reverse_append, List.filter_append]

@[simp] theorem marks_notes (notes : List Json) :
    marks (notes.map Event.note : List (Event S A)).reverse = [] := by
  simp [marks, Event.isMark]

@[simp] theorem marks_deliveries (deliveries : List (Delivery A)) :
    marks (deliveries.map Event.delivered : List (Event S A)).reverse =
      deliveries.map Event.delivered := by
  simp [marks, Event.isMark]

theorem observations_eq (trace : List (Event S A)) :
    observations trace = (marks trace).filterMap Event.observation? := by
  simp only [observations, marks, List.filterMap_filter]
  refine List.filterMap_congr fun event _ => ?_
  cases event <;> rfl

/-- The actions told are the dispatches observed. -/
theorem told_eq (trace : List (Event S A)) :
    told trace = (observations trace).filterMap Observation.action? := by
  simp only [told, observations, List.filterMap_filterMap]
  refine List.filterMap_congr fun event _ => ?_
  cases event with
  | observed seen => cases seen <;> rfl
  | _ => rfl

/-! ## Turns -/

/-- What a store goes through: it receives an action, or it is given a loop to start or a command to
launch.  The store itself only dispatches. -/
inductive Episode (S : Type) {ι : Type} (Action : ι → Type) (alphabet : ι) where
  | dispatch (action : Action alphabet)
  | start (loop : Loop S Action alphabet)
  | launch (cmd : Cmd S Action alphabet)

namespace Episode

/-- The action of a dispatch. -/
def action? : Episode S Action alphabet → Option (Action alphabet)
  | dispatch action => some action
  | _ => none

/-- Is it a call from outside of the store, a start or a launch? -/
def isOutside (episode : Episode S Action alphabet) : Bool := episode.action?.isNone

/-- Is it a start? -/
def isStart : Episode S Action alphabet → Bool
  | start _ => true
  | _ => false

end Episode

/-- What is told of a command that is started: its kind, unless it is empty. -/
def Cmd.effects (cmd : Cmd S Action alphabet) : List (Observation (Action alphabet)) :=
  if cmd.isNone then [] else [.effect cmd.kind]

namespace Store

variable (store : Store S Action alphabet)

/-- The state after an episode. -/
def after (state : S) : Episode S Action alphabet → S
  | .dispatch action => store.reducer.model state action
  | .start loop => loop.state
  | .launch _ => state

/-- What is told in an episode that begins with the given state. -/
def block (state : S) : Episode S Action alphabet → List (Observation (Action alphabet))
  | .dispatch action =>
      .dispatch action ::
        match (store.reducer state action).value with
        | .ok loop => loop.lift.2.effects
        | .error _ => []
  | .start loop => loop.lift.2.effects
  | .launch cmd => cmd.effects

/-- The blocks of successive episodes.  Each begins with the state that the one before it left. -/
def blocks : S → List (Episode S Action alphabet) → List (List (Observation (Action alphabet)))
  | _, [] => []
  | state, episode :: rest => store.block state episode :: blocks (store.after state episode) rest

/-- The marks of observations: each one with what the observer makes of it. -/
def shown (seen : List (Observation (Action alphabet))) : List (Event S (Action alphabet)) :=
  seen.flatMap fun each => .observed each :: (store.observer each).map Event.delivered

/-- The marks of an episode.  The state is committed before the command is told. -/
def passage (state : S) : Episode S Action alphabet → List (Event S (Action alphabet))
  | .dispatch action =>
      store.shown [.dispatch action] ++
        match (store.reducer state action).value with
        | .ok loop => .committed loop.state :: store.shown loop.lift.2.effects
        | .error _ => []
  | .start loop => .committed loop.state :: store.shown loop.lift.2.effects
  | .launch cmd => store.shown cmd.effects

/-- The marks of successive episodes. -/
def transcript : S → List (Episode S Action alphabet) → List (Event S (Action alphabet))
  | _, [] => []
  | state, episode :: rest =>
      store.passage state episode ++ transcript (store.after state episode) rest

theorem transcript_append (state : S) (first second : List (Episode S Action alphabet)) :
    store.transcript state (first ++ second) =
      store.transcript state first ++ store.transcript (first.foldl store.after state) second := by
  induction first generalizing state with
  | nil => rfl
  | cons episode rest ih =>
      simp only [List.cons_append, transcript, ih, List.foldl_cons, List.append_assoc]

theorem shown_observations (seen : List (Observation (Action alphabet))) :
    (store.shown seen).filterMap Event.observation? = seen := by
  induction seen with
  | nil => rfl
  | cons each rest ih =>
      have silent : ((store.observer each).map Event.delivered :
          List (Event S (Action alphabet))).filterMap Event.observation? = [] := by
        simp [Event.observation?]
      simp only [shown, List.flatMap_cons, List.cons_append, List.filterMap_cons,
        List.filterMap_append, silent, List.nil_append, Event.observation?] at ih ⊢
      rw [ih]

theorem passage_observations (state : S) (episode : Episode S Action alphabet) :
    (store.passage state episode).filterMap Event.observation? = store.block state episode := by
  cases episode with
  | dispatch action =>
      simp only [passage, block, List.filterMap_append, shown_observations, List.singleton_append]
      cases (store.reducer state action).value with
      | ok loop => exact congrArg (_ :: ·) (store.shown_observations _)
      | error refused => rfl
  | start loop => exact store.shown_observations _
  | launch cmd => exact store.shown_observations _

/-- The observations of a transcript are its blocks, one after the other. -/
theorem transcript_observations (state : S) (episodes : List (Episode S Action alphabet)) :
    (store.transcript state episodes).filterMap Event.observation? =
      (store.blocks state episodes).flatten := by
  induction episodes generalizing state with
  | nil => rfl
  | cons episode rest ih =>
      simp only [transcript, blocks, List.filterMap_append, passage_observations, ih,
        List.flatten_cons]

/-! ## Rehearsing -/

theorem effects_notAction (cmd : Cmd S Action alphabet) :
    opensWithAction cmd.effects = false := by
  unfold Cmd.effects
  split <;> rfl

theorem opensWithAction_block (state : S) (episode : Episode S Action alphabet) :
    opensWithAction (store.block state episode) = !episode.isOutside := by
  cases episode with
  | dispatch action => rfl
  | start loop => exact effects_notAction _
  | launch cmd => exact effects_notAction cmd

theorem effects_actions (cmd : Cmd S Action alphabet) :
    cmd.effects.filterMap Observation.action? = [] := by
  unfold Cmd.effects
  split <;> rfl

/-- The actions in the blocks are those of the episodes. -/
theorem blocks_actions (state : S) (episodes : List (Episode S Action alphabet)) :
    (store.blocks state episodes).flatten.filterMap Observation.action? =
      episodes.filterMap Episode.action? := by
  induction episodes generalizing state with
  | nil => rfl
  | cons episode rest ih =>
      rw [blocks, List.flatten_cons, List.filterMap_append, ih, List.filterMap_cons]
      cases episode with
      | dispatch action =>
          simp only [block, List.filterMap_cons, Observation.action?, Episode.action?,
            List.cons_append, List.cons.injEq, true_and]
          cases (store.reducer state action).value with
          | ok loop => rw [effects_actions, List.nil_append]
          | error refused => rfl
      | start loop => rw [block, effects_actions]; rfl
      | launch cmd => rw [block, effects_actions]; rfl

/-- Without a start, the reducer alone reproduces the blocks of the dispatches. -/
theorem blocks_of_dispatches (state : S) {episodes : List (Episode S Action alphabet)}
    (noStart : ∀ episode ∈ episodes, episode.isStart = false) :
    (store.blocks state episodes).filter opensWithAction =
      store.blocks state ((episodes.filterMap Episode.action?).map Episode.dispatch) := by
  induction episodes generalizing state with
  | nil => rfl
  | cons episode rest ih =>
      have noStartThen : ∀ episode ∈ rest, episode.isStart = false :=
        fun each among => noStart each (.tail _ among)
      rw [blocks, List.filter_cons, opensWithAction_block]
      cases episode with
      | dispatch action =>
          change store.block state _ :: (store.blocks _ rest).filter _ = _
          rw [ih _ noStartThen]
          rfl
      | start loop => exact absurd (noStart _ (.head _)) (by simp [Episode.isStart])
      | launch cmd => exact ih state noStartThen

/-! ## Recording -/

/-- The marks among the events are the transcript of the episodes, which lead from one state to the
other. -/
structure Records (before : S) (episodes : List (Episode S Action alphabet))
    (recent : List (Event S (Action alphabet))) (after : S) : Prop where
  marks : marks recent = store.transcript before episodes
  state : after = episodes.foldl store.after before

namespace Records

variable {store} {first middle last : S} {episodes others : List (Episode S Action alphabet)}
  {recent later : List (Event S (Action alphabet))}

theorem quiet (state : S) (unmarked : EffectLoop.marks recent = []) :
    store.Records state [] recent state :=
  ⟨unmarked, rfl⟩

theorem append (before : store.Records first episodes recent middle)
    (after : store.Records middle others later last) :
    store.Records first (episodes ++ others) (later ++ recent) last := by
  constructor
  · rw [marks_append, before.marks, after.marks, transcript_append, ← before.state]
  · rw [after.state, List.foldl_append, ← before.state]

end Records

/-- From one world to the other the store has gone through the given episodes. -/
def Passes (before : World S Action (Action alphabet)) (episodes : List (Episode S Action alphabet))
    (after : World S Action (Action alphabet)) : Prop :=
  ∃ recent, after.trace = recent ++ before.trace ∧
    store.Records before.state episodes recent after.state

/-- From one world to the other the store has gone through the given episodes, and after them it has
only dispatched. -/
def Takes (opening : List (Episode S Action alphabet))
    (before after : World S Action (Action alphabet)) : Prop :=
  ∃ rest, store.Passes before (opening ++ rest) after ∧ rest.filter Episode.isOutside = []

/-- From one world to the other the store has only dispatched. -/
abbrev Dispatches (before after : World S Action (Action alphabet)) : Prop :=
  store.Takes [] before after

section

variable {store} {first second third : World S Action (Action alphabet)}
  {episodes others : List (Episode S Action alphabet)}

theorem Passes.trans (before : store.Passes first episodes second)
    (after : store.Passes second others third) : store.Passes first (episodes ++ others) third := by
  obtain ⟨recent, grown, records⟩ := before
  obtain ⟨later, grownAgain, recordsAgain⟩ := after
  refine ⟨later ++ recent, ?_, records.append recordsAgain⟩
  rw [grownAgain, grown, List.append_assoc]

theorem Passes.takes (passes : store.Passes first episodes second) :
    store.Takes episodes first second :=
  ⟨[], (List.append_nil episodes).symm ▸ passes, rfl⟩

theorem Takes.trans (before : store.Takes episodes first second)
    (after : store.Dispatches second third) : store.Takes episodes first third := by
  obtain ⟨rest, passes, inside⟩ := before
  obtain ⟨more, passesAgain, insideAgain⟩ := after
  refine ⟨rest ++ more, List.append_assoc episodes rest more ▸ passes.trans passesAgain, ?_⟩
  rw [List.filter_append, inside, insideAgain, List.append_nil]

end

theorem passes_of_sameRecord {before after : World S Action (Action alphabet)}
    (same : before.SameRecord after) : store.Passes before [] after := by
  refine ⟨[], same.2, ?_⟩
  rw [same.1]
  exact .quiet before.state rfl

theorem dispatches_tolerant : Tolerant store.Dispatches where
  refl _ := (store.passes_of_sameRecord ⟨rfl, rfl⟩).takes
  trans := Takes.trans
  sameFront same := (store.passes_of_sameRecord ⟨same.1, same.2.1⟩).takes
  note world value := Passes.takes ⟨[.note value], rfl, .quiet world.state rfl⟩
  log world entry := Passes.takes ⟨[.log entry], rfl, .quiet world.state rfl⟩

/-! ## The engine of a store -/

theorem marks_shown (seen : List (Observation (Action alphabet))) :
    marks (store.shown seen).reverse = store.shown seen := by
  rw [marks, List.reverse_reverse, List.filter_eq_self]
  intro event among
  obtain ⟨each, -, shown⟩ := List.mem_flatMap.1 among
  rcases List.mem_cons.1 shown with rfl | delivered
  · rfl
  · obtain ⟨delivery, -, rfl⟩ := List.mem_map.1 delivered
    rfl

theorem marks_receipt (state : S) (action : Action alphabet) :
    marks (store.receipt state action) = store.shown [.dispatch action] := by
  rw [receipt, marks_append, marks_append, marks_notes, marks_deliveries, List.append_nil, shown,
    List.flatMap_cons, List.flatMap_nil, List.append_nil]
  rfl

section Engine

variable {engine : Engine S Action (Action alphabet)} (engineKeeps : engine.Keeps store.Dispatches)
include engineKeeps

/-- The command is told before it runs, so what it dispatches comes after its block. -/
theorem launch_takes (cmd : Cmd S Action alphabet) (world : World S Action (Action alphabet)) :
    store.Takes [.launch cmd] world (store.launch engine cmd world).2 := by
  have tolerant := store.dispatches_tolerant
  unfold launch
  split
  next isNone =>
    refine Passes.takes ⟨[], rfl, ?_, rfl⟩
    simp only [transcript, passage, Cmd.effects, isNone, if_true]
    rfl
  next isSome =>
    have effects : cmd.effects = [.effect cmd.kind] := if_neg isSome
    let world' := { world with trace := (store.shown cmd.effects).reverse ++ world.trace }
    have told : store.observe (.effect cmd.kind) world = (.ok (), world') := by
      rw [observe_eq]
      simp [world', effects, shown]
    have block : store.Takes [.launch cmd] world world' := by
      refine Passes.takes ⟨(store.shown cmd.effects).reverse, rfl, ?_, rfl⟩
      rw [marks_shown, transcript, passage, transcript, List.append_nil]
    rw [Run.bind_of_ok told]
    refine block.trans
      (Run.Keeps.bind tolerant (Prompt.run_keeps tolerant engineKeeps _) (fun verdict => ?_) world')
    split <;> exact .pure tolerant _

/-- The block of a start begins with its commit. -/
theorem start_takes (loop : Loop S Action alphabet) (world : World S Action (Action alphabet)) :
    store.Takes [.start loop] world (store.start engine loop world).2 := by
  rw [start_eq]
  obtain ⟨rest, ⟨recent, grown, records⟩, inside⟩ :=
    store.launch_takes engineKeeps loop.lift.2
      { world with state := loop.state, trace := .committed loop.state :: world.trace }
  refine ⟨rest, ⟨recent ++ [.committed loop.state], ?_, ?_, records.state⟩, inside⟩
  · rw [grown, List.append_assoc, List.singleton_append]
  · rw [marks_append, records.marks]
    rfl

/-- A dispatch goes through its own block before anything that its command dispatches. -/
theorem dispatch_takes (action : Action alphabet) (world : World S Action (Action alphabet)) :
    store.Takes [.dispatch action] world (store.dispatch engine action world).2 := by
  have received : marks (store.receipt world.state action) = store.shown [.dispatch action] :=
    store.marks_receipt world.state action
  cases answered : (store.reducer world.state action).value with
  | error refused =>
      rw [store.dispatch_of_error engine answered]
      refine Passes.takes ⟨store.receipt world.state action, rfl, ?_, ?_⟩
      · simp only [transcript, passage, answered, received, List.append_nil]
      · simp only [List.foldl_cons, List.foldl_nil, after, Reducer.model, answered]
        rfl
  | ok loop =>
      rw [store.dispatch_of_ok engine answered]
      obtain ⟨rest, ⟨recent, grown, records⟩, inside⟩ :=
        store.start_takes engineKeeps loop (store.received action world)
      refine ⟨rest, ⟨recent ++ store.receipt world.state action, ?_, ?_, ?_⟩, inside⟩
      · rw [grown, List.append_assoc]
        rfl
      · rw [marks_append, received, records.marks]
        simp only [List.singleton_append, transcript, passage, after, Reducer.model, answered,
          List.append_assoc]
      · rw [records.state]
        simp only [List.singleton_append, List.foldl_cons, after, Reducer.model, answered]

end Engine

theorem takes_dispatches {action : Action alphabet}
    {before after : World S Action (Action alphabet)}
    (takes : store.Takes [.dispatch action] before after) : store.Dispatches before after := by
  obtain ⟨rest, passes, inside⟩ := takes
  exact ⟨_ :: rest, passes, inside⟩

/-- However deep dispatches may nest, the engine of a store only dispatches. -/
theorem engine_dispatches (depth : Nat) :
    ((Host.store store).engine depth).Keeps store.Dispatches := by
  have tolerant := store.dispatches_tolerant
  induction depth with
  | zero => exact ⟨fun _ => .throw tolerant _, fun _ _ => .throw tolerant _⟩
  | succ depth ih =>
      constructor
      · intro action
        refine .look tolerant fun world => ?_
        split
        · exact fun world => store.takes_dispatches (store.dispatch_takes ih action world)
        · exact .pure tolerant _
      · intro answer waiter pending
        exact Pending.poll_keeps tolerant ih waiter pending

/-! ## Runs -/

/-- Runs of a store from any world, with the starts and launches that were asked for from outside,
the earliest first.  Dispatches, calls and polls come in any order between them, and nothing is
asked of how they end. -/
inductive Runs (before : World S Action (Action alphabet)) :
    List (Episode S Action alphabet) → World S Action (Action alphabet) → Prop where
  | none : Runs before [] before
  | started {calls world} (depth : Nat) (loop : Loop S Action alphabet) :
      Runs before calls world →
      Runs before (calls ++ [.start loop])
        (store.start ((Host.store store).engine depth) loop world).2
  | launched {calls world} (depth : Nat) (cmd : Cmd S Action alphabet) :
      Runs before calls world →
      Runs before (calls ++ [.launch cmd])
        (store.launch ((Host.store store).engine depth) cmd world).2
  | dispatched {calls world} (depth : Nat) (action : Action alphabet) : Runs before calls world →
      Runs before calls (((Host.store store).engine depth).dispatch action world).2
  | called {calls world α} (depth : Nat) (program : Prompt S Action (Action alphabet) α) :
      Runs before calls world →
      Runs before calls (program.run ((Host.store store).engine depth) world).2
  | polled {calls world} {answer : Answer ι} (depth : Nat) (waiter : Waiter)
      (pending : Pending S Action (Action alphabet) answer) : Runs before calls world →
      Runs before calls (pending.poll ((Host.store store).engine depth) waiter world).2
  /-- Anything else, such as moving the clock, closing the store or the end of a root, leaves the
  state alone and makes no mark. -/
  | beside {calls world next} : Runs before calls world → next.state = world.state →
      (∃ recent, next.trace = recent ++ world.trace ∧ marks recent = []) → Runs before calls next

variable {store} {before world next : World S Action (Action alphabet)}
  {calls opening episodes : List (Episode S Action alphabet)}

theorem Takes.extends (takes : store.Takes opening world next)
    (passes : store.Passes before episodes world) :
    ∃ others, store.Passes before others next ∧
      others.filter Episode.isOutside =
        episodes.filter Episode.isOutside ++ opening.filter Episode.isOutside := by
  obtain ⟨rest, passesAgain, inside⟩ := takes
  refine ⟨episodes ++ (opening ++ rest), passes.trans passesAgain, ?_⟩
  rw [List.filter_append, List.filter_append, inside, List.append_nil]

theorem Runs.passes (runs : store.Runs before calls world) :
    ∃ episodes, store.Passes before episodes world ∧ episodes.filter Episode.isOutside = calls := by
  have tolerant := store.dispatches_tolerant
  have inside : ∀ {episodes : List (Episode S Action alphabet)} {world next},
      store.Passes before episodes world → store.Dispatches world next →
      ∃ others, store.Passes before others next ∧
        others.filter Episode.isOutside = episodes.filter Episode.isOutside := by
    intro episodes world next passes dispatches
    simpa using dispatches.extends passes
  induction runs with
  | none => exact ⟨[], store.passes_of_sameRecord ⟨rfl, rfl⟩, rfl⟩
  | started depth loop _ ih =>
      obtain ⟨episodes, passes, rfl⟩ := ih
      exact (store.start_takes (store.engine_dispatches depth) loop _).extends passes
  | launched depth cmd _ ih =>
      obtain ⟨episodes, passes, rfl⟩ := ih
      exact (store.launch_takes (store.engine_dispatches depth) cmd _).extends passes
  | dispatched depth action _ ih =>
      obtain ⟨episodes, passes, rfl⟩ := ih
      exact inside passes ((store.engine_dispatches depth).dispatch action _)
  | called depth program _ ih =>
      obtain ⟨episodes, passes, rfl⟩ := ih
      exact inside passes
        (Prompt.run_keeps tolerant (store.engine_dispatches depth) program _)
  | polled depth waiter pending _ ih =>
      obtain ⟨episodes, passes, rfl⟩ := ih
      exact inside passes
        (Pending.poll_keeps tolerant (store.engine_dispatches depth) waiter pending _)
  | beside _ same unmarked ih =>
      obtain ⟨episodes, passes, rfl⟩ := ih
      obtain ⟨recent, grown, nothing⟩ := unmarked
      exact inside passes (Passes.takes ⟨recent, grown, nothing, same⟩)

/-- The log of a store is a faithful transcript.  In every run the store goes through episodes, and
those that are not dispatches are the starts and launches asked for from outside.  Its marks are
those of the episodes and nothing else, so what the observer was told splits into their blocks, and
within a block the state is committed as the reducer answered it.  Unless the run has a start, the
reducer alone, applied to the actions told, reproduces the blocks of the dispatches.  A dispatch to
an open store goes through its own block first. -/
theorem transcript_of_runs (runs : store.Runs before calls world) :
    (∃ recent episodes, world.trace = recent ++ before.trace ∧
      episodes.filter Episode.isOutside = calls ∧
      marks recent = store.transcript before.state episodes ∧
      observations recent = (store.blocks before.state episodes).flatten ∧
      world.state = episodes.foldl store.after before.state ∧
      ((∀ call ∈ calls, call.isStart = false) →
        (store.blocks before.state episodes).filter opensWithAction =
          store.blocks before.state ((told recent).map .dispatch))) ∧
      ∀ depth action, world.isOpen → ∃ recent rest,
        (((Host.store store).engine (depth + 1)).dispatch action world).2.trace =
          recent ++ world.trace ∧
        marks recent = store.transcript world.state (.dispatch action :: rest) := by
  constructor
  · obtain ⟨episodes, ⟨recent, grown, records⟩, outside⟩ := runs.passes
    have seen : observations recent = (store.blocks before.state episodes).flatten := by
      rw [observations_eq, records.marks, transcript_observations]
    refine ⟨recent, episodes, grown, outside, records.marks, seen, records.state, ?_⟩
    intro noStart
    rw [told_eq, seen, blocks_actions]
    refine store.blocks_of_dispatches _ fun episode among => ?_
    -- A dispatch is no start, and every other episode is among the calls.
    cases episode with
    | dispatch action => rfl
    | start loop => exact noStart _ (outside ▸ List.mem_filter.2 ⟨among, rfl⟩)
    | launch cmd => rfl
  · intro depth action isOpen
    rw [store.engine_dispatch_of_isOpen depth action isOpen]
    obtain ⟨rest, ⟨recent, grown, records⟩, -⟩ :=
      store.dispatch_takes (store.engine_dispatches depth) action world
    exact ⟨recent, rest, grown, records.marks⟩

/-- The tallying store after what a one causes, when it was also asked to launch a seven. -/
def tallyingLaunched : World Nat (fun _ : Unit => Nat) Nat :=
  (tallying.launch ((Host.store tallying).engine 2) (.action 7) tallied).2

theorem runs_tallyingLaunched :
    tallying.Runs (.initial 5 (.virtual .initial) (.int 0)) [.launch (.action 7)]
      tallyingLaunched :=
  .launched 2 _ (.polled 2 _ _ (.dispatched 2 1 .none))

/-- The one and the seven that follows it have their own blocks.  The launch adds a block, which is
not one of a dispatch. -/
theorem transcript_of_runs_tallyingLaunched :
    ∃ recent episodes, tallyingLaunched.trace = recent ++ [] ∧
      episodes.filter Episode.isOutside = [.launch (.action 7)] ∧
      observations recent = (tallying.blocks 5 episodes).flatten ∧
      (tallying.blocks 5 episodes).filter opensWithAction =
        [[.dispatch 1, .effect .action], [.dispatch 7, .effect .run]] := by
  obtain ⟨⟨recent, episodes, grown, outside, -, seen, -, rehearsed⟩, -⟩ :=
    transcript_of_runs runs_tallyingLaunched
  refine ⟨recent, episodes, grown, outside, seen, ?_⟩
  have actions : told tallyingLaunched.trace = [1, 7] := by decide +kernel
  have same : tallyingLaunched.trace = recent := grown.trans (List.append_nil recent)
  refine (rehearsed ?_).trans ?_
  · intro call within
    cases List.mem_singleton.1 within
    rfl
  rw [← same, actions]
  rfl

end Store

end EffectLoop
