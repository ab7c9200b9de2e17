import EffectLoop.Proofs.World.Preservation

/-!
# Replaying a store

A store tells its observer of every action before it reduces it.  The events are therefore a journal
of the state: replaying the actions told since the last start, from the state of that start, gives
the state of the host.  This holds between any two calls of any run, however calls nest, in whatever
order pending computations are polled, and whatever fails.
-/

namespace EffectLoop

variable {S ι : Type} {Action : ι → Type} {A : Type} {alphabet : ι}

/-! ## Journals -/

/-- The state and the trace are the same. -/
def World.SameRecord (before after : World S Action A) : Prop :=
  after.state = before.state ∧ after.trace = before.trace

/-- The action that a store told its observer of, if the event is of that sort. -/
def Event.told? : Event S A → Option A
  | .observed (.dispatch action) => some action
  | _ => none

/-- The actions told, the earliest first.  In a trace the latest event comes first. -/
def told (trace : List (Event S A)) : List A := trace.reverse.filterMap Event.told?

theorem told_append (later earlier : List (Event S A)) :
    told (later ++ earlier) = told earlier ++ told later := by
  simp only [told, List.reverse_append, List.filterMap_append]

@[simp] theorem told_notes (notes : List Json) :
    told (notes.map Event.note : List (Event S A)).reverse = [] := by
  simp only [told, List.reverse_reverse, List.filterMap_map]
  exact List.filterMap_eq_nil_iff.2 fun _ _ => rfl

@[simp] theorem told_deliveries (deliveries : List (Delivery A)) :
    told (deliveries.map Event.delivered : List (Event S A)).reverse = [] := by
  simp only [told, List.reverse_reverse, List.filterMap_map]
  exact List.filterMap_eq_nil_iff.2 fun _ _ => rfl

/-- The next state.  A reducer whose command is refused leaves the state as it is. -/
def Reducer.model (reducer : Reducer S Action alphabet) (state : S) (action : Action alphabet) : S :=
  match (reducer state action).value with
  | .ok loop => loop.state
  | .error _ => state

namespace Store

variable (store : Store S Action alphabet)

/-- The state after all the actions told. -/
def replay (base : S) (trace : List (Event S (Action alphabet))) : S :=
  (told trace).foldl store.reducer.model base

theorem replay_append (base : S) (later earlier : List (Event S (Action alphabet))) :
    store.replay base (later ++ earlier) = store.replay (store.replay base earlier) later := by
  simp only [replay, told_append, List.foldl_append]

theorem replay_of_told_nil {trace : List (Event S (Action alphabet))} (nothing : told trace = [])
    (base : S) : store.replay base trace = base := by
  rw [replay, nothing, List.foldl_nil]

/-- The events since `base` account for `state`: replaying them gives it, and every commit among
them put in place what replaying the events before it gives. -/
structure Accounts (base : S) (recent : List (Event S (Action alphabet))) (state : S) : Prop where
  replayed : state = store.replay base recent
  committed : ∀ earlier kept, Event.committed kept :: earlier <:+ recent →
    kept = store.replay base earlier

namespace Accounts

variable {store} {base middle last : S} {first second : List (Event S (Action alphabet))}

theorem nil (base : S) : store.Accounts base [] base :=
  ⟨rfl, fun _ _ within => by simp at within⟩

theorem append (before : store.Accounts base first middle)
    (after : store.Accounts middle second last) : store.Accounts base (second ++ first) last := by
  constructor
  · rw [replay_append, ← before.replayed, after.replayed]
  · intro earlier kept within
    obtain ⟨between, same⟩ := within
    rcases List.append_eq_append_iff.1 same with ⟨rest, rfl, found⟩ | ⟨rest, -, found⟩
    · -- The commit is among the later events, unless it is the very first one before them.
      cases rest with
      | nil => exact before.committed earlier kept ⟨[], found⟩
      | cons event rest =>
          rw [List.cons_append, List.cons.injEq] at found
          obtain ⟨rfl, rfl⟩ := found
          rw [replay_append, ← before.replayed]
          exact after.committed rest kept ⟨between, rfl⟩
    · exact before.committed earlier kept ⟨rest, found.symm⟩

/-- Events that tell no action and commit no state account for nothing. -/
theorem quiet (base : S) (nothing : told first = [])
    (uncommitted : ∀ kept, Event.committed kept ∉ first) : store.Accounts base first base := by
  constructor
  · rw [replay_of_told_nil store nothing]
  · intro earlier kept within
    exact absurd (within.subset (List.mem_cons_self ..)) (uncommitted kept)

theorem commit (kept : last = store.replay base first)
    (uncommitted : ∀ other, Event.committed other ∉ first) :
    store.Accounts base (.committed last :: first) last := by
  constructor
  · change last = store.replay base ([.committed last] ++ first)
    rw [replay_append, ← kept]
    rfl
  · intro earlier other within
    rcases List.suffix_cons_iff.1 within with same | inside
    · rw [List.cons.injEq, Event.committed.injEq] at same
      obtain ⟨rfl, rfl⟩ := same
      exact kept
    · exact absurd (inside.subset (List.mem_cons_self ..)) (uncommitted other)

end Accounts

/-- Between two worlds the trace has grown, by events that account for the state. -/
def Follows (before after : World S Action (Action alphabet)) : Prop :=
  ∃ recent, after.trace = recent ++ before.trace ∧
    store.Accounts before.state recent after.state

theorem follows_of_sameRecord {before after : World S Action (Action alphabet)}
    (same : before.SameRecord after) : store.Follows before after := by
  refine ⟨[], same.2, ?_⟩
  rw [same.1]
  exact .nil before.state

theorem follows_tolerant : Tolerant store.Follows where
  refl world := ⟨[], rfl, .nil world.state⟩
  trans := by
    rintro first second third ⟨earlier, grown, accounts⟩ ⟨later, grownAgain, accountsAgain⟩
    refine ⟨later ++ earlier, ?_, accounts.append accountsAgain⟩
    rw [grownAgain, grown, List.append_assoc]
  sameFront same := store.follows_of_sameRecord ⟨same.1, same.2.1⟩
  note world value := ⟨[.note value], rfl, .quiet world.state rfl (by simp)⟩
  log world entry := ⟨[.log entry], rfl, .quiet world.state rfl (by simp)⟩

/-! ## Dispatching -/

/-- The events of receiving an action: the observer is told, then the reducer leaves its notes. -/
def receipt (state : S) (action : Action alphabet) : List (Event S (Action alphabet)) :=
  ((store.reducer state action).notes.map Event.note).reverse ++
    (((store.observer (.dispatch action)).map Event.delivered).reverse ++
      [.observed (.dispatch action)])

theorem told_receipt (state : S) (action : Action alphabet) :
    told (store.receipt state action) = [action] := by
  rw [receipt, told_append, told_append, told_notes, told_deliveries]
  rfl

theorem committed_notMem_receipt (state kept : S) (action : Action alphabet) :
    Event.committed kept ∉ store.receipt state action := by
  simp [receipt]

/-- The world when an action is received, before anything is committed. -/
def received (action : Action alphabet) (world : World S Action (Action alphabet)) :
    World S Action (Action alphabet) :=
  { world with
    reads := world.reads + 1
    trace := store.receipt world.state action ++ world.trace }

theorem annotate_eq (notes : List Json) (world : World S Action A) :
    world.annotate notes = { world with trace := (notes.map Event.note).reverse ++ world.trace } := by
  induction notes generalizing world with
  | nil => rfl
  | cons value rest ih =>
      change (world.emit (.note value)).annotate rest = _
      rw [ih]
      simp [World.emit]

theorem deliver_eq (deliveries : List (Delivery A)) (world : World S Action A) :
    (deliveries.forM fun delivery => (Run.emit (.delivered delivery) : Run S Action A Unit)) world =
      (.ok (),
        { world with trace := (deliveries.map Event.delivered).reverse ++ world.trace }) := by
  induction deliveries generalizing world with
  | nil => rfl
  | cons delivery rest ih =>
      change (rest.forM fun delivery => (Run.emit (.delivered delivery) : Run S Action A Unit))
        (world.emit (.delivered delivery)) = _
      rw [ih]
      simp [World.emit]

theorem observe_eq (seen : Observation (Action alphabet))
    (world : World S Action (Action alphabet)) :
    store.observe seen world =
      (.ok (),
        { world with
          trace := ((store.observer seen).map Event.delivered).reverse ++
            .observed seen :: world.trace }) :=
  deliver_eq (store.observer seen) (world.emit (.observed seen))

/-- An action is received before the answer of the reducer decides how to go on. -/
theorem reduce_told_eq (action : Action alphabet) (world : World S Action (Action alphabet)) :
    (do store.observe (.dispatch action); store.reduce action) world =
      match (store.reducer world.state action).value with
      | .ok loop => (.ok loop, store.received action world)
      | .error refused => (.error (.panic refused.message), store.received action world) := by
  have received : World.annotate
      { world with
        reads := world.reads + 1
        trace := ((store.observer (.dispatch action)).map Event.delivered).reverse ++
          .observed (.dispatch action) :: world.trace }
      (store.reducer world.state action).notes = store.received action world := by
    rw [annotate_eq]
    simp [Store.received, receipt]
  rw [Run.bind_of_ok (store.observe_eq (.dispatch action) world)]
  change (match (store.reducer world.state action).value with
      | .ok loop => pure loop
      | .error refused => Run.panic refused.message :
    Run S Action (Action alphabet) (Loop S Action alphabet)) (World.annotate _ _) = _
  rw [received]
  cases (store.reducer world.state action).value <;> rfl

theorem dispatch_of_ok (engine : Engine S Action (Action alphabet)) {action : Action alphabet}
    {world : World S Action (Action alphabet)} {loop : Loop S Action alphabet}
    (answered : (store.reducer world.state action).value = .ok loop) :
    store.dispatch engine action world = store.start engine loop (store.received action world) := by
  have told := store.reduce_told_eq action world
  rw [answered] at told
  rw [dispatch, ← LawfulMonad.bind_assoc]
  exact Run.bind_of_ok told

theorem dispatch_of_error (engine : Engine S Action (Action alphabet)) {action : Action alphabet}
    {world : World S Action (Action alphabet)} {refused : Refusal}
    (answered : (store.reducer world.state action).value = .error refused) :
    store.dispatch engine action world =
      (.error (.panic refused.message), store.received action world) := by
  have told := store.reduce_told_eq action world
  rw [answered] at told
  rw [dispatch, ← LawfulMonad.bind_assoc]
  exact Run.bind_of_error told

theorem start_eq (engine : Engine S Action (Action alphabet)) (loop : Loop S Action alphabet)
    (world : World S Action (Action alphabet)) :
    store.start engine loop world =
      store.launch engine loop.lift.2
        { world with state := loop.state, trace := .committed loop.state :: world.trace } := by
  rw [← loop.lift_fst]
  exact Run.bind_of_ok rfl

/-! ## The engine of a store -/

theorem observe_effect_keeps (kind : Cmd.Kind) :
    Run.Keeps store.Follows (store.observe (.effect kind)) := by
  intro world
  rw [observe_eq]
  refine ⟨((store.observer (.effect kind)).map Event.delivered).reverse ++ [.observed (.effect kind)],
    by simp, .quiet world.state ?_ ?_⟩
  · rw [told_append, told_deliveries]
    rfl
  · simp

section Engine

variable {engine : Engine S Action (Action alphabet)} (engineKeeps : engine.Keeps store.Follows)
include engineKeeps

theorem launch_keeps (cmd : Cmd S Action alphabet) :
    Run.Keeps store.Follows (store.launch engine cmd) := by
  have tolerant := store.follows_tolerant
  unfold launch
  split
  · exact .pure tolerant _
  · refine .bind tolerant (store.observe_effect_keeps cmd.kind) fun _ => ?_
    refine .bind tolerant (Prompt.run_keeps tolerant engineKeeps _) fun verdict => ?_
    split <;> exact .pure tolerant _

theorem dispatch_keeps (action : Action alphabet) :
    Run.Keeps store.Follows (store.dispatch engine action) := by
  intro world
  have model : store.reducer.model world.state action =
      store.replay world.state (store.receipt world.state action) := by
    rw [replay, told_receipt, List.foldl_cons, List.foldl_nil]
  cases answered : (store.reducer world.state action).value with
  | error refused =>
      rw [store.dispatch_of_error engine answered]
      refine ⟨store.receipt world.state action, rfl, ?_, ?_⟩
      · rw [← model, Reducer.model, answered]
        rfl
      · intro earlier kept within
        exact absurd (within.subset (List.mem_cons_self ..))
          (store.committed_notMem_receipt world.state kept action)
  | ok loop =>
      have kept : loop.state = store.replay world.state (store.receipt world.state action) := by
        rw [← model, Reducer.model, answered]
      rw [store.dispatch_of_ok engine answered, store.start_eq]
      refine store.follows_tolerant.trans ⟨.committed loop.state :: store.receipt world.state action,
        rfl, ?_⟩ (store.launch_keeps engineKeeps _ _)
      exact .commit kept fun _ => store.committed_notMem_receipt world.state _ action

end Engine

/-- However deep dispatches may nest, the engine of a store keeps its journal. -/
theorem engine_keeps (depth : Nat) :
    ((Host.store store).engine depth).Keeps store.Follows := by
  have tolerant := store.follows_tolerant
  induction depth with
  | zero => exact ⟨fun _ => .throw tolerant _, fun _ _ => .throw tolerant _⟩
  | succ depth ih =>
      constructor
      · intro action
        refine .look tolerant fun world => ?_
        split
        · exact store.dispatch_keeps ih action
        · exact .pure tolerant _
      · intro answer waiter pending
        exact Pending.poll_keeps tolerant ih waiter pending

theorem engine_dispatch_of_isOpen (depth : Nat) (action : Action alphabet)
    {world : World S Action (Action alphabet)} (isOpen : world.isOpen) :
    ((Host.store store).engine (depth + 1)).dispatch action world =
      store.dispatch ((Host.store store).engine depth) action world := by
  change (if world.isOpen then store.dispatch ((Host.store store).engine depth) action
    else pure (.done (.error .storeClosed)) : Run S Action (Action alphabet) _) world = _
  rw [if_pos isOpen]

/-! ## Runs of a store -/

/-- The worlds that runs of a store lead to.  `base` is the state of the last start, or the one
installed, and `older` are the events up to then.  Calls come from anywhere, in any order; a pending
computation is polled whenever and by whomever; nothing is asked of how a call ends. -/
inductive Reached : S → List (Event S (Action alphabet)) → World S Action (Action alphabet) → Prop
    where
  | installed (state : S) (keeper : Keeper S Action (Action alphabet)) (wallClock : Number) :
      Reached state [] (.initial state keeper wallClock)
  | started {base older world} (depth : Nat) (loop : Loop S Action alphabet) :
      Reached base older world →
      Reached loop.state world.trace (store.start ((Host.store store).engine depth) loop world).2
  | dispatched {base older world} (depth : Nat) (action : Action alphabet) :
      Reached base older world →
      Reached base older (((Host.store store).engine depth).dispatch action world).2
  | launched {base older world} (depth : Nat) (cmd : Cmd S Action alphabet) :
      Reached base older world →
      Reached base older (store.launch ((Host.store store).engine depth) cmd world).2
  | called {base older world α} (depth : Nat) (program : Prompt S Action (Action alphabet) α) :
      Reached base older world →
      Reached base older (program.run ((Host.store store).engine depth) world).2
  | polled {base older world} {answer : Answer ι} (depth : Nat) (waiter : Waiter)
      (pending : Pending S Action (Action alphabet) answer) : Reached base older world →
      Reached base older (pending.poll ((Host.store store).engine depth) waiter world).2
  /-- Anything else, such as moving the clock or closing the store, leaves state and trace alone. -/
  | changed {base older before after} : Reached base older before → before.SameRecord after →
      Reached base older after

variable {store} {base : S} {older : List (Event S (Action alphabet))}

theorem Follows.accounts {before after : World S Action (Action alphabet)}
    (follows : store.Follows before after)
    (accounts : ∃ recent, before.trace = recent ++ older ∧ store.Accounts base recent before.state) :
    ∃ recent, after.trace = recent ++ older ∧ store.Accounts base recent after.state := by
  obtain ⟨earlier, trace, accounts⟩ := accounts
  obtain ⟨later, grown, accountsAgain⟩ := follows
  refine ⟨later ++ earlier, ?_, accounts.append accountsAgain⟩
  rw [grown, trace, List.append_assoc]

theorem Reached.accounts {world : World S Action (Action alphabet)}
    (reached : store.Reached base older world) :
    ∃ recent, world.trace = recent ++ older ∧ store.Accounts base recent world.state := by
  have tolerant := store.follows_tolerant
  induction reached with
  | installed state keeper wallClock => exact ⟨[], rfl, .nil state⟩
  | started depth loop _ _ =>
      rw [store.start_eq]
      refine (store.launch_keeps (store.engine_keeps depth) _ _).accounts ?_
      exact ⟨[.committed loop.state], rfl, .commit rfl fun _ => List.not_mem_nil⟩
  | dispatched depth action _ ih => exact ((store.engine_keeps depth).dispatch action _).accounts ih
  | launched depth cmd _ ih =>
      exact (store.launch_keeps (store.engine_keeps depth) cmd _).accounts ih
  | called depth program _ ih =>
      exact (Prompt.run_keeps tolerant (store.engine_keeps depth) program _).accounts ih
  | polled depth waiter pending _ ih =>
      exact (Pending.poll_keeps tolerant (store.engine_keeps depth) waiter pending _).accounts ih
  | changed _ same ih => exact (store.follows_of_sameRecord same).accounts ih

/-- No update is lost.  In every world that a run of a store leads to, the events since the last
start account for the state: it is what the reducer makes of the actions told since then, in their
order, and so is every state committed on the way.  A dispatch to a store that is open is told and
committed whatever becomes of its command. -/
theorem replay_of_reached {world : World S Action (Action alphabet)}
    (reached : store.Reached base older world) :
    (∃ recent, world.trace = recent ++ older ∧
      world.state = (told recent).foldl store.reducer.model base ∧
      ∀ earlier kept, .committed kept :: earlier <:+ recent →
        kept = (told earlier).foldl store.reducer.model base) ∧
      ∀ depth action loop, world.isOpen → (store.reducer world.state action).value = .ok loop →
        ∃ later receipt,
          (((Host.store store).engine (depth + 1)).dispatch action world).2.trace =
            later ++ .committed loop.state :: receipt ++ world.trace ∧ told receipt = [action] := by
  constructor
  · obtain ⟨recent, trace, accounts⟩ := reached.accounts
    exact ⟨recent, trace, accounts.replayed, accounts.committed⟩
  · intro depth action loop isOpen answered
    obtain ⟨later, grown, -⟩ := store.launch_keeps (store.engine_keeps depth) loop.lift.2
      { store.received action world with
        state := loop.state, trace := .committed loop.state :: (store.received action world).trace }
    refine ⟨later, store.receipt world.state action, ?_, store.told_receipt world.state action⟩
    rw [store.engine_dispatch_of_isOpen depth action isOpen, store.dispatch_of_ok _ answered,
      store.start_eq, grown]
    simp [received]

/-- A store that adds up numbers.  The command of a seven fails when it is called; every other number
is followed by a seven. -/
def tallying : Store Nat (fun _ : Unit => Nat) () where
  reducer state action :=
    pure (.ok (.withCmd (state + action)
      (if action = 7 then
        .run ⟨fun _ => .done (.ready (.error (.message "broken"))), [], none, none, false⟩
      else .action 7)))
  options := .default
  observer := .silent

/-- A world in which the tallying store was given a one, and what that causes was polled. -/
def tallied : World Nat (fun _ : Unit => Nat) Nat :=
  let engine := (Host.store tallying).engine 2
  let caused : FollowUp Nat (fun _ : Unit => Nat) Nat () := .now [7]
  let world := (engine.dispatch 1 (.initial 5 (.virtual .initial) (.int 0))).2
  (caused.settle.poll engine ⟨0, []⟩ world).2

theorem reached_tallied : tallying.Reached 5 [] tallied :=
  .polled 2 _ _ (.dispatched 2 1 (.installed 5 _ _))

/-- The seven that follows the one is kept although its command fails, and so is a further one. -/
theorem replay_of_reached_tallied :
    (∃ recent, tallied.trace = recent ++ [] ∧
      13 = (told recent).foldl tallying.reducer.model 5) ∧
      ∃ later receipt,
        (((Host.store tallying).engine 1).dispatch 7 tallied).2.trace =
          later ++ .committed 20 :: receipt ++ tallied.trace ∧ told receipt = [7] := by
  obtain ⟨⟨recent, trace, replayed, -⟩, dispatched⟩ := replay_of_reached reached_tallied
  have state : tallied.state = 13 := by decide +kernel
  refine ⟨⟨recent, trace, state ▸ replayed⟩, ?_⟩
  have isOpen : tallied.isOpen := by decide +kernel
  exact dispatched 0 7 (.withCmd 20 (.run _)) isOpen (by rw [state]; rfl)

end Store

end EffectLoop
