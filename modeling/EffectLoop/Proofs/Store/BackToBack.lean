import Mathlib.Data.List.Induction
import EffectLoop.Proofs.World.Awaiting
import EffectLoop.Proofs.Store.Thread
import EffectLoop.Proofs.Store.Transcript
import EffectLoop.Proofs.Store.Work

/-!
# Actions that are reduced back to back

A store that is given several actions at once reduces them one after the other, and starts the command of
each before it reduces the next.  As long as no function sends anything in its call, nothing comes in
between: the actions told are the ones given, and what a function reads in its call is the state after its
own action, whatever follows (`Store.dispatches_back_to_back`).  A command that fails at once does not keep
the actions behind it from being dispatched; it only shows in the result.
-/

namespace EffectLoop

variable {S ι : Type} {Action : ι → Type} {A B α β : Type} {alphabet : ι}

/-! ## Calls that send nothing -/

/-- The reply to an effect when the host's state is known. -/
def Primitive.found (state : S) : (effect : Primitive) → effect.Reply S → effect.Reply S
  | .readState, _ => state
  | .note _, reply => reply
  | .log _, reply => reply
  | .setGate _ _, reply => reply
  | .clear _, reply => reply
  | .inspect, reply => reply
  | .wallClock, reply => reply
  | .deadline _, reply => reply
  | .forget _, reply => reply
  | .skip, reply => reply

namespace Prompt

/-- The same call, to which every reading of the state answers with the given one. -/
def finding (state : S) : Prompt S Action A α → Prompt S Action A α
  | done value => .done value
  | call effect next => .call effect fun reply => (next (effect.found state reply)).finding state
  | send action keep next => .send action keep (next.finding state)
  | schedule delay repeating task next =>
      .schedule delay repeating task fun handle => (next handle).finding state
  | spawn task next => .spawn task (next.finding state)

/-- The call sends nothing in the given state.  What it spawns, schedules or hands back may. -/
def Sendless (state : S) : Prompt S Action A α → Prop
  | done _ => True
  | call effect next => ∀ reply, (next (effect.found state reply)).Sendless state
  | send _ _ _ => False
  | schedule _ _ _ next => ∀ handle, (next handle).Sendless state
  | spawn _ next => next.Sendless state

namespace Sendless

variable {state : S}

theorem bind {first : Prompt S Action A α} {after : α → Prompt S Action A β}
    (sendless : first.Sendless state) (goesOn : ∀ value, (after value).Sendless state) :
    (first >>= after).Sendless state := by
  change (first.bind after).Sendless state
  induction first with
  | done value => exact goesOn value
  | call effect next ih => exact fun reply => ih _ (sendless reply)
  | send action keep next ih => exact sendless.elim
  | schedule delay repeating task next ih => exact fun handle => ih handle (sendless handle)
  | spawn task next ih => exact ih sendless

theorem retag {tagger : A → Noted B} {first : Prompt S Action A α} (sendless : first.Sendless state) :
    (first.retag tagger).Sendless state := by
  induction first with
  | done value => exact trivial
  | call effect next ih => exact fun reply => ih _ (sendless reply)
  | send action keep next ih => exact sendless.elim
  | schedule delay repeating task next ih => exact fun handle => ih handle (sendless handle)
  | spawn task next ih => exact ih sendless

theorem mapM_id {programs : List (Prompt S Action A α)}
    (each : ∀ program ∈ programs, program.Sendless state) : (programs.mapM id).Sendless state := by
  induction programs with
  | nil => exact trivial
  | cons program rest ih =>
      rw [List.mapM_cons]
      apply bind (each program (List.mem_cons_self ..))
      intro value
      apply bind (ih fun other among => each other (List.mem_cons_of_mem _ among))
      exact fun _ => trivial

theorem ofNoted (found : Noted α) : (Prompt.ofNoted found : Prompt S Action A α).Sendless state := by
  rw [Prompt.ofNoted]
  induction found.notes with
  | nil => exact trivial
  | cons value rest ih => exact fun _ => ih

/-- What a call is told of the state is the state. -/
theorem found_eq {effect : Primitive} {reply : effect.Reply S} {world middle : World S Action A}
    (answered : Run.perform effect world = (.ok reply, middle)) :
    effect.found world.state reply = reply := by
  cases effect with
  | readState =>
      cases answered
      rfl
  | _ => rfl

/-- After a beginning that leaves the state alone, two computations that do the same in that state. -/
theorem bind_congr {first : Run S Action A α} {left right : α → Run S Action A β}
    {world : World S Action A}
    (keeps : Run.Keeps World.Lull first)
    (same : ∀ value middle, first world = (.ok value, middle) → middle.state = world.state →
      left value middle = right value middle) : (first >>= left) world = (first >>= right) world := by
  have kept := (keeps world).2.1
  rcases answered : first world with ⟨result, middle⟩
  rw [answered] at kept
  cases result with
  | error halt => rw [Run.bind_of_error answered, Run.bind_of_error answered]
  | ok value =>
      rw [Run.bind_of_ok answered, Run.bind_of_ok answered]
      exact same value middle answered kept

/-- A call that sends nothing does not depend on what becomes of dispatched actions, and what it reads is
the state in which it begins. -/
theorem run_finding {program : Prompt S Action A α} {world : World S Action A}
    (sendless : program.Sendless world.state) (engine other : Engine S Action A) :
    (program.finding world.state).run engine world = program.run other world := by
  have tolerant : Tolerant (World.Lull : World S Action A → World S Action A → Prop) :=
    World.lull_tolerant
  induction program generalizing world with
  | done value => rfl
  | call effect next ih =>
      apply bind_congr (Run.perform_keeps tolerant effect)
      intro reply middle answered kept
      have rest := sendless reply
      dsimp only
      rw [found_eq answered, ← kept] at rest ⊢
      exact ih reply rest
  | send action keep next ih => exact sendless.elim
  | schedule delay repeating task next ih =>
      apply bind_congr (Run.schedule_keeps tolerant delay repeating task)
      intro handle middle _ kept
      have rest := sendless handle
      rw [← kept] at rest ⊢
      exact ih handle rest
  | spawn task next ih =>
      apply bind_congr (Run.spawn_keeps tolerant task)
      intro _ middle _ kept
      have rest : next.Sendless world.state := sendless
      rw [← kept] at rest ⊢
      exact ih rest

/-- A call that sends nothing leaves the state alone and tells no action. -/
theorem lull {program : Prompt S Action A α} {world : World S Action A}
    (sendless : program.Sendless world.state) (engine : Engine S Action A) :
    World.Lull world (program.run engine world).2 := by
  let mute : Engine S Action A := ⟨fun _ => throw .exhausted, fun _ _ => throw .exhausted⟩
  have keeps : mute.Keeps World.Lull :=
    ⟨fun _ => .throw World.lull_tolerant _, fun _ _ => .throw World.lull_tolerant _⟩
  rw [← sendless.run_finding engine engine, sendless.run_finding engine mute]
  exact Prompt.run_keeps World.lull_tolerant keeps program world

end Sendless

end Prompt

/-- The functions that are called when the command is started send nothing in their calls, if the state is
the given one. -/
def Cmd.Reticent (state : S) : {alphabet : ι} → Cmd S Action alphabet → Prop
  | _, .none => True
  | _, .action _ => True
  | _, .run spec => (spec.func spec.args).Sendless state
  | _, .list cmds false _ => ∀ index, (cmds index).Reticent state
  | _, .list cmds true _ => ∀ index, index.val = 0 → (cmds index).Reticent state
  | _, .map nested _ _ => nested.Reticent state
  | _, .scheduled _ _ _ _ => True

namespace Prompt.Sendless

variable {state : S}

theorem ofAction (found : Noted (Option (Action alphabet))) :
    (Verdict.ofAction found : Prompt S Action A (Verdict S Action A alphabet)).Sendless state := by
  rw [Verdict.ofAction]
  apply bind (ofNoted found)
  intro value
  cases value <;> exact trivial

theorem executeSpec {spec : RunSpec S Action (Action alphabet)} (options : Options)
    (sendless : (spec.func spec.args).Sendless state) : (spec.execute options).Sendless state := by
  rw [RunSpec.execute]
  apply bind sendless
  intro output
  rcases output with ⟨cause | value⟩ | later
  · dsimp only [RunSpec.executeReady]
    split
    · exact bind (fun _ => trivial) fun _ => ofAction _
    · exact bind (fun _ => trivial) fun _ => trivial
  · exact ofAction _
  · dsimp only [RunSpec.executeDeferred]
    split
    · exact ofAction _
    · exact trivial

theorem execute {cmd : Cmd S Action alphabet} (options : Options) (reticent : cmd.Reticent state) :
    (cmd.execute options).Sendless state := by
  induction cmd with
  | none => exact trivial
  | action sent => exact trivial
  | run spec => exact executeSpec options reticent
  | @list alphabet count cmds sequence batch ih =>
      cases sequence with
      | false =>
          rw [Cmd.execute, startTogether]
          apply bind
          · apply mapM_id
            intro program among
            rcases List.mem_ofFn.1 among with ⟨index, rfl⟩
            exact ih index (reticent index)
          · intro verdicts
            split <;> exact trivial
      | true =>
          cases count with
          | zero => exact trivial
          | succ count =>
              rw [Cmd.execute, List.ofFn_succ, startInOrder]
              exact bind (ih 0 (reticent 0 rfl)) fun _ => trivial
  | map nested tagger args ih =>
      rw [Cmd.execute]
      apply bind (retag (ih reticent))
      intro verdict
      rcases verdict with cause | _ | follow <;> exact trivial
  | scheduled nested delay repeating onScheduled _ =>
      intro handle reply
      cases onScheduled with
      | none => exact trivial
      | some creator => exact ofAction _

end Prompt.Sendless

/-! ## One action -/

/-- From one world to the other the store was told these actions, and it is open if it was open. -/
def World.Tells (actions : List A) (before after : World S Action A) : Prop :=
  after.isOpen = before.isOpen ∧
    ∃ recent, after.trace = recent ++ before.trace ∧ told recent = actions

theorem World.Tells.trans {first second : List A} {before middle after : World S Action A}
    (earlier : before.Tells first middle) (later : middle.Tells second after) :
    before.Tells (first ++ second) after := by
  rcases earlier with ⟨sameOpen, recent, grown, rfl⟩
  rcases later with ⟨openAgain, further, grownAgain, rfl⟩
  refine ⟨openAgain.trans sameOpen, further ++ recent, ?_, told_append further recent⟩
  rw [grownAgain, grown, List.append_assoc]

namespace Store

variable (store : Store S Action alphabet) (engine : Engine S Action (Action alphabet))

/-- The world in which the command of an action is started: the action was received, the state that the
reducer answers was committed, and the observer was told of the command. -/
def entering (action : Action alphabet) (loop : Loop S Action alphabet)
    (world : World S Action (Action alphabet)) : World S Action (Action alphabet) :=
  { store.received action world with
    state := loop.state
    trace := (store.shown loop.lift.2.effects).reverse ++
      .committed loop.state :: (store.received action world).trace }

/-- A dispatch of an action is answered.  Its command is started in the state `model`, which is also what
its functions read in their calls; besides the action itself nothing is reduced. -/
inductive Dispatched (action : Action alphabet) (model : S) (world : World S Action (Action alphabet)) :
    Settling S Action (Action alphabet) → World S Action (Action alphabet) → Prop where
  | intro {loop verdict after} : (store.reducer world.state action).value = .ok loop →
      loop.state = model →
      (loop.lift.2.execute store.options).run engine (store.entering action loop world) =
        (.ok verdict, after) →
      ((loop.lift.2.execute store.options).finding model).run engine
        (store.entering action loop world) = (.ok verdict, after) →
      World.Lull (store.entering action loop world) after →
      Dispatched action model world verdict.settle after

/-- A dispatch of an action halts: the reducer refuses it, or a function of its command halts in its
call. -/
inductive Halted (action : Action alphabet) (world : World S Action (Action alphabet)) :
    Halt → World S Action (Action alphabet) → Prop where
  | refused {refused} : (store.reducer world.state action).value = .error refused →
      Halted action world (.panic refused.message) (store.received action world)
  | broken {loop halt later} : (store.reducer world.state action).value = .ok loop →
      (loop.lift.2.execute store.options).run engine (store.entering action loop world) =
        (.error halt, later) → Halted action world halt later

variable {store engine} {action : Action alphabet} {loop : Loop S Action alphabet}
variable {world : World S Action (Action alphabet)}

theorem tells_entering : world.Tells [action] (store.entering action loop world) := by
  have shown : told (store.shown loop.lift.2.effects).reverse = [] := by
    rw [told_eq, observations, List.reverse_reverse, shown_observations, effects_actions]
  refine ⟨rfl, (store.shown loop.lift.2.effects).reverse ++
    .committed loop.state :: store.receipt world.state action, ?_, ?_⟩
  · simp [entering, received]
  · rw [told_append, shown, List.append_nil]
    change told ([.committed loop.state] ++ store.receipt world.state action) = [action]
    rw [told_append, told_receipt]
    rfl

theorem Dispatched.tells {model : S} {reply : Settling S Action (Action alphabet)}
    {after : World S Action (Action alphabet)}
    (dispatched : store.Dispatched engine action model world reply after) :
    world.Tells [action] after ∧ after.state = model := by
  rcases dispatched with ⟨_, rfl, _, _, sameOpen, sameState, recent, grown, nothing⟩
  have rest : World.Tells [] (store.entering action _ world) after := ⟨sameOpen, recent, grown, nothing⟩
  exact ⟨tells_entering.trans rest, sameState⟩

/-- A command is told and started; one that is empty is neither. -/
theorem launch_eq (cmd : Cmd S Action alphabet) (world : World S Action (Action alphabet)) :
    store.launch engine cmd world =
      (Verdict.settle <$> (cmd.execute store.options).run engine)
        { world with trace := (store.shown cmd.effects).reverse ++ world.trace } := by
  by_cases isNone : cmd.isNone
  · rw [launch, if_pos isNone, Cmd.effects, if_pos isNone]
    cases cmd with
    | none => rfl
    | _ => exact absurd isNone Bool.false_ne_true
  · have told : store.observe (.effect cmd.kind) world =
        (.ok (), { world with trace := (store.shown cmd.effects).reverse ++ world.trace }) := by
      rw [observe_eq, Cmd.effects, if_neg isNone]
      simp [shown]
    rw [launch, if_neg isNone, Run.bind_of_ok told, map_eq_pure_bind]
    refine congrFun (congrArg (_ >>= ·) (funext fun verdict => ?_)) _
    rcases verdict with cause | _ | follow <;> rfl

theorem dispatch_eq_entering (answered : (store.reducer world.state action).value = .ok loop) :
    store.dispatch engine action world =
      (Verdict.settle <$> (loop.lift.2.execute store.options).run engine)
        (store.entering action loop world) := by
  rw [store.dispatch_of_ok engine answered, store.start_eq, launch_eq]
  rfl

/-- The functions that are called when the commands of the actions are started, one after the other, send
nothing in their calls. -/
def Reticent (store : Store S Action alphabet) (state : S) (actions : List (Action alphabet)) : Prop :=
  ∀ earlier action later loop, actions = earlier ++ action :: later →
    (store.reducer (earlier.foldl store.reducer.model state) action).value = .ok loop →
    loop.lift.2.Reticent loop.state

theorem Reticent.prefix {state : S} {first second : List (Action alphabet)}
    (reticent : store.Reticent state (first ++ second)) : store.Reticent state first := by
  intro earlier action later loop split answered
  refine reticent earlier action (later ++ second) loop ?_ answered
  rw [split, List.append_assoc, List.cons_append]

theorem dispatch_cases (isOpen : world.isOpen) (depth : Nat) (action : Action alphabet)
    (reticent : ∀ loop, (store.reducer world.state action).value = .ok loop →
      loop.lift.2.Reticent loop.state) :
    (∃ reply after,
      ((Host.store store).engine (depth + 1)).dispatch action world = (.ok reply, after) ∧
        store.Dispatched ((Host.store store).engine depth) action (store.reducer.model world.state action)
          world reply after) ∨
    ∃ halt later,
      ((Host.store store).engine (depth + 1)).dispatch action world = (.error halt, later) ∧
        store.Halted ((Host.store store).engine depth) action world halt later := by
  rw [store.engine_dispatch_of_isOpen depth action isOpen]
  cases answered : (store.reducer world.state action).value with
  | error refused => exact .inr ⟨_, _, store.dispatch_of_error _ answered, .refused answered⟩
  | ok loop =>
      rw [dispatch_eq_entering answered]
      have model : store.reducer.model world.state action = loop.state := by
        rw [Reducer.model, answered]
      have sendless : ((loop.lift.2.execute store.options).Sendless
          (store.entering action loop world).state) := .execute store.options (reticent loop answered)
      have finding := sendless.run_finding ((Host.store store).engine depth)
        ((Host.store store).engine depth)
      have lull := sendless.lull ((Host.store store).engine depth)
      rcases ran : (loop.lift.2.execute store.options).run ((Host.store store).engine depth)
        (store.entering action loop world) with ⟨verdict | verdict, after⟩
      · refine .inr ⟨_, _, ?_, .broken answered ran⟩
        exact Run.bind_of_error ran
      · rw [ran] at finding lull
        rw [model]
        refine .inl ⟨_, _, ?_, .intro answered rfl ran finding lull⟩
        exact Run.bind_of_ok ran

/-! ## Several actions -/

variable (store) in
/-- The actions are dispatched one after the other, each in the world that the ones before it leave.
Nothing else is reduced meanwhile; each of them is answered, and its command is started in the state that
the reducer makes of the actions up to it. -/
structure BackToBack (depth : Nat) (actions : List (Action alphabet))
    (world : World S Action (Action alphabet)) (caused : List (Settling S Action (Action alphabet)))
    (after : World S Action (Action alphabet)) : Prop where
  tells : world.Tells actions after
  state : after.state = actions.foldl store.reducer.model world.state
  answered : caused.length = actions.length
  each : ∀ index (inside : index < actions.length), ∃ reached reply later,
    (actions.take index).mapM ((Host.store store).engine (depth + 1)).dispatch world =
      (.ok (caused.take index), reached) ∧
    world.Tells (actions.take index) reached ∧ caused[index]? = some reply ∧
    ((Host.store store).engine (depth + 1)).dispatch actions[index] reached = (.ok reply, later) ∧
    store.Dispatched ((Host.store store).engine depth) actions[index]
      ((actions.take (index + 1)).foldl store.reducer.model world.state) reached reply later

variable (store) in
/-- The dispatch of one of the actions halts; those before it were dispatched back to back. -/
def Interrupted (depth : Nat) (actions : List (Action alphabet))
    (world : World S Action (Action alphabet)) (halt : Halt)
    (later : World S Action (Action alphabet)) : Prop :=
  ∃ earlier action rest caused reached, actions = earlier ++ action :: rest ∧
    earlier.mapM ((Host.store store).engine (depth + 1)).dispatch world = (.ok caused, reached) ∧
    store.BackToBack depth earlier world caused reached ∧
    store.Halted ((Host.store store).engine depth) action reached halt later

theorem BackToBack.nil (depth : Nat) (world : World S Action (Action alphabet)) :
    store.BackToBack depth [] world [] world where
  tells := ⟨rfl, [], rfl, rfl⟩
  state := rfl
  answered := rfl
  each index inside := absurd inside (Nat.not_lt_zero index)

theorem BackToBack.snoc {depth : Nat} {actions : List (Action alphabet)}
    {caused : List (Settling S Action (Action alphabet))}
    {reply : Settling S Action (Action alphabet)} {reached after : World S Action (Action alphabet)}
    (before : store.BackToBack depth actions world caused reached)
    (ran : actions.mapM ((Host.store store).engine (depth + 1)).dispatch world = (.ok caused, reached))
    (replied : ((Host.store store).engine (depth + 1)).dispatch action reached = (.ok reply, after))
    (dispatched : store.Dispatched ((Host.store store).engine depth) action
      (store.reducer.model reached.state action) reached reply after) :
    store.BackToBack depth (actions ++ [action]) world (caused ++ [reply]) after where
  tells := before.tells.trans dispatched.tells.1
  state := by
    rw [dispatched.tells.2, before.state, List.foldl_append]
    rfl
  answered := by rw [List.length_append, List.length_append, before.answered]; rfl
  each index inside := by
    rw [List.length_append, List.length_singleton] at inside
    rcases Nat.lt_succ_iff_lt_or_eq.1 inside with below | rfl
    · rcases before.each index below with ⟨earlier, caught, later, rest⟩
      have among : index < caused.length := before.answered ▸ below
      rw [List.take_append_of_le_length below.le, List.take_append_of_le_length below,
        List.take_append_of_le_length among.le, List.getElem_append_left below,
        List.getElem?_append_left among]
      exact ⟨earlier, caught, later, rest⟩
    · refine ⟨reached, reply, after, ?_, ?_, ?_, ?_, ?_⟩
      · rw [List.take_left, ← before.answered, List.take_left]
        exact ran
      · rw [List.take_left]
        exact before.tells
      · rw [← before.answered, List.getElem?_concat_length]
      · rw [List.getElem_concat_length rfl]
        exact replied
      · rw [List.getElem_concat_length rfl, List.take_of_length_le (by simp), List.foldl_append,
          ← before.state]
        exact dispatched

/-- Whatever the actions are, they are dispatched back to back, up to the first dispatch that halts. -/
theorem mapM_dispatch_cases (depth : Nat) (actions : List (Action alphabet)) (isOpen : world.isOpen)
    (reticent : store.Reticent world.state actions) :
    (∃ caused after,
      actions.mapM ((Host.store store).engine (depth + 1)).dispatch world = (.ok caused, after) ∧
        store.BackToBack depth actions world caused after) ∨
    ∃ halt later,
      actions.mapM ((Host.store store).engine (depth + 1)).dispatch world = (.error halt, later) ∧
        store.Interrupted depth actions world halt later := by
  induction actions using List.reverseRecOn with
  | nil => exact .inl ⟨[], world, rfl, .nil depth world⟩
  | append_singleton actions action ih =>
      rw [List.mapM_append]
      rcases ih reticent.prefix with ⟨caused, reached, ran, before⟩ | ⟨halt, later, ran, interrupted⟩
      · have quiet : ∀ loop, (store.reducer reached.state action).value = .ok loop →
            loop.lift.2.Reticent loop.state := by
          rw [before.state]
          exact fun loop => reticent actions action [] loop rfl
        have stillOpen : reached.isOpen := before.tells.1.trans isOpen
        rw [Run.bind_of_ok ran]
        rcases dispatch_cases stillOpen depth action quiet with
          ⟨reply, after, replied, dispatched⟩ | ⟨halt, later, halted, broken⟩
        · refine .inl ⟨caused ++ [reply], after, ?_, before.snoc ran replied dispatched⟩
          rw [List.mapM_cons, LawfulMonad.bind_assoc, Run.bind_of_ok replied]
          rfl
        · refine .inr ⟨halt, later, ?_, actions, action, [], caused, reached, rfl, ran, before, broken⟩
          rw [List.mapM_cons, LawfulMonad.bind_assoc, Run.bind_of_error halted]
      · refine .inr ⟨halt, later, Run.bind_of_error ran, ?_⟩
        rcases interrupted with ⟨earlier, culprit, rest, caused, reached, rfl, prior, before, broken⟩
        exact ⟨earlier, culprit, rest ++ [action], caused, reached, by simp, prior, before, broken⟩

theorem mapM_start_pure (engine : Engine S Action (Action alphabet)) (actions : List (Action alphabet)) :
    (actions.map pure).mapM engine.start = actions.mapM engine.dispatch := by
  rw [List.mapM_map]
  rfl

/-- Actions that are given to the dispatcher of a store together are reduced back to back, as long as the
functions that are called meanwhile send nothing in their calls: in whatever world their dispatch begins,
they are all dispatched, whatever comes of the ones before, unless the reducer refuses one or a function
halts.  One poll that answers is enough for that.  What they cause is polled from then on, whoever polls it
and whatever happens in between, and there is a result only when all of it is over: the failure of the first
action that failed, if there is one. -/
theorem dispatches_back_to_back (store : Store S Action alphabet) (actions : List (Action alphabet)) :
    (∀ (world : World S Action (Action alphabet)) (depth : Nat), world.isOpen →
      store.Reticent world.state actions →
      (∃ caused after,
        (actions.map pure).mapM (Engine.ofDispatch (Host.store store).dispatch (depth + 1)).start world =
          (.ok caused, after) ∧ store.BackToBack depth actions world caused after) ∨
      ∃ halt later,
        (actions.map pure).mapM (Engine.ofDispatch (Host.store store).dispatch (depth + 1)).start world =
          (.error halt, later) ∧ store.Interrupted depth actions world halt later) ∧
    ∀ (env : World S Action (Action alphabet) → World S Action (Action alphabet) → Prop) world left later,
      Driven (Host.store store).dispatch env
        (.sendAll (actions.map pure) fun result => .done result, world)
        (left, later) →
      Pending.Stands (Host.store store).dispatch env (actions.map pure) world left later ∧
        ∀ depth waiter next after,
          left.poll (.ofDispatch (Host.store store).dispatch depth) waiter later = (.ok next, after) →
            ¬next.Held := by
  constructor
  · intro world depth isOpen reticent
    rw [mapM_start_pure, ← Host.engine_eq_ofDispatch]
    exact mapM_dispatch_cases depth actions isOpen reticent
  · intro env world left later driven
    exact Pending.stands_of_driven driven

/-- A store that adds up numbers.  The command of each of them calls a function that reads the sum, which
fails if it is three. -/
def wary : Store Nat (fun _ : Unit => Nat) () where
  reducer state action :=
    pure (.ok (.withCmd (state + action) (.run {
      func _ := .call .readState fun sum =>
        .done (.ready (if sum = 3 then .error (.message "three") else .ok .null))
      args := [.getState]
      onSuccess := none
      onFail := none
      forceSync := false })))
  options := .default
  observer := .silent

theorem wary_reticent (state : Nat) (actions : List Nat) : wary.Reticent state actions := by
  intro earlier action later loop _ answered
  cases answered
  exact fun _ => trivial

/-- The second of three numbers makes three, so its function fails; the third one is dispatched all the
same, and the result is a failure. -/
theorem wary_back_to_back :
    let fresh : World Nat (fun _ : Unit => Nat) Nat := .initial 0 (.virtual .initial) (.int 0)
    fresh.isOpen ∧ wary.Reticent fresh.state [1, 2, 3] ∧
      (∃ caused after, wary.BackToBack 0 [1, 2, 3] fresh caused after) ∧
      ∃ cause later,
        Pending.Stands (Host.store wary).dispatch (fun _ _ => False) [pure 1, pure 2, pure 3] fresh
          (.done (.error cause)) later := by
  intro fresh
  let program : Settling Nat (fun _ : Unit => Nat) Nat :=
    .sendAll [pure 1, pure 2, pure 3] fun result => .done result
  let polled := program.poll (.ofDispatch (Host.store wary).dispatch 2) ⟨0, []⟩ fresh
  have failed : (match polled.1 with
      | .ok left => left.result?.any (!·.toBool)
      | .error _ => false) = true := by decide +kernel
  have reticent := wary_reticent fresh.state [1, 2, 3]
  rcases dispatches_back_to_back wary [1, 2, 3] with ⟨account, awaits⟩
  refine ⟨rfl, reticent, ?_, ?_⟩
  · rcases account fresh 0 rfl reticent with ⟨caused, after, _, backToBack⟩ | ⟨halt, later, halted, _⟩
    · exact ⟨caused, after, backToBack⟩
    · cases halted
  · rcases answered : polled with ⟨halt | left, later⟩
    · rw [answered] at failed
      cases failed
    · rw [answered] at failed
      have shown : left.result?.any (!·.toBool) = true := failed
      rcases shows : left.result? with _ | cause | done
      · rw [shows] at shown
        cases shown
      · rw [Pending.result?_eq_some_iff.1 shows] at answered
        have driven : Driven (Host.store wary).dispatch (fun _ _ => False) _ _ :=
          .single (.poll 2 ⟨0, []⟩ answered)
        exact ⟨cause, later, (awaits (fun _ _ => False) fresh _ _ driven).1⟩
      · rw [shows] at shown
        cases shown

end Store

end EffectLoop
