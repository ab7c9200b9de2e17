import EffectLoop.Proofs.Store.Replay
import EffectLoop.Proofs.World.Rounds

/-!
# What a store does in a row

Functions that send nothing, and actions that are answered with bare states, leave nothing pending.  What
becomes of a store through them is a *thread*: calls with their outcomes, and actions that are reduced,
one after the other.

`Store.Performs` describes a computation by the thread that it goes along, whether it answers or halts;
it halts only where one of the functions does.
-/

namespace EffectLoop

variable {S ι : Type} {Action : ι → Type} {A α β : Type} {alphabet : ι}

/-! ## Threads -/

/-- The outcome of a RUN function, if it is known in the call. -/
def RunResult.outcome? : RunResult S Action A → Option (Except RunFailure Json)
  | ready outcome => some outcome
  | deferred _ => none

/-- What a RUN function does in the call, with its outcome if that is known then. -/
abbrev Callee (S : Type) {ι : Type} (Action : ι → Type) (A : Type) :=
  Prompt S Action A (Option (Except RunFailure Json))

/-- A call of a RUN function, and its outcome. -/
structure Call (S : Type) {ι : Type} (Action : ι → Type) (A : Type) where
  function : Callee S Action A
  outcome : Except RunFailure Json

namespace World

/-- The state is the same, no action was told, and the store is open if it was open. -/
def Lull (before after : World S Action A) : Prop :=
  after.isOpen = before.isOpen ∧ after.state = before.state ∧
    ∃ recent, after.trace = recent ++ before.trace ∧ told recent = []

theorem lull_tolerant : Tolerant (Lull : World S Action A → World S Action A → Prop) where
  refl _ := ⟨rfl, rfl, [], rfl, rfl⟩
  trans := by
    intro first second third before after
    rcases before with ⟨sameOpen, sameState, recent, grown, nothing⟩
    rcases after with ⟨openAgain, stateAgain, later, grownAgain, nothingAgain⟩
    refine ⟨openAgain.trans sameOpen, stateAgain.trans sameState, later ++ recent, ?_, ?_⟩
    · rw [grownAgain, grown, List.append_assoc]
    · rw [told_append, nothing, nothingAgain, List.append_nil]
  sameFront same := ⟨same.2.2, same.1, [], same.2.1, rfl⟩
  note _ value := ⟨rfl, rfl, [.note value], rfl, rfl⟩
  log _ entry := ⟨rfl, rfl, [.log entry], rfl, rfl⟩

/-- The rallies of the tickets below `floor` stay as they are, and no new ticket will be one of them. -/
structure Spares (floor : Nat) (before after : World S Action A) : Prop where
  fresh : floor ≤ after.nextTicket
  same : ∀ ticket < floor, after.rally? ticket = before.rally? ticket

namespace Spares

variable {floor lower : Nat} {first second third : World S Action A}

theorem refl (fresh : floor ≤ first.nextTicket) : Spares floor first first :=
  ⟨fresh, fun _ _ => rfl⟩

theorem trans (before : Spares floor first second) (after : Spares floor second third) :
    Spares floor first third :=
  ⟨after.fresh, fun ticket below => (after.same ticket below).trans (before.same ticket below)⟩

theorem mono (spares : Spares floor first second) (le : lower ≤ floor) : Spares lower first second :=
  ⟨le.trans spares.fresh, fun ticket below => spares.same ticket (below.trans_le le)⟩

end Spares

end World

namespace Store

variable (store : Store S Action alphabet)

/-- Whatever the state is, the reducer answers the action with a bare state. -/
def Bare (action : Action alphabet) : Prop :=
  ∀ state, ∃ model, (store.reducer state action).value = .ok (.model model)

/-- The world after an action that was answered with a bare state. -/
def reduced (action : Action alphabet) (model : S) (world : World S Action (Action alphabet)) :
    World S Action (Action alphabet) :=
  { store.received action world with
    state := model, trace := .committed model :: (store.received action world).trace }

/-- Functions were called, with these outcomes, and actions were reduced, each in its order.  Nothing
may be dispatched by a function.  Besides, only the books of large joins and the trace have changed. -/
inductive Thread : List (Call S Action (Action alphabet)) → List (Action alphabet) →
    World S Action (Action alphabet) → World S Action (Action alphabet) → Prop where
  | called {call : Call S Action (Action alphabet)} {world after} :
      call.function.run ((Host.store store).engine 0) world = (.ok (some call.outcome), after) →
      Thread [call] [] world after
  | reduced {action model world} : (store.reducer world.state action).value = .ok (.model model) →
      Thread [] [action] world (store.reduced action model world)
  | idle {world : World S Action (Action alphabet)} (recent : List (Event S (Action alphabet)))
      (rallies : List (Nat × Rally)) (nextTicket : Nat) : told recent = [] →
      Thread [] [] world { world with trace := recent ++ world.trace, rallies, nextTicket }
  | trans {calls actions more others first second third} : Thread calls actions first second →
      Thread more others second third → Thread (calls ++ more) (actions ++ others) first third

namespace Thread

variable {store} {calls : List (Call S Action (Action alphabet))} {actions : List (Action alphabet)}
variable {before after : World S Action (Action alphabet)}

theorem rest (world : World S Action (Action alphabet)) : store.Thread [] [] world world :=
  .idle [] world.rallies world.nextTicket rfl

theorem setRally (world : World S Action (Action alphabet)) (ticket : Nat) (rally : Rally) :
    store.Thread [] [] world (world.setRally ticket rally) :=
  .idle [] _ world.nextTicket rfl

/-- A thread tells the observer of its actions, and leads to the state that they lead to. -/
theorem replays (thread : store.Thread calls actions before after) :
    after.isOpen = before.isOpen ∧ after.state = actions.foldl store.reducer.model before.state ∧
      ∃ recent, after.trace = recent ++ before.trace ∧ told recent = actions := by
  induction thread with
  | @called call world after answered =>
      have mute : ((Host.store store).engine 0).Keeps World.Lull :=
        ⟨fun _ => .throw World.lull_tolerant _, fun _ _ => .throw World.lull_tolerant _⟩
      have lull := Prompt.run_keeps World.lull_tolerant mute call.function world
      rw [answered] at lull
      exact lull
  | @reduced action model world answered =>
      refine ⟨rfl, ?_, .committed model :: store.receipt world.state action, rfl, ?_⟩
      · simp only [Store.reduced, List.foldl_cons, List.foldl_nil, Reducer.model, answered, Loop.state]
      · change told ([.committed model] ++ store.receipt world.state action) = _
        rw [told_append, told_receipt]
        rfl
  | idle recent rallies nextTicket nothing => exact ⟨rfl, rfl, recent, rfl, nothing⟩
  | trans _ _ earlier later =>
      rcases earlier with ⟨sameOpen, state, recent, grown, told⟩
      rcases later with ⟨openAgain, stateAgain, further, grownAgain, toldAgain⟩
      refine ⟨openAgain.trans sameOpen, ?_, further ++ recent, ?_, ?_⟩
      · rw [List.foldl_append, ← state, stateAgain]
      · rw [grownAgain, grown, List.append_assoc]
      · rw [told_append, told, toldAgain]

end Thread

/-! ## Computations -/

section Computations

variable (functions : Callee S Action (Action alphabet) → Prop)

/-- After a thread one of the functions is called, and halts. -/
def Breaks (world : World S Action (Action alphabet)) (halt : Halt)
    (later : World S Action (Action alphabet)) : Prop :=
  ∃ calls actions middle function, store.Thread calls actions world middle ∧ functions function ∧
    function.run ((Host.store store).engine 0) middle = (.error halt, later)

/-- The computation goes along a thread and answers, or it halts where one of the functions does.  If it
calls none, it spares the rallies below `floor`. -/
inductive Performs (floor : Nat) (computation : Run S Action (Action alphabet) α)
    (world : World S Action (Action alphabet))
    (post : List (Call S Action (Action alphabet)) → List (Action alphabet) → α → Prop) : Prop where
  | answers {calls actions value after} : computation world = (.ok value, after) →
      store.Thread calls actions world after → (calls = [] → World.Spares floor world after) →
      post calls actions value → Performs floor computation world post
  | halts {halt later} : computation world = (.error halt, later) →
      store.Breaks functions world halt later → Performs floor computation world post

/-- The computation does so in every world in which the store is open. -/
def Does (computation : Run S Action (Action alphabet) α)
    (post : List (Call S Action (Action alphabet)) → List (Action alphabet) → α → Prop) : Prop :=
  ∀ world, world.isOpen → ∀ floor ≤ world.nextTicket,
    store.Performs functions floor computation world post

variable {store functions} {floor lower : Nat} {first : Run S Action (Action alphabet) α}
variable {world middle : World S Action (Action alphabet)}
variable {post weaker : List (Call S Action (Action alphabet)) → List (Action alphabet) → α → Prop}
variable {last : List (Call S Action (Action alphabet)) → List (Action alphabet) → β → Prop}

theorem Breaks.after {calls actions} {halt : Halt} {later : World S Action (Action alphabet)}
    (thread : store.Thread calls actions world middle)
    (breaks : store.Breaks functions middle halt later) : store.Breaks functions world halt later := by
  rcases breaks with ⟨more, others, last, function, rest, listed, halted⟩
  exact ⟨_, _, last, function, thread.trans rest, listed, halted⟩

namespace Performs

theorem mono (performs : store.Performs functions floor first world post)
    (implies : ∀ calls actions value, post calls actions value → weaker calls actions value) :
    store.Performs functions floor first world weaker := by
  cases performs with
  | answers answered thread spares holds => exact .answers answered thread spares (implies _ _ _ holds)
  | halts halted breaks => exact .halts halted breaks

/-- Another computation that does the same in this world. -/
theorem congr {other : Run S Action (Action alphabet) α} (same : other world = first world)
    (performs : store.Performs functions floor first world post) :
    store.Performs functions floor other world post := by
  cases performs with
  | answers answered thread spares holds => exact .answers (same.trans answered) thread spares holds
  | halts halted breaks => exact .halts (same.trans halted) breaks

/-- A computation goes on in the world that the first part leaves. -/
theorem bind {next : α → Run S Action (Action alphabet) β}
    (performs : store.Performs functions floor first world post) (isOpen : world.isOpen)
    (le : lower ≤ floor)
    (goesOn : ∀ calls actions value middle, middle.isOpen →
      (calls = [] → World.Spares floor world middle) → post calls actions value →
      store.Performs functions (min lower middle.nextTicket) (next value) middle fun more others =>
        last (calls ++ more) (actions ++ others)) :
    store.Performs functions lower (first >>= next) world last := by
  cases performs with
  | @answers calls actions value middle answered thread spares holds =>
      have same : (first >>= next) world = next value middle := Run.bind_of_ok answered
      have stillOpen : middle.isOpen := thread.replays.1.trans isOpen
      cases goesOn calls actions value middle stillOpen spares holds with
      | answers ended rest sparesAgain final =>
          refine .answers (same.trans ended) (thread.trans rest) ?_ final
          intro none
          rcases List.append_eq_nil_iff.1 none with ⟨early, late⟩
          have kept := (spares early).mono le
          rw [min_eq_left kept.fresh] at sparesAgain
          exact kept.trans (sparesAgain late)
      | halts halted breaks => exact .halts (same.trans halted) (.after thread breaks)
  | halts halted breaks => exact .halts (Run.bind_of_error halted) breaks

/-- After a beginning in which only the books of large joins and the trace change. -/
theorem afterIdle {next : α → Run S Action (Action alphabet) β} {value : α}
    (answered : first world = (.ok value, middle)) (idle : store.Thread [] [] world middle)
    (spares : World.Spares floor world middle)
    (performs : store.Performs functions floor (next value) middle last) :
    store.Performs functions floor (first >>= next) world last := by
  have same : (first >>= next) world = next value middle := Run.bind_of_ok answered
  cases performs with
  | answers ended thread sparesAgain holds =>
      exact .answers (same.trans ended) (idle.trans thread) (fun none => spares.trans (sparesAgain none))
        holds
  | halts halted breaks => exact .halts (same.trans halted) (.after idle breaks)

end Performs

namespace Does

theorem mono (does : store.Does functions first post)
    (implies : ∀ calls actions value, post calls actions value → weaker calls actions value) :
    store.Does functions first weaker :=
  fun world isOpen floor le => (does world isOpen floor le).mono implies

theorem bind {next : α → Run S Action (Action alphabet) β} (does : store.Does functions first post)
    (goesOn : ∀ calls actions value, post calls actions value →
      store.Does functions (next value) fun more others => last (calls ++ more) (actions ++ others)) :
    store.Does functions (first >>= next) last := by
  intro world isOpen floor le
  apply (does world isOpen floor le).bind isOpen le_rfl
  intro calls actions value middle stillOpen _ holds
  exact goesOn calls actions value holds middle stillOpen _ (min_le_right _ _)

/-- The computation only leaves events that tell no action. -/
theorem idle {value : α}
    (recent : World S Action (Action alphabet) → List (Event S (Action alphabet)))
    (answered : ∀ world, first world =
      (.ok value, { world with trace := recent world ++ world.trace }))
    (nothing : ∀ world, told (recent world) = []) (holds : post [] [] value) :
    store.Does functions first post := by
  intro world _ floor le
  exact .answers (answered world) (.idle _ world.rallies world.nextTicket (nothing world))
    (fun _ => ⟨le, fun _ _ => rfl⟩) holds

theorem pure {value : α} (holds : post [] [] value) :
    store.Does functions (Pure.pure value : Run S Action (Action alphabet) α) post :=
  .idle (fun _ => []) (fun _ => rfl) (fun _ => rfl) holds

end Does

end Computations

end Store

end EffectLoop
