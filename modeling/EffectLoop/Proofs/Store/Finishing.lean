import EffectLoop.Proofs.Store.Thread
import EffectLoop.Proofs.World.Driving
import EffectLoop.Proofs.World.Families

/-!
# Programs that one poll finishes

A program *finishes* if a poll takes it to its end along a thread, and goes on from there with whatever
comes after it.  Dispatches of actions that are answered with bare states finish, and so do joins whose
children finish: a small join polls them in order, and a large one takes them out of the queue of its
rally in order and finds no one woken.
-/

namespace EffectLoop

variable {S ι : Type} {Action : ι → Type} {A α : Type} {alphabet : ι} {answer other child : Answer ι}

namespace World

variable (world : World S Action A) (ticket : Nat) (rally : Rally)

theorem spares_setRally {floor : Nat} (above : floor ≤ ticket) (fresh : floor ≤ world.nextTicket) :
    Spares floor world (world.setRally ticket rally) :=
  ⟨fresh, fun _ below => world.rally?_setRally_of_ne ticket rally (by omega)⟩

theorem spares_rallied {floor : Nat} (count : Nat) (fresh : floor ≤ world.nextTicket) :
    Spares floor world (world.rallied count) :=
  ⟨Nat.le_succ_of_le fresh, fun _ below =>
    world.rally?_setRally_of_ne world.nextTicket (.full count) (by omega)⟩

end World

namespace Prompt

theorem run_ofNoted (engine : Engine S Action A) (found : Noted α) :
    (ofNoted found : Prompt S Action A α).run engine = Run.adopt found := by
  rcases found with ⟨notes, value⟩
  funext world
  induction notes generalizing world with
  | nil => rfl
  | cons note rest ih => exact ih (world.emit (.note note))

end Prompt

theorem Pending.withNoted_eq_thenPending (found : Noted α) (next : α → Pending S Action A answer) :
    withNoted found next = (Prompt.ofNoted found).thenPending next := by
  rcases found with ⟨notes, value⟩
  induction notes with
  | nil => rfl
  | cons note rest ih => exact congrArg (fun later => Pending.call (.note note) fun _ => later) ih

/-- A whole goes to the members of a family, stretch by stretch.  Each member's stretch and value are as
its condition says. -/
inductive Portioned {α β : Type} : List (List α → β → Prop) → List α → List β → Prop where
  | nil : Portioned [] [] []
  | cons {post stretch value posts rest values} : post stretch value → Portioned posts rest values →
      Portioned (post :: posts) (stretch ++ rest) (value :: values)

theorem Portioned.concat {α β : Type} {post : List α → β → Prop} {posts : List (List α → β → Prop)}
    {whole stretch : List α} {values : List β} {value : β} (portioned : Portioned posts whole values)
    (holds : post stretch value) :
    Portioned (posts ++ [post]) (whole ++ stretch) (values ++ [value]) := by
  induction portioned with
  | nil =>
      have alone : Portioned [post] (stretch ++ []) [value] := .cons holds .nil
      rw [List.append_nil] at alone
      exact alone
  | cons first _ ih =>
      rw [List.append_assoc]
      exact .cons first ih

/-- The stretches and the values of a family. -/
theorem Portioned.of_ofFn {α β : Type} {count : Nat} {posts : Fin count → List α → β → Prop}
    {whole : List α} {values : List β} (portioned : Portioned (List.ofFn posts) whole values) :
    ∃ (stretches : Fin count → List α) (found : Fin count → β), whole = (List.ofFn stretches).flatten ∧
      values = List.ofFn found ∧ ∀ index, posts index (stretches index) (found index) := by
  induction count generalizing whole values with
  | zero =>
      cases portioned
      exact ⟨fun _ => [], fun index => index.elim0, rfl, rfl, fun index => index.elim0⟩
  | succ count ih =>
      rw [List.ofFn_succ] at portioned
      cases portioned with
      | @cons _ stretch value _ rest values holds others =>
      rcases ih others with ⟨stretches, found, rfl, rfl, each⟩
      refine ⟨Fin.cons stretch stretches, Fin.cons value found, ?_, ?_, ?_⟩
      · rw [List.ofFn_succ, List.flatten_cons]
        rfl
      · rw [List.ofFn_succ]
        rfl
      · intro index
        cases index using Fin.cases with
        | zero => exact holds
        | succ index => exact each index

namespace Store

variable {store : Store S Action alphabet} {functions : Callee S Action (Action alphabet) → Prop}
variable {engine : Engine S Action (Action alphabet)}

/-! ## Rounds of polls -/

section Rounds

variable (store functions) in
/-- The poll calls no function and takes the program to its end; what was reduced and the value are as
the condition says. -/
def Ends (polled : Run S Action (Action alphabet) (Pending S Action (Action alphabet) child))
    (post : List (Action alphabet) → child.Value Action → Prop) : Prop :=
  store.Does functions polled fun calls actions left =>
    calls = [] ∧ ∃ value, left = .done value ∧ post actions value

/-- What a round of polls leaves of a family that ends: its values. -/
def Over (posts : List (List (Action alphabet) → child.Value Action → Prop))
    (before : List (Pending S Action (Action alphabet) child))
    (calls : List (Call S Action (Action alphabet))) (actions : List (Action alphabet))
    (left : List (Pending S Action (Action alphabet) child)) : Prop :=
  calls = [] ∧ ∃ values, left = before ++ values.map .done ∧ Portioned posts actions values

variable {count : Nat} {posts : Fin count → List (Action alphabet) → child.Value Action → Prop}

theorem does_ofFnM
    {each : Fin count → Run S Action (Action alphabet) (Pending S Action (Action alphabet) child)}
    (ends : ∀ index, store.Ends functions (each index) (posts index)) :
    store.Does functions (Vector.ofFnM each) fun calls actions left =>
      Over (List.ofFn posts) [] calls actions left.toList := by
  induction count with
  | zero =>
      rw [Vector.ofFnM_zero]
      exact .pure ⟨rfl, [], rfl, .nil⟩
  | succ count ih =>
      rw [Vector.ofFnM_succ]
      apply (ih fun index => ends index.castSucc).bind
      intro calls actions others round
      apply (ends (Fin.last count)).bind
      intro more further final ended
      apply Does.pure
      rcases round with ⟨none, values, same, portioned⟩
      rcases ended with ⟨noneAgain, value, reached, holds⟩
      refine ⟨by simp [none, noneAgain], values ++ [value], ?_, ?_⟩
      · simp [Vector.toList_push, same, reached]
      · rw [List.ofFn_succ_last, List.append_nil]
        exact portioned.concat holds

section Rally

variable {pollChild : Waiter → Pending S Action (Action alphabet) child →
  Run S Action (Action alphabet) (Pending S Action (Action alphabet) child)}
variable {world : World S Action (Action alphabet)} {ticket : Nat} {finished : List Nat}

/-- The child in front of the queue finishes without a call.  So it is not woken again, and the rallies
of earlier joins are not touched. -/
theorem rallyPoll_front {count : Nat} {children : Vector (Pending S Action (Action alphabet) child) count}
    {post : List (Action alphabet) → child.Value Action → Prop}
    {last : List (Call S Action (Action alphabet)) → List (Action alphabet) →
      Vector (Pending S Action (Action alphabet) child) count → Prop}
    {place : Nat} {queue : List Nat} {remaining fuel : Nat} (waiter : Waiter) (within : place < count)
    (ends : ∀ waiter, store.Ends functions (pollChild waiter children[place]) post)
    (found : world.rally? ticket = some ⟨place :: queue, finished⟩) (isOpen : world.isOpen)
    (inside : ticket < world.nextTicket)
    (goesOn : ∀ actions value later remaining, later.isOpen → ticket < later.nextTicket →
      later.rally? ticket = some ⟨queue, place :: finished⟩ → post actions value →
        store.Performs functions ticket
          (Rally.poll pollChild waiter ticket (children.set place (.done value)) remaining 0 0 fuel) later
          fun more others => last more (actions ++ others)) :
    store.Performs functions ticket
      (Rally.poll pollChild waiter ticket children remaining 0 0 (fuel + 1)) world last := by
  apply Performs.afterIdle (Rally.takeChild_cons found) (.setRally ..)
    (world.spares_setRally ticket _ le_rfl inside.le)
  dsimp only
  rw [dif_pos within]
  apply (ends _ (world.setRally ticket _) isOpen (ticket + 1) inside).bind isOpen (Nat.le_succ _)
  intro calls actions left later stillOpen spares holds
  rcases holds with ⟨none, value, rfl, holds⟩
  have kept := spares none
  have same := (kept.same ticket (Nat.lt_succ_self _)).trans (world.rally?_setRally_self ticket _)
  rw [min_eq_left (Nat.le_of_succ_le kept.fresh), none]
  apply Performs.afterIdle (Rally.finish_eq same) (.setRally ..)
    (later.spares_setRally ticket _ le_rfl (Nat.le_of_succ_le kept.fresh))
  exact goesOn actions value _ _ stillOpen kept.fresh (later.rally?_setRally_self ticket _) holds

/-- A large join takes its children out of the queue, in order. -/
theorem rallyPoll_performs {posts : List (List (Action alphabet) → child.Value Action → Prop)}
    {rest : List (Pending S Action (Action alphabet) child)}
    (ends : List.Forall₂ (fun program post => ∀ waiter, store.Ends functions (pollChild waiter program)
      post) rest posts) (waiter : Waiter) {count : Nat}
    {before : List (Pending S Action (Action alphabet) child)}
    {children : Vector (Pending S Action (Action alphabet) child) count}
    (whole : children.toList = before ++ rest) {place : Nat} (position : before.length = place)
    (found : world.rally? ticket = some ⟨List.range' place rest.length, finished⟩)
    (isOpen : world.isOpen) (inside : ticket < world.nextTicket)
    {remaining fuel : Nat} (enough : rest.length ≤ fuel) :
    store.Performs functions ticket
      (Rally.poll pollChild waiter ticket children remaining 0 0 fuel) world
      fun calls actions left => Over posts before calls actions left.toList := by
  induction ends generalizing before children world place finished remaining fuel with
  | nil =>
      refine .answers (Rally.poll_nil waiter remaining 0 0 fuel found) (.rest world)
        (fun _ => .refl inside.le) ⟨rfl, [], ?_, .nil⟩
      simpa using whole
  | @cons program post rest posts first _ ih =>
      cases fuel with
      | zero => simp at enough
      | succ fuel =>
      obtain ⟨within, head, set⟩ := Rally.child_of_append whole position
      rw [← head] at first
      rw [List.length_cons, List.range'_succ] at found
      apply rallyPoll_front waiter within first found isOpen inside
      intro actions value later remaining stillOpen insideLater foundLater holds
      have positionLater : (before ++ [(.done value : Pending S Action _ child)]).length = place + 1 := by
        simp [position]
      apply (ih (set _) positionLater foundLater stillOpen insideLater
        (Nat.le_of_succ_le_succ enough)).mono
      intro calls others left round
      rcases round with ⟨none, values, same, portioned⟩
      refine ⟨none, value :: values, ?_, .cons holds portioned⟩
      rw [same, List.append_assoc]
      rfl

end Rally

variable {children : Fin count → Pending S Action (Action alphabet) child}

theorem rallyResume_performs
    (ends : ∀ index waiter, store.Ends functions (engine.poll waiter (children index)) (posts index))
    (waiter : Waiter) {world : World S Action (Action alphabet)} {ticket : Nat}
    (found : world.rally? ticket = some (.full count)) (isOpen : world.isOpen)
    (inside : ticket < world.nextTicket) :
    store.Performs functions ticket (Rally.resume engine.poll waiter ticket children) world
      fun calls actions left => Over (List.ofFn posts) [] calls actions left.toList := by
  have each : List.Forall₂
      (fun program post => ∀ waiter, store.Ends functions (engine.poll waiter program) post)
      (List.ofFn children) (List.ofFn posts) := forall₂_ofFn ends
  have listed : (Vector.ofFn children).toList = [] ++ List.ofFn children := by simp [Vector.toList]
  have queued : world.rally? ticket = some ⟨List.range' 0 (List.ofFn children).length, []⟩ := by
    rw [found, List.length_ofFn, Rally.full_eq_range']
  have enough : (List.ofFn children).length ≤ count * count + count + 1 := by
    rw [List.length_ofFn]
    omega
  exact .congr (Rally.resume_full waiter children found)
    (rallyPoll_performs each waiter listed rfl queued isOpen inside enough)

/-- A round of polls takes a family to its end if the polls of its members do. -/
theorem pollFresh_does
    (ends : ∀ index waiter, store.Ends functions (engine.poll waiter (children index)) (posts index))
    (waiter : Waiter) : store.Does functions (engine.pollFresh waiter children)
      fun calls actions found => Over (List.ofFn posts) [] calls actions found.2.toList := by
  rw [Engine.pollFresh]
  split
  · apply (does_ofFnM fun index => ends index waiter).bind
    intro calls actions left round
    apply Does.pure
    simpa using round
  · intro world isOpen floor le
    apply Performs.afterIdle (world.openRally_eq count) (.idle [] _ _ rfl)
      (world.spares_rallied count le)
    apply (rallyResume_performs ends waiter (world.rally?_rallied count) isOpen
      (Nat.lt_succ_self _)).bind isOpen le
    intro calls actions left later stillOpen spares round
    exact Does.pure (by simpa using round) later stillOpen _ (min_le_right _ _)

/-- The same for a join that is part of the program, if the polls of the members of a small one do so. -/
theorem pollJoin_does
    {each : Fin count → Run S Action (Action alphabet) (Pending S Action (Action alphabet) child)}
    {waiter : Waiter} (small : ∀ index, store.Ends functions (each index) (posts index))
    (ends : ∀ index waiter, store.Ends functions (engine.poll waiter (children index)) (posts index)) :
    store.Does functions (engine.pollJoin waiter none children each)
      fun calls actions found => Over (List.ofFn posts) [] calls actions found.2.toList := by
  rw [Engine.pollJoin]
  split
  · apply (does_ofFnM small).bind
    intro calls actions left round
    apply Does.pure
    simpa using round
  · exact pollFresh_does ends waiter

/-- A family that is over has its results. -/
theorem Over.results? {posts : List (List (Action alphabet) → child.Value Action → Prop)}
    {calls : List (Call S Action (Action alphabet))} {actions : List (Action alphabet)}
    {left : Vector (Pending S Action (Action alphabet) child) count}
    (round : Over posts [] calls actions left.toList) :
    calls = [] ∧ ∃ results, EffectLoop.results? left = some results ∧
      Portioned posts actions (List.ofFn results.get) := by
  rcases round with ⟨none, values, same, portioned⟩
  rw [List.nil_append] at same
  have size : values.length = count := by
    have lengths := congrArg List.length same
    simpa using lengths.symm
  refine ⟨none, ⟨values.toArray, by simpa using size⟩, ?_, ?_⟩
  · rw [results?_eq_some_iff]
    intro index
    have listed : left.get index = left.toList[index] := by simp [Vector.get]
    rw [listed]
    simp [same, Vector.get]
  · rw [ofFn_get_eq_toList]
    exact portioned

end Rounds

/-! ## Dispatches -/

section Dispatches

variable (depth : Nat)

theorem dispatch_does {action : Action alphabet} (bare : store.Bare action) :
    store.Does functions (((Host.store store).engine (depth + 1)).dispatch action)
      fun calls actions caused => calls = [] ∧ actions = [action] ∧ caused = .done (.ok ()) := by
  intro world isOpen floor le
  rcases bare world.state with ⟨model, answered⟩
  have same : ((Host.store store).engine (depth + 1)).dispatch action world =
      (.ok (.done (.ok ())), store.reduced action model world) := by
    rw [store.engine_dispatch_of_isOpen depth action isOpen, store.dispatch_of_ok _ answered,
      store.start_eq]
    rfl
  exact .answers same (.reduced answered) (fun _ => ⟨le, fun _ _ => rfl⟩) ⟨rfl, rfl, rfl⟩

theorem does_adopt (found : Noted α) :
    store.Does functions (Run.adopt found) fun calls actions value =>
      calls = [] ∧ actions = [] ∧ value = found.value := by
  apply Does.idle (fun _ => (found.notes.map Event.note).reverse) _ _ ⟨rfl, rfl, rfl⟩
  · intro world
    rw [← annotate_eq]
    rfl
  · intro world
    exact told_notes found.notes

theorem does_ofNoted (found : Noted α) :
    store.Does functions ((Prompt.ofNoted found).run engine) fun calls actions value =>
      calls = [] ∧ actions = [] ∧ value = found.value := by
  rw [Prompt.run_ofNoted]
  exact does_adopt found

theorem start_does {action : Noted (Action alphabet)} (bare : store.Bare action.value) :
    store.Does functions (((Host.store store).engine (depth + 1)).start action)
      fun calls actions caused =>
        calls = [] ∧ actions = [action.value] ∧ caused = .done (.ok ()) := by
  apply (does_adopt action).bind
  intro calls actions value holds
  rcases holds with ⟨rfl, rfl, rfl⟩
  exact dispatch_does depth bare

theorem mapM_start_does {actions : List (Noted (Action alphabet))}
    (bare : ∀ action ∈ actions, store.Bare action.value) :
    store.Does functions (actions.mapM ((Host.store store).engine (depth + 1)).start)
      fun calls told caused =>
        calls = [] ∧ told = actions.map (·.value) ∧ ∀ settling ∈ caused, settling = .done (.ok ()) := by
  induction actions with
  | nil => exact .pure ⟨rfl, rfl, by simp⟩
  | cons action rest ih =>
      rw [List.forall_mem_cons] at bare
      rw [List.mapM_cons]
      apply (start_does depth bare.1).bind
      intro calls told caused holds
      rcases holds with ⟨rfl, rfl, rfl⟩
      apply (ih bare.2).bind
      intro calls told others holds
      rcases holds with ⟨rfl, rfl, settled⟩
      apply Does.pure
      refine ⟨rfl, by rw [List.append_nil]; rfl, ?_⟩
      rw [List.forall_mem_cons]
      exact ⟨rfl, settled⟩

/-- Nothing was reduced, and all is settled. -/
def Settles (actions : List (Action alphabet)) (result : Except CmdFailure Unit) : Prop :=
  actions = [] ∧ result = .ok ()

theorem settles_of_portioned {count : Nat} {whole : List (Action alphabet)}
    {results : List (Except CmdFailure Unit)}
    (portioned : Portioned (List.ofFn fun _ : Fin count => Settles) whole results) :
    Settles whole (results.forM id) := by
  induction count generalizing whole results with
  | zero =>
      cases portioned
      exact ⟨rfl, rfl⟩
  | succ count ih =>
      rw [List.ofFn_succ] at portioned
      cases portioned with
      | @cons _ _ _ _ rest values holds others =>
      rcases holds with ⟨rfl, rfl⟩
      change Settles rest (values.forM id)
      exact ih others

/-- All that was dispatched has settled. -/
theorem pollFresh_settled_does {caused : List (Settling S Action (Action alphabet))}
    (settled : ∀ settling ∈ caused, settling = .done (.ok ())) (waiter : Waiter) :
    store.Does functions (((Host.store store).engine (depth + 1)).pollFresh waiter caused.get)
      fun calls actions found => calls = [] ∧ actions = [] ∧
        ∃ results, results? found.2 = some results ∧ firstFailure results.get = .ok () := by
  have ends (index : Fin caused.length) (waiter : Waiter) : store.Ends functions
      (((Host.store store).engine (depth + 1)).poll waiter (caused.get index)) Settles := by
    rw [settled _ (List.get_mem caused index)]
    exact .pure ⟨rfl, _, rfl, rfl, rfl⟩
  apply (pollFresh_does ends waiter).mono
  intro calls actions found round
  rcases round.results? with ⟨none, results, complete, portioned⟩
  have settles := settles_of_portioned portioned
  exact ⟨none, settles.1, results, complete, settles.2⟩

end Dispatches

/-! ## Programs -/

section Programs

variable (store functions) in
/-- A poll takes the program to its end, and goes on with what comes after it. -/
def Finishes (depth : Nat) (program : Pending S Action (Action alphabet) answer)
    (post : List (Call S Action (Action alphabet)) → List (Action alphabet) → answer.Value Action →
      Prop) : Prop :=
  ∀ ⦃other : Answer ι⦄ (waiter : Waiter)
    (after : answer.Value Action → Pending S Action (Action alphabet) other)
    (last : List (Call S Action (Action alphabet)) → List (Action alphabet) →
      Pending S Action (Action alphabet) other → Prop),
    (∀ calls actions value, post calls actions value →
      store.Does functions ((after value).poll ((Host.store store).engine depth) waiter)
        fun more others left => last (calls ++ more) (actions ++ others) left) →
    store.Does functions ((program.bind after).poll ((Host.store store).engine depth) waiter) last

namespace Finishes

variable {depth : Nat} {program : Pending S Action (Action alphabet) answer}
variable {post weaker : List (Call S Action (Action alphabet)) → List (Action alphabet) →
  answer.Value Action → Prop}
variable {last : List (Call S Action (Action alphabet)) → List (Action alphabet) →
  other.Value Action → Prop}

theorem mono (finishes : store.Finishes functions depth program post)
    (implies : ∀ calls actions value, post calls actions value → weaker calls actions value) :
    store.Finishes functions depth program weaker :=
  fun _ waiter after last goesOn => finishes waiter after last fun calls actions value holds =>
    goesOn calls actions value (implies calls actions value holds)

theorem done {value : answer.Value Action} (holds : post [] [] value) :
    store.Finishes functions depth (.done value) post :=
  fun _ _ _ _ goesOn => goesOn [] [] value holds

/-- Nothing comes after it. -/
theorem polled (finishes : store.Finishes functions depth program post) (waiter : Waiter) :
    store.Does functions (program.poll ((Host.store store).engine depth) waiter)
      fun calls actions left => ∃ value, left = .done value ∧ post calls actions value := by
  have alone := finishes waiter Pending.done
    (fun calls actions left => ∃ value, left = .done value ∧ post calls actions value)
  rw [Pending.bind_done] at alone
  apply alone
  intro calls actions value holds
  apply Does.pure
  rw [List.append_nil, List.append_nil]
  exact ⟨value, rfl, holds⟩

theorem bind {after : answer.Value Action → Pending S Action (Action alphabet) other}
    (finishes : store.Finishes functions depth program post)
    (goesOn : ∀ calls actions value, post calls actions value →
      store.Finishes functions depth (after value) fun more others =>
        last (calls ++ more) (actions ++ others)) :
    store.Finishes functions depth (program.bind after) last := by
  intro final waiter beyond whole rest
  rw [Pending.bind_assoc]
  apply finishes waiter
  intro calls actions value holds
  apply goesOn calls actions value holds waiter
  intro more others found reached
  simpa only [List.append_assoc] using rest _ _ found reached

theorem thenPending {first : Prompt S Action (Action alphabet) α}
    {after : α → Pending S Action (Action alphabet) answer}
    {opening : List (Call S Action (Action alphabet)) → List (Action alphabet) → α → Prop}
    (does : store.Does functions (first.run ((Host.store store).engine depth)) opening)
    (goesOn : ∀ calls actions value, opening calls actions value →
      store.Finishes functions depth (after value) fun more others =>
        post (calls ++ more) (actions ++ others)) :
    store.Finishes functions depth (first.thenPending after) post := by
  intro final waiter beyond whole rest
  rw [Prompt.bind_thenPending, Prompt.poll_thenPending]
  apply does.bind
  intro calls actions value holds
  apply goesOn calls actions value holds waiter
  intro more others found reached
  simpa only [List.append_assoc] using rest _ _ found reached

theorem withNoted {found : Noted α} {next : α → Pending S Action (Action alphabet) answer}
    (finishes : store.Finishes functions depth (next found.value) post) :
    store.Finishes functions depth (.withNoted found next) post := by
  rw [Pending.withNoted_eq_thenPending]
  apply thenPending (does_ofNoted found)
  intro calls actions value holds
  rcases holds with ⟨rfl, rfl, rfl⟩
  exact finishes

/-- The actions are reduced, one after the other, and nothing is left to wait for. -/
theorem sendAll {actions : List (Noted (Action alphabet))}
    {next : Except CmdFailure Unit → Pending S Action (Action alphabet) answer}
    (bare : ∀ action ∈ actions, store.Bare action.value)
    (finishes : store.Finishes functions (depth + 1) (next (.ok ())) fun calls others =>
      post calls (actions.map (·.value) ++ others)) :
    store.Finishes functions (depth + 1) (.sendAll actions next) post := by
  intro other waiter after last goesOn
  rw [Pending.bind, Pending.poll]
  apply (mapM_start_does depth bare).bind
  intro calls told caused holds
  rcases holds with ⟨rfl, rfl, settled⟩
  apply (pollFresh_settled_does depth settled waiter).bind
  intro calls told found holds
  rcases holds with ⟨rfl, rfl, results, complete, fine⟩
  dsimp only
  rw [complete]
  dsimp only
  rw [fine]
  apply finishes waiter
  intro calls others value holds
  apply (goesOn _ _ _ holds).mono
  intro more further left reached
  simpa using reached

/-- All members end, and their actions are reduced member by member. -/
theorem join {count : Nat} {children : Fin count → Pending S Action (Action alphabet) child}
    {posts : Fin count → List (Action alphabet) → child.Value Action → Prop}
    {next : (Fin count → child.Value Action) → Pending S Action (Action alphabet) answer}
    (children_finish : ∀ index near, depth ≤ near →
      store.Finishes functions near (children index) fun calls actions value =>
        calls = [] ∧ posts index actions value)
    (finishes : ∀ actions values, Portioned (List.ofFn posts) actions (List.ofFn values) →
      store.Finishes functions (depth + 1) (next values) fun calls others =>
        post calls (actions ++ others)) :
    store.Finishes functions (depth + 1) (.join none children next) post := by
  have ends (index : Fin count) (near : Nat) (enough : depth ≤ near) (waiter : Waiter) :
      store.Ends functions ((children index).poll ((Host.store store).engine near) waiter)
        (posts index) := by
    apply ((children_finish index near enough).polled waiter).mono
    intro calls actions left holds
    rcases holds with ⟨value, reached, none, holds⟩
    exact ⟨none, value, reached, holds⟩
  intro other waiter after last goesOn
  rw [Pending.bind, Pending.poll]
  apply (pollJoin_does (fun index => ends index (depth + 1) (Nat.le_succ depth) waiter)
    fun index waiter => ends index depth le_rfl waiter).bind
  intro calls told found round
  rcases round.results? with ⟨rfl, results, complete, portioned⟩
  dsimp only
  rw [complete]
  apply finishes _ _ portioned waiter
  intro calls others value holds
  apply (goesOn _ _ _ holds).mono
  intro more further left reached
  simpa using reached

end Finishes

end Programs

end Store

end EffectLoop
