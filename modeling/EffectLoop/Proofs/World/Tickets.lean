import EffectLoop.Proofs.Store.Finishing
import EffectLoop.Proofs.World.Conformity

/-!
# Joins keep to themselves

A large join is known by its ticket.  A program that has not begun holds no ticket, and the joins that
it opens get tickets of their own.  So whatever it does, the joins of others stay as they are, except
that their children may be woken: then the children join the ends of the queues.
-/

namespace EffectLoop

variable {S ι : Type} {Action : ι → Type} {A α : Type} {alphabet : ι} {answer other child : Answer ι}

/-! ## Programs that hold no earlier ticket -/

namespace Pending

/-- All joins of the computation that are under way have tickets from `floor` on, and it advances no
clock. -/
def Above (floor : Nat) : {answer : Answer ι} → Pending S Action A answer → Prop
  | _, .done _ => True
  | _, .call _ next => ∀ reply, (next reply).Above floor
  | _, .send _ _ next => next.Above floor
  | _, .schedule _ _ _ next => ∀ handle, (next handle).Above floor
  | _, .spawn _ next => next.Above floor
  | _, .wait _ next => next.Above floor
  | _, .resumeAt _ next => next.Above floor
  | _, .sendAll _ next => ∀ reply, (next reply).Above floor
  | _, .settling ticket caused next => (∀ held ∈ ticket, floor ≤ held) ∧
      (∀ index, (caused index).Above floor) ∧ ∀ reply, (next reply).Above floor
  | _, .join ticket children next => (∀ held ∈ ticket, floor ≤ held) ∧
      (∀ index, (children index).Above floor) ∧ ∀ values, (next values).Above floor
  | _, .advanceTo _ _ _ _ => False
  | _, .interval _ _ _ task running => task.Above floor ∧ ∀ index, (running index).Above floor

/-- Nothing of the computation is under way, and it advances no clock. -/
def Fresh (program : Pending S Action A answer) : Prop := ∀ floor, program.Above floor

variable {floor : Nat}

theorem Above.bind {first : Pending S Action A answer}
    {after : answer.Value Action → Pending S Action A other} (above : first.Above floor)
    (afterAbove : ∀ value, (after value).Above floor) : (first.bind after).Above floor := by
  induction first with
  | done value => exact afterAbove value
  | call effect next ih => exact fun reply => ih reply (above reply) afterAbove
  | send action keep next ih => exact ih above afterAbove
  | schedule delay repeating task next _ ih => exact fun handle => ih handle (above handle) afterAbove
  | spawn task next _ ih => exact ih above afterAbove
  | wait gate next ih => exact ih above afterAbove
  | resumeAt moment next ih => exact ih above afterAbove
  | sendAll actions next ih => exact fun reply => ih reply (above reply) afterAbove
  | settling ticket caused next _ ih =>
      exact ⟨above.1, above.2.1, fun reply => ih reply (above.2.2 reply) afterAbove⟩
  | join ticket children next _ ih =>
      exact ⟨above.1, above.2.1, fun values => ih values (above.2.2 values) afterAbove⟩
  | advanceTo target ticket driven next => exact above.elim
  | interval handle period due task running => exact above

end Pending

/-- The programs that the host brings in have not begun. -/
def Host.Fresh : Host S Action alphabet → Prop
  | .recording _ _ => True
  | .store held => ∀ state action loop, (held.reducer state action).value = .ok loop →
      (loop.lift.2.execute held.options).Within .lax fun verdict =>
        ∀ pending, verdict = .ok (some pending) → pending.Fresh

/-! ## The joins of others -/

namespace Regime

/-- The joins with tickets below `floor` stay as they are, except that their children may be woken. -/
def aloof (floor : Nat) : Regime S Action A where
  kind world := floor ≤ world.nextTicket
  law before after := ∀ ticket < floor, ∀ queue finished,
    before.rally? ticket = some ⟨queue, finished⟩ →
      ∃ woken, after.rally? ticket = some ⟨queue ++ woken, finished⟩

variable {floor : Nat} {before after world : World S Action A}

theorem aloof_coherent : (aloof floor : Regime S Action A).Coherent where
  refl _ _ _ queue finished found := ⟨[], by rw [List.append_nil]; exact found⟩
  trans first second := by
    intro ticket below queue finished found
    obtain ⟨woken, kept⟩ := first ticket below queue finished found
    obtain ⟨more, keptThen⟩ := second ticket below _ finished kept
    exact ⟨woken ++ more, by rw [← List.append_assoc]; exact keptThen⟩

/-- What leaves the books of joins alone. -/
theorem aloof_same (rallies : after.rallies = before.rallies)
    (nextTicket : after.nextTicket = before.nextTicket) : (aloof floor).Allows before after := by
  intro kind
  have same (ticket : Nat) : after.rally? ticket = before.rally? ticket := by
    simp only [World.rally?, rallies]
  refine ⟨kind.trans_eq nextTicket.symm, ?_⟩
  intro ticket _ queue finished found
  exact ⟨[], by rw [same, List.append_nil]; exact found⟩

theorem aloof_change {post : α → Prop} {change : World S Action A → World S Action A}
    {next : PUnit → Run S Action A α} (rallies : (change world).rallies = world.rallies)
    (nextTicket : (change world).nextTicket = world.nextTicket)
    (goesOn : (aloof floor).Obeys post (next ⟨⟩)) :
    (aloof floor).ObeysIn world post (Run.update change >>= next) :=
  aloof_coherent.bindIn (updateIn (aloof_same rallies nextTicket)) fun _ _ => goesOn

/-- A join with a ticket from `floor` on is none of the joins of others. -/
theorem aloof_setRally {ticket : Nat} (above : floor ≤ ticket) (world : World S Action A)
    (rally : Rally) : (aloof floor).Allows world (world.setRally ticket rally) := by
  intro kind
  refine ⟨kind, fun lower below queue finished found => ⟨[], ?_⟩⟩
  rw [world.rally?_setRally_of_ne ticket rally (below.trans_le above).ne, List.append_nil]
  exact found

theorem aloof_wakeAlong (root : Nat) (path : List (Nat × Nat)) (world : World S Action A) :
    (aloof floor).Allows world (world.wakeAlong root path) := by
  induction path generalizing world with
  | nil => exact aloof_same rfl rfl
  | cons step outer ih =>
      obtain ⟨ticket, place⟩ := step
      simp only [World.wakeAlong]
      cases known : world.rally? ticket with
      | none => exact aloof_coherent.same
      | some rally =>
          dsimp only
          split
          · exact aloof_coherent.same
          · refine aloof_coherent.andThen ?_ (ih _)
            refine fun kind => ⟨kind, ?_⟩
            intro lower _ queue finished found
            by_cases same : lower = ticket
            · subst same
              rw [known] at found
              cases found
              exact ⟨[place], world.rally?_setRally_self lower _⟩
            · exact ⟨[], by
                rw [world.rally?_setRally_of_ne ticket _ same, List.append_nil]
                exact found⟩

theorem aloof_wake (world : World S Action A) (waiter : Waiter) :
    (aloof floor).Allows world (world.wake waiter) :=
  aloof_wakeAlong waiter.root waiter.path world

/-! ### Effects -/

theorem aloof_adopt {post : α → Prop} {found : Noted α} (holds : post found.value) :
    (aloof floor).Obeys post (Run.adopt found : Run S Action A α) := by
  have noted (notes : List Json) (world : World S Action A) :
      (aloof floor).Allows world (world.annotate notes) := by
    induction notes generalizing world with
    | nil => exact aloof_coherent.same
    | cons value rest ih =>
        have noted : (aloof floor).Allows world (world.emit (.note value)) := aloof_same rfl rfl
        exact aloof_coherent.andThen noted (ih _)
  apply aloof_coherent.after (update (noted found.notes))
  intro _
  exact aloof_coherent.pure holds

theorem aloof_schedule (delay : Duration) (repeating : Bool)
    (task : Pending S Action A .finished) :
    (aloof floor).Obeys (fun _ => True) (Run.schedule delay repeating task) := by
  apply look
  intro world
  split
  · refine aloof_change rfl rfl ?_
    split
    · exact aloof_coherent.pure trivial
    · exact aloof_coherent.throw _
  · refine aloof_change rfl rfl ?_
    intro world
    refine aloof_change rfl rfl ?_
    exact aloof_coherent.pure trivial

theorem aloof_clear (handle : TimerHandle) :
    (aloof floor : Regime S Action A).Obeys (fun _ => True) (Run.clear handle) := by
  apply look
  intro world
  split
  · refine aloof_change rfl rfl ?_
    exact aloof_coherent.pure trivial
  · dsimp only
    refine aloof_change rfl rfl ?_
    split
    · intro world
      refine aloof_change rfl rfl ?_
      exact aloof_coherent.pure trivial
    · exact aloof_coherent.pure trivial

theorem aloof_unlock (world : World S Action A) (gate : String) :
    (aloof floor).Allows world (world.unlock gate) := by
  have opened : (aloof floor).Allows world { world with gates := (world.gates.unlock gate).2 } :=
    aloof_same rfl rfl
  exact aloof_coherent.andThen opened (aloof_coherent.wakeEach aloof_wake _ _)

theorem aloof_perform (effect : Primitive) :
    (aloof floor : Regime S Action A).Obeys (fun _ => True) (Run.perform effect) := by
  cases effect with
  | readState =>
      intro world
      refine aloof_change rfl rfl ?_
      exact look fun world => aloof_coherent.pureIn trivial
  | note value => exact Regime.update fun _ => Regime.aloof_same rfl rfl
  | log entry => exact Regime.update fun _ => Regime.aloof_same rfl rfl
  | setGate gate isOpen =>
      apply update
      intro world
      cases isOpen with
      | true => exact aloof_unlock world gate
      | false => exact aloof_same rfl rfl
  | clear handle => exact aloof_clear handle
  | inspect => exact look fun world => aloof_coherent.pureIn trivial
  | wallClock => exact look fun world => aloof_coherent.pureIn trivial
  | deadline delay =>
      apply look
      intro world
      split
      · split
        · exact aloof_coherent.pureIn trivial
        · exact aloof_coherent.throw _ _
      · exact aloof_coherent.pureIn trivial
  | forget handle => exact Regime.update fun _ => Regime.aloof_same rfl rfl
  | skip => exact aloof_coherent.pure trivial

end Regime

/-! ## Programs -/

/-- Whatever the engine is asked to do leaves the joins of others as they are. -/
structure Engine.Aloof (floor : Nat) (engine : Engine S Action A) : Prop where
  dispatch : ∀ action, (Regime.aloof floor).Obeys (Pending.Above floor) (engine.dispatch action)
  poll : ∀ {answer : Answer ι} (waiter : Waiter) {program : Pending S Action A answer},
    program.Above floor → (Regime.aloof floor).Obeys (Pending.Above floor) (engine.poll waiter program)

open Regime (aloof_change aloof_coherent aloof_setRally aloof_wake)

variable {floor : Nat}

namespace Rally

/-- A new join gets a ticket of its own. -/
theorem openRally_aloof (count : Nat) : (Regime.aloof floor).Obeys (fun ticket => floor ≤ ticket)
    (openRally count : Run S Action A Nat) := by
  intro world
  rw [Regime.ObeysIn, world.openRally_eq]
  constructor
  · intro kind
    exact ⟨Nat.le_succ_of_le kind, (aloof_setRally kind world (.full count) kind).2⟩
  · intro kind ticket opened
    cases opened
    exact kind

end Rally

section Programs

variable {engine : Engine S Action A} (aloof : engine.Aloof floor)
include aloof

namespace Engine

theorem start_aloof (action : Noted A) :
    (Regime.aloof floor).Obeys (Pending.Above floor) (engine.start action) := by
  apply aloof_coherent.after (Regime.aloof_adopt trivial)
  intro sent
  exact aloof.dispatch sent

theorem send_aloof (action : Noted A) (keep : Bool) :
    (Regime.aloof floor).Obeys (fun _ => True) (engine.send action keep) := by
  apply aloof_coherent.bind (start_aloof aloof action)
  intro caused _
  split
  · exact Regime.update fun _ => Regime.aloof_same rfl rfl
  · exact aloof_coherent.pure trivial

/-- The ticket of the join and what is left of its children are from `floor` on. -/
abbrev LeavesAbove (floor : Nat) {count : Nat}
    (found : Option Nat × Vector (Pending S Action A child) count) : Prop :=
  (∀ held ∈ found.1, floor ≤ held) ∧ ∀ index, (found.2.get index).Above floor

theorem resume_aloof (waiter : Waiter) {ticket : Nat} (held : floor ≤ ticket) {count : Nat}
    {children : Fin count → Pending S Action A child}
    (above : ∀ index, (children index).Above floor) :
    (Regime.aloof floor).Obeys (fun left => ∀ index, (left.get index).Above floor)
      (Rally.resume engine.poll waiter ticket children) :=
  Rally.resume_obeys aloof_coherent (aloof_setRally held) aloof_wake
    (fun waiter {_} within => aloof.poll waiter within) waiter above

theorem pollFresh_aloof (waiter : Waiter) {count : Nat}
    {children : Fin count → Pending S Action A child}
    (above : ∀ index, (children index).Above floor) :
    (Regime.aloof floor).Obeys (LeavesAbove floor) (engine.pollFresh waiter children) := by
  unfold pollFresh
  split
  · apply aloof_coherent.bind (aloof_coherent.ofFnM fun index => aloof.poll waiter (above index))
    intro left hold
    exact aloof_coherent.pure ⟨fun _ nothing => (nomatch nothing), hold⟩
  · apply aloof_coherent.bind (Rally.openRally_aloof count)
    intro ticket held
    apply aloof_coherent.bind (resume_aloof aloof waiter held above)
    intro left hold
    refine aloof_coherent.pure ⟨?_, hold⟩
    rintro _ ⟨⟩
    exact held

theorem pollJoin_aloof (waiter : Waiter) {ticket : Option Nat} (held : ∀ own ∈ ticket, floor ≤ own)
    {count : Nat} {children : Fin count → Pending S Action A child}
    (above : ∀ index, (children index).Above floor)
    {each : Fin count → Run S Action A (Pending S Action A child)}
    (eachAloof : ∀ index, (Regime.aloof floor).Obeys (Pending.Above floor) (each index)) :
    (Regime.aloof floor).Obeys (LeavesAbove floor)
      (engine.pollJoin waiter ticket children each) := by
  unfold pollJoin
  split
  · apply aloof_coherent.bind (aloof_coherent.ofFnM eachAloof)
    intro left hold
    exact aloof_coherent.pure ⟨held, hold⟩
  · cases ticket with
    | none => exact pollFresh_aloof aloof waiter above
    | some ticket =>
        apply aloof_coherent.bind (resume_aloof aloof waiter (held ticket rfl) above)
        intro left hold
        exact aloof_coherent.pure ⟨held, hold⟩

end Engine

theorem Prompt.run_aloof {post : α → Prop} {program : Prompt S Action A α}
    (within : program.Within .lax post) : (Regime.aloof floor).Obeys post (program.run engine) := by
  induction program with
  | done value => exact aloof_coherent.pure within
  | call effect next ih =>
      apply aloof_coherent.after (Regime.aloof_perform effect)
      intro reply
      exact ih reply (within.2 reply)
  | send action keep next ih =>
      apply aloof_coherent.after (Engine.send_aloof aloof action keep)
      intro _
      exact ih within
  | schedule delay repeating task next ih =>
      apply aloof_coherent.after (Regime.aloof_schedule delay repeating task)
      intro handle
      exact ih handle (within.2 handle)
  | spawn task next ih =>
      intro world
      refine aloof_change rfl rfl ?_
      exact ih within.2

/-- A program that holds no earlier ticket leaves the joins of others as they are, however far a poll
takes it. -/
theorem Pending.poll_aloof (waiter : Waiter) {program : Pending S Action A answer}
    (above : program.Above floor) :
    (Regime.aloof floor).Obeys (Pending.Above floor) (program.poll engine waiter) := by
  induction program with
  | done value => exact aloof_coherent.pure trivial
  | call effect next ih =>
      apply aloof_coherent.after (Regime.aloof_perform effect)
      intro reply
      exact ih reply (above reply)
  | send action keep next ih =>
      apply aloof_coherent.after (Engine.send_aloof aloof action keep)
      intro _
      exact ih above
  | schedule delay repeating task next _ ih =>
      apply aloof_coherent.after (Regime.aloof_schedule delay repeating task)
      intro handle
      exact ih handle (above handle)
  | spawn task next _ ih =>
      intro world
      refine aloof_change rfl rfl ?_
      exact ih above
  | wait gate next ih =>
      apply Regime.look
      intro world
      split
      · exact ih above world
      · refine aloof_change rfl rfl ?_
        exact aloof_coherent.pure above
  | resumeAt moment next ih =>
      apply Regime.look
      intro world
      split
      · split
        · exact ih above world
        · exact aloof_coherent.pureIn above
      · split
        · exact ih above world
        · refine aloof_change rfl rfl ?_
          exact aloof_coherent.pure above
  | sendAll actions next ih =>
      rw [poll]
      apply aloof_coherent.bind (aloof_coherent.mapM actions (Engine.start_aloof aloof))
      intro caused causedAbove
      apply aloof_coherent.bind (Engine.pollFresh_aloof aloof waiter
        fun index => causedAbove _ (List.get_mem caused index))
      intro found leaves
      dsimp only
      split
      · exact ih _ (above _)
      · exact aloof_coherent.pure ⟨leaves.1, leaves.2, above⟩
  | settling ticket caused next causedIH ih =>
      rw [poll]
      apply aloof_coherent.bind (Engine.pollJoin_aloof aloof waiter above.1 above.2.1
        fun index => causedIH index (above.2.1 index))
      intro found leaves
      dsimp only
      split
      · exact ih _ (above.2.2 _)
      · exact aloof_coherent.pure ⟨leaves.1, leaves.2, above.2.2⟩
  | join ticket children next childrenIH ih =>
      rw [poll]
      apply aloof_coherent.bind (Engine.pollJoin_aloof aloof waiter above.1 above.2.1
        fun index => childrenIH index (above.2.1 index))
      intro found leaves
      dsimp only
      split
      · exact ih _ (above.2.2 _)
      · exact aloof_coherent.pure ⟨leaves.1, leaves.2, above.2.2⟩
  | advanceTo target ticket driven next => exact above.elim
  | interval handle period due task running _ runningIH =>
      obtain ⟨taskAbove, runningAbove⟩ := above
      rw [poll]
      apply aloof_coherent.bind (Engine.pollJoin_aloof aloof waiter (fun held nothing => by cases nothing)
        runningAbove fun index => runningIH index (runningAbove index))
      intro found leaves
      dsimp only
      split
      · exact aloof_coherent.pure ⟨taskAbove, leaves.2⟩
      · apply Regime.look
        intro world
        split
        · exact aloof_coherent.pureIn ⟨taskAbove, fun index => index.elim0⟩
        · split
          · refine aloof_change rfl rfl ?_
            exact aloof.poll waiter ⟨taskAbove, fun _ => taskAbove⟩
          · refine aloof_change rfl rfl ?_
            exact aloof_coherent.pure ⟨taskAbove, fun index => index.elim0⟩

end Programs

/-! ## Hosts -/

theorem Plan.pending_above (plan : Plan) :
    (plan.pending : Settling S Action (Action alphabet)).Above floor := by
  unfold Plan.pending
  cases plan.gate with
  | none => trivial
  | some gate => exact fun _ => trivial

namespace Store

variable {held : Store S Action alphabet} {engine : Engine S Action (Action alphabet)}

theorem observe_aloof (seen : Observation (Action alphabet)) :
    (Regime.aloof floor).Obeys (fun _ => True) (held.observe seen) := by
  intro world
  refine aloof_change rfl rfl ?_
  induction held.observer seen with
  | nil => exact aloof_coherent.pure trivial
  | cons delivery rest ih =>
      intro world
      exact aloof_change rfl rfl ih

theorem commit_aloof (state : S) :
    (Regime.aloof floor).Obeys (fun _ => True)
      (commit state : Run S Action (Action alphabet) Unit) := by
  intro world
  refine aloof_change rfl rfl ?_
  exact Regime.update fun _ => Regime.aloof_same rfl rfl

/-- What the store makes of an action leaves the joins of others as they are, if its commands bring in
programs that have not begun. -/
theorem dispatch_aloof (aloof : engine.Aloof floor) (fresh : (Host.store held).Fresh)
    (action : Action alphabet) :
    (Regime.aloof floor).Obeys (Pending.Above floor) (held.dispatch engine action) := by
  have reduced : (Regime.aloof floor).Obeys
      (fun loop => (loop.lift.2.execute held.options).Within .lax fun verdict =>
        ∀ pending, verdict = .ok (some pending) → pending.Fresh) (held.reduce action) := by
    apply aloof_coherent.after (Regime.aloof_perform .readState)
    intro state
    have reduction : (Regime.aloof floor).Obeys
        (fun result => result = (held.reducer state action).value)
        (Run.adopt (held.reducer state action) : Run S Action (Action alphabet) _) :=
      Regime.aloof_adopt rfl
    apply aloof_coherent.bind reduction
    rintro result rfl
    split
    next loop found => exact aloof_coherent.pure (fresh state action loop found)
    next refused found => exact aloof_coherent.throw _
  apply aloof_coherent.after (observe_aloof _)
  intro _
  apply aloof_coherent.bind reduced
  intro loop brings
  apply aloof_coherent.after (commit_aloof _)
  intro _
  unfold launch
  split
  · exact aloof_coherent.pure trivial
  · apply aloof_coherent.after (observe_aloof _)
    intro _
    apply aloof_coherent.bind (Prompt.run_aloof aloof brings)
    intro verdict pendingFresh
    split
    · exact aloof_coherent.pure trivial
    next pending =>
      apply aloof_coherent.pure
      apply (pendingFresh pending rfl floor).bind
      intro result
      cases result with
      | error cause => trivial
      | ok actions => exact fun _ => trivial
    · exact aloof_coherent.pure trivial

end Store

/-- If the programs that the host brings in have not begun, whatever its engine is asked to do leaves the
joins of others as they are. -/
theorem Host.engine_aloof {host : Host S Action alphabet} (fresh : host.Fresh) (depth : Nat) :
    (host.engine depth).Aloof floor := by
  induction depth with
  | zero =>
      constructor
      · intro action
        exact aloof_coherent.throw _
      · intro answer waiter program _
        exact aloof_coherent.throw _
  | succ depth ih =>
      constructor
      · intro action
        cases host with
        | recording options plan =>
            intro world
            refine aloof_change rfl rfl ?_
            exact aloof_coherent.pure (plan action).pending_above
        | store held =>
            apply Regime.look
            intro world
            split
            · exact Store.dispatch_aloof ih fresh action world
            · exact aloof_coherent.pureIn trivial
      · intro answer waiter program above
        exact Pending.poll_aloof ih waiter above

end EffectLoop
