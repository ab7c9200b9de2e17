import EffectLoop.Proofs.World.Driving

/-!
# Waiting for what dispatched actions cause

Actions that are dispatched together are dispatched one after the other in the first poll, each of them
whatever comes of the ones before.  From then on what they cause is polled, and only when all of it is
over there is a result: the failure of the first action that failed, in the order of the actions and not
of time (`Pending.stands_of_driven`).

This is said of every context, with anything else happening between the polls.
-/

namespace EffectLoop

variable {S ι : Type} {Action : ι → Type} {A : Type} {count : Nat}

/-- The result of computations that are all over: it is good if all of them came to a good end, and
otherwise the failure of the first that failed. -/
def ComesTo (replies : Fin count → Except CmdFailure Unit) (result : Except CmdFailure Unit) : Prop :=
  (result = .ok () ∧ ∀ index, replies index = .ok ()) ∨
    ∃ index cause, result = .error cause ∧ replies index = .error cause ∧
      ∀ earlier < index, replies earlier = .ok ()

theorem comesTo_firstFailure (replies : Fin count → Except CmdFailure Unit) :
    ComesTo replies (firstFailure replies) := by
  induction count with
  | zero => exact .inl ⟨rfl, fun index => index.elim0⟩
  | succ count ih =>
      rw [firstFailure, List.ofFn_succ]
      cases head : replies 0 with
      | error cause =>
          exact .inr ⟨0, cause, rfl, head, fun earlier below => absurd below (Fin.not_lt_zero _)⟩
      | ok reply =>
          rcases ih fun index => replies index.succ with
            ⟨good, each⟩ | ⟨index, cause, first, failed, others⟩
          · refine .inl ⟨good, ?_⟩
            intro index
            cases index using Fin.cases with
            | zero => exact head
            | succ index => exact each index
          · refine .inr ⟨index.succ, cause, first, failed, ?_⟩
            intro earlier below
            cases earlier using Fin.cases with
            | zero => exact head
            | succ earlier => exact others earlier (Fin.succ_lt_succ_iff.1 below)

namespace Pending

section Standing

variable (dispatch : Dispatcher S Action A) (env : World S Action A → World S Action A → Prop)

/-- One of the computations that dispatched actions cause is polled, or the world changes meanwhile. -/
inductive Tends : (Fin count → Pending S Action A .settled) × World S Action A →
    (Fin count → Pending S Action A .settled) × World S Action A → Prop where
  | polled {caused world left later} (depth : Nat) (waiter : Waiter) (index : Fin count) :
      (caused index).poll (.ofDispatch dispatch depth) waiter world = (.ok left, later) →
      Tends (caused, world) (Function.update caused index left, later)
  | aside {world later} (caused : Fin count → Pending S Action A .settled) :
      World.Aside env world later → Tends (caused, world) (caused, later)

/-- What has become of all that dispatched actions cause. -/
abbrev Tended : (Fin count → Pending S Action A .settled) × World S Action A →
    (Fin count → Pending S Action A .settled) × World S Action A → Prop :=
  Relation.ReflTransGen (Tends dispatch env)

/-- Where actions stand that are to be dispatched together. -/
inductive Stands (actions : List (Noted A)) (world : World S Action A) :
    Pending S Action A .settled → World S Action A → Prop where
  /-- None of them is dispatched yet. -/
  | held {later} : Relation.ReflTransGen env world later →
      Stands actions world (.sendAll actions fun result => .done result) later
  /-- All of them were dispatched, in order, and something that they cause is not over. -/
  | sent {depth begun caused middle now later} (ticket : Option Nat) :
      Relation.ReflTransGen env world begun →
      actions.mapM (Engine.ofDispatch dispatch depth).start begun = (.ok caused, middle) →
      Tended dispatch env (caused.get, middle) (now, later) →
      (∃ index, (now index).result? = none) →
      Stands actions world (.settling ticket now fun result => .done result) later
  /-- All of them were dispatched, in order, and all that they cause is over. -/
  | finished {depth begun caused middle replies ended later result} :
      Relation.ReflTransGen env world begun →
      actions.mapM (Engine.ofDispatch dispatch depth).start begun = (.ok caused, middle) →
      Tended dispatch env (caused.get, middle) (fun index => .done (replies index), ended) →
      ComesTo replies result → Relation.ReflTransGen env ended later →
      Stands actions world (.done result) later

end Standing

/-- The actions are still to be dispatched. -/
def Held {answer : Answer ι} : Pending S Action A answer → Prop
  | .sendAll _ _ => True
  | _ => False

variable {dispatch : Dispatcher S Action A} {env : World S Action A → World S Action A → Prop}

theorem Tended.booked {start : (Fin count → Pending S Action A .settled) × World S Action A}
    (now : Fin count → Pending S Action A .settled) (before after : World S Action A)
    (books : World.Booked before after) (tended : Tended dispatch env start (now, before)) :
    Tended dispatch env start (now, after) := by
  induction books with
  | refl => exact tended
  | tail _ booking ih => exact ih.tail (.aside now (.books booking))

theorem Tended.asides {start : (Fin count → Pending S Action A .settled) × World S Action A}
    {now : Fin count → Pending S Action A .settled} {before after : World S Action A}
    (changes : Relation.ReflTransGen env before after)
    (tended : Tended dispatch env start (now, before)) : Tended dispatch env start (now, after) := by
  induction changes with
  | refl => exact tended
  | tail _ acts ih => exact ih.tail (.aside now (.acts acts))

theorem Tended.poll {start : (Fin count → Pending S Action A .settled) × World S Action A} {depth : Nat}
    (now : Fin count → Pending S Action A .settled) (world : World S Action A) (index : Fin count)
    (waiter : Waiter) (tended : Tended dispatch env start (now, world)) :
    ((now index).poll (.ofDispatch dispatch depth) waiter).Leads world fun left later =>
      Tended dispatch env start (Function.update now index left, later) :=
  ⟨fun _ _ answered => tended.tail (.polled depth waiter index answered)⟩

theorem Tended.engine_poll {start : (Fin count → Pending S Action A .settled) × World S Action A}
    {depth : Nat} (now : Fin count → Pending S Action A .settled) (world : World S Action A)
    (index : Fin count) (waiter : Waiter) (tended : Tended dispatch env start (now, world)) :
    ((Engine.ofDispatch dispatch depth).poll waiter (now index)).Leads world fun left later =>
      Tended dispatch env start (Function.update now index left, later) := by
  cases depth with
  | zero => exact .throw .exhausted
  | succ depth => exact Tended.poll now world index waiter tended

section Stages

variable {actions : List (Noted A)} {world begun middle : World S Action A} {depth : Nat}
variable {caused : List (Pending S Action A .settled)}

/-- Once all that the actions cause is over, the result is at hand. -/
theorem Stands.of_complete (acts : Relation.ReflTransGen env world begun)
    (dispatched : actions.mapM (Engine.ofDispatch dispatch depth).start begun = (.ok caused, middle))
    {left : Vector (Pending S Action A .settled) caused.length} {later : World S Action A}
    {replies : Vector (Except CmdFailure Unit) caused.length} (complete : results? left = some replies)
    (tended : Tended dispatch env (caused.get, middle) (left.get, later)) :
    Stands dispatch env actions world (.done (firstFailure replies.get)) later := by
  have same : left.get = fun index => .done (replies.get index) := funext (done_of_results? complete)
  rw [same] at tended
  exact .finished acts dispatched tended (comesTo_firstFailure replies.get) .refl

/-- Wherever the actions stand, one poll that answers is enough to have them dispatched. -/
theorem Stands.polled {program : Pending S Action A .settled} {now : World S Action A}
    (stands : Stands dispatch env actions world program now) (depth : Nat) (waiter : Waiter) :
    (program.poll (.ofDispatch dispatch depth) waiter).Leads now fun left later =>
      Stands dispatch env actions world left later ∧ ¬left.Held := by
  cases stands with
  | held acts =>
      rw [Pending.poll]
      apply (Run.Leads.self _ now).bind
      intro caused middle dispatched
      have fresh : Tended dispatch env (caused.get, middle) (caused.get, middle) := .refl
      apply (Engine.pollFresh_leads Tended.booked Tended.engine_poll waiter fresh).bind
      intro found later tended
      dsimp only
      split
      next replies complete => exact .pure ⟨Stands.of_complete acts dispatched complete tended, id⟩
      next incomplete =>
        have opened := exists_of_results?_eq_none incomplete
        exact .pure ⟨.sent found.1 acts dispatched tended opened, id⟩
  | sent ticket acts dispatched tended _ =>
      rw [Pending.poll]
      apply (Engine.pollJoin_leads Tended.booked Tended.engine_poll waiter ticket _ tended).bind
      · intro found later tended
        dsimp only
        split
        next replies complete => exact .pure ⟨Stands.of_complete acts dispatched complete tended, id⟩
        next incomplete =>
          have opened := exists_of_results?_eq_none incomplete
          exact .pure ⟨.sent found.1 acts dispatched tended opened, id⟩
      · intro members before index tended same
        rw [← same]
        exact Tended.poll members before index waiter tended
  | finished acts dispatched tended comes changes =>
      exact .pure ⟨.finished acts dispatched tended comes changes, id⟩

theorem Stands.meanwhile {program : Pending S Action A .settled} {now later : World S Action A}
    (acts : env now later) (stands : Stands dispatch env actions world program now) :
    Stands dispatch env actions world program later := by
  cases stands with
  | held before => exact .held (before.tail acts)
  | sent ticket before dispatched tended opened =>
      exact .sent ticket before dispatched (tended.asides (.single acts)) opened
  | finished before dispatched tended comes changes =>
      exact .finished before dispatched tended comes (changes.tail acts)

/-- However the waiting for dispatched actions is driven, the actions are all dispatched in the first poll,
and there is a result only when all that they cause is over. -/
theorem stands_of_driven {left : Pending S Action A .settled} {later : World S Action A}
    (driven : Driven dispatch env
      ((.sendAll actions fun result => .done result : Pending S Action A .settled), world)
      (left, later)) :
    Stands dispatch env actions world left later ∧
      ∀ depth waiter next after, left.poll (.ofDispatch dispatch depth) waiter later = (.ok next, after) →
        ¬next.Held := by
  have stands : Stands dispatch env actions world left later := by
    apply Driven.invariant _ _ driven (.held .refl)
    · intro program now depth waiter stands
      exact (stands.polled depth waiter).mono fun _ _ => And.left
    · intro program now later acts stands
      exact stands.meanwhile acts
  refine ⟨stands, fun depth waiter next after polled => ?_⟩
  exact ((stands.polled depth waiter).holds next after polled).2

end Stages

end Pending

end EffectLoop
