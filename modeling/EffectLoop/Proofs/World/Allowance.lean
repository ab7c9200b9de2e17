import EffectLoop.World.Host

/-!
# The allowance of nested dispatches

The engine of a host allows dispatches to nest only so deep.  The allowance decides whether a
computation comes to its end, and nothing else: unless it is used up, a larger one leads to the same
answer, or to the same panic, in the same world.
-/

namespace EffectLoop

variable {S ι : Type} {Action : ι → Type} {A α β : Type} {answer : Answer ι} {alphabet : ι}

/-! ## Computations -/

namespace Run

/-- Unless the first computation uses up its allowance, the second one does what it does. -/
def Refines (small large : Run S Action A α) : Prop :=
  ∀ world, (small world).1 = .error .exhausted ∨ large world = small world

namespace Refines

theorem refl (computation : Run S Action A α) : Refines computation computation :=
  fun _ => .inr rfl

theorem exhausted (large : Run S Action A α) :
    Refines (MonadExcept.throw .exhausted : Run S Action A α) large :=
  fun _ => .inl rfl

theorem bind {small large : Run S Action A α} {smallNext largeNext : α → Run S Action A β}
    (first : Refines small large) (next : ∀ value, Refines (smallNext value) (largeNext value)) :
    Refines (small >>= smallNext) (large >>= largeNext) := by
  intro world
  cases smallEnd : small world with
  | mk result middle =>
    cases result with
    | error halt =>
        cases first world with
        | inl spent =>
            rw [smallEnd] at spent
            cases spent
            exact .inl (by rw [bind_of_error smallEnd])
        | inr same =>
            right
            rw [bind_of_error smallEnd, bind_of_error (same.trans smallEnd)]
    | ok value =>
        cases first world with
        | inl spent =>
            rw [smallEnd] at spent
            cases spent
        | inr same =>
            rw [bind_of_ok smallEnd, bind_of_ok (same.trans smallEnd)]
            exact next value middle

/-- After the same beginning. -/
theorem after (first : Run S Action A α) {smallNext largeNext : α → Run S Action A β}
    (next : ∀ value, Refines (smallNext value) (largeNext value)) :
    Refines (first >>= smallNext) (first >>= largeNext) :=
  (refl first).bind next

theorem mapM {small large : α → Run S Action A β}
    (each : ∀ value, Refines (small value) (large value)) (values : List α) :
    Refines (values.mapM small) (values.mapM large) := by
  induction values with
  | nil => exact refl _
  | cons value rest ih =>
      rw [List.mapM_cons, List.mapM_cons]
      refine (each value).bind fun found => ?_
      exact ih.bind fun others => refl _

theorem ofFnM {count : Nat} {small large : Fin count → Run S Action A α}
    (each : ∀ index, Refines (small index) (large index)) :
    Refines (Vector.ofFnM small) (Vector.ofFnM large) := by
  induction count with
  | zero =>
      rw [Vector.ofFnM_zero, Vector.ofFnM_zero]
      exact refl _
  | succ count ih =>
      rw [Vector.ofFnM_succ, Vector.ofFnM_succ]
      refine (ih fun index => each index.castSucc).bind fun found => ?_
      exact (each (Fin.last count)).bind fun final => refl _

/-- What answers with a small allowance answers with a large one. -/
theorem of_ok {small large : Run S Action A α} (refines : Refines small large) {value : α}
    {world after : World S Action A} (answered : small world = (.ok value, after)) :
    large world = (.ok value, after) := by
  cases refines world with
  | inl spent =>
      rw [answered] at spent
      cases spent
  | inr same => exact same.trans answered

end Refines

end Run

/-! ## Engines -/

/-- Unless the first engine uses up its allowance, the second one does what it does. -/
structure Engine.Refines (small large : Engine S Action A) : Prop where
  dispatch : ∀ action, Run.Refines (small.dispatch action) (large.dispatch action)
  poll : ∀ {answer : Answer ι} (waiter : Waiter) (pending : Pending S Action A answer),
    Run.Refines (small.poll waiter pending) (large.poll waiter pending)

section Programs

variable {small large : Engine S Action A} (refines : small.Refines large)

namespace Rally

variable {pollSmall pollLarge :
  Waiter → Pending S Action A answer → Run S Action A (Pending S Action A answer)}
variable (polls : ∀ waiter child, Run.Refines (pollSmall waiter child) (pollLarge waiter child))
include polls

theorem poll_refines (waiter : Waiter) (ticket : Nat) {count : Nat}
    (children : Vector (Pending S Action A answer) count) (remaining stopped restless fuel : Nat) :
    Run.Refines (poll pollSmall waiter ticket children remaining stopped restless fuel)
      (poll pollLarge waiter ticket children remaining stopped restless fuel) := by
  induction fuel generalizing children remaining stopped restless with
  | zero => exact .refl _
  | succ fuel ih =>
      apply Run.Refines.after (takeChild ticket)
      intro taken
      cases taken with
      | none => exact .refl _
      | some place =>
          dsimp only
          split
          next inside =>
              apply (polls _ _).bind
              intro left
              cases left.result? with
              | some value =>
                  apply Run.Refines.after (finish ticket place)
                  intro before
                  exact ih _ _ _ _
              | none =>
                  apply Run.Refines.after (isQueued ticket place)
                  intro queued
                  -- Whether the child is queued only decides the count of restless children.
                  generalize (if queued = true then restless + 1 else restless) = counted
                  split
                  · exact .refl _
                  · exact ih _ _ _ _
          next => exact .refl _

theorem resume_refines (waiter : Waiter) (ticket : Nat) {count : Nat}
    (children : Fin count → Pending S Action A answer) :
    Run.Refines (resume pollSmall waiter ticket children)
      (resume pollLarge waiter ticket children) := by
  apply Run.Refines.after get
  intro world
  exact poll_refines polls waiter ticket _ _ _ _ _

end Rally

include refines

namespace Engine

theorem start_refines (action : Noted A) :
    Run.Refines (small.start action) (large.start action) :=
  .after (Run.adopt action) refines.dispatch

theorem send_refines (action : Noted A) (keep : Bool) :
    Run.Refines (small.send action keep) (large.send action keep) :=
  (start_refines refines action).bind fun _ => .refl _

theorem pollFresh_refines (waiter : Waiter) {count : Nat}
    (children : Fin count → Pending S Action A answer) :
    Run.Refines (small.pollFresh waiter children) (large.pollFresh waiter children) := by
  unfold pollFresh
  split
  · refine Run.Refines.bind (.ofFnM fun index => ?_) fun _ => .refl _
    exact refines.poll waiter (children index)
  · apply Run.Refines.after (Rally.openRally count)
    intro ticket
    exact (Rally.resume_refines refines.poll waiter ticket children).bind fun _ => .refl _

theorem pollJoin_refines (waiter : Waiter) {count : Nat} (ticket : Option Nat)
    (children : Fin count → Pending S Action A answer)
    {each eachLarge : Fin count → Run S Action A (Pending S Action A answer)}
    (eachRefines : ∀ index, Run.Refines (each index) (eachLarge index)) :
    Run.Refines (small.pollJoin waiter ticket children each)
      (large.pollJoin waiter ticket children eachLarge) := by
  unfold pollJoin
  split
  · exact Run.Refines.bind (.ofFnM eachRefines) fun _ => .refl _
  · cases ticket with
    | none => exact pollFresh_refines refines waiter children
    | some ticket =>
        exact (Rally.resume_refines refines.poll waiter ticket children).bind fun _ => .refl _

end Engine

theorem Prompt.run_refines (program : Prompt S Action A α) :
    Run.Refines (program.run small) (program.run large) := by
  induction program with
  | done value => exact .refl _
  | call effect next ih => exact .after (Run.perform effect) ih
  | send action keep next ih =>
      exact (Engine.send_refines refines action keep).bind fun _ => ih
  | schedule delay repeating task next ih => exact .after _ ih
  | spawn task next ih => exact .after (Run.spawn task) fun _ => ih

theorem Pending.poll_refines (waiter : Waiter) (pending : Pending S Action A answer) :
    Run.Refines (pending.poll small waiter) (pending.poll large waiter) := by
  induction pending with
  | done value => exact .refl _
  | call effect next ih => exact .after (Run.perform effect) ih
  | send action keep next ih =>
      exact (Engine.send_refines refines action keep).bind fun _ => ih
  | schedule delay repeating task next _ ih => exact .after _ ih
  | spawn task next _ ih => exact .after (Run.spawn task) fun _ => ih
  | wait gate next ih =>
      apply Run.Refines.after get
      intro world
      split
      · exact ih
      · exact .refl _
  | resumeAt moment next ih =>
      apply Run.Refines.after get
      intro world
      split
      all_goals
        split
        · exact ih
        · exact .refl _
  | sendAll actions next ih =>
      rw [poll, poll]
      apply (Run.Refines.mapM (Engine.start_refines refines) _).bind
      intro caused
      apply (Engine.pollFresh_refines refines waiter caused.get).bind
      intro found
      dsimp only
      split
      · exact ih _
      · exact .refl _
  | settling ticket caused next causedIH ih =>
      rw [poll, poll]
      apply (Engine.pollJoin_refines refines waiter ticket caused causedIH).bind
      intro found
      dsimp only
      split
      · exact ih _
      · exact .refl _
  | join ticket children next childrenIH ih =>
      rw [poll, poll]
      apply (Engine.pollJoin_refines refines waiter ticket children childrenIH).bind
      intro found
      dsimp only
      split
      · exact ih _
      · exact .refl _
  | advanceTo target ticket driven next drivenIH ih =>
      rw [poll, poll]
      apply Run.Refines.after get
      intro world
      split
      · apply (Engine.pollJoin_refines refines waiter ticket driven drivenIH).bind
        intro found
        dsimp only
        split
        · exact .refl _
        · apply Run.Refines.after (Run.nextDriven target)
          intro due
          cases due with
          | none => exact ih
          | some driven => exact refines.poll waiter _
      · split
        · exact ih
        · exact .refl _
  | interval handle period due task running _ runningIH =>
      rw [poll, poll]
      apply (Engine.pollJoin_refines refines waiter none running runningIH).bind
      intro found
      dsimp only
      split
      · exact .refl _
      · apply Run.Refines.after get
        intro world
        split
        · exact .refl _
        · split
          · exact .after (Run.emit _) fun _ => refines.poll waiter _
          · exact .refl _

end Programs

/-! ## Hosts -/

section Hosts

variable {small large : Engine S Action (Action alphabet)} (refines : small.Refines large)
include refines

theorem Store.launch_refines (store : Store S Action alphabet) (cmd : Cmd S Action alphabet) :
    Run.Refines (store.launch small cmd) (store.launch large cmd) := by
  unfold launch
  split
  · exact .refl _
  · apply Run.Refines.after (store.observe _)
    intro _
    exact (Prompt.run_refines refines _).bind fun _ => .refl _

theorem Store.dispatch_refines (store : Store S Action alphabet) (action : Action alphabet) :
    Run.Refines (store.dispatch small action) (store.dispatch large action) := by
  apply Run.Refines.after (store.observe _)
  intro _
  apply Run.Refines.after (store.reduce action)
  intro loop
  exact .after (commit loop.lift.1) fun _ => store.launch_refines refines loop.lift.2

theorem Host.dispatch_refines (host : Host S Action alphabet) (action : Action alphabet) :
    Run.Refines (host.dispatch small action) (host.dispatch large action) := by
  cases host with
  | recording options plan => exact .refl _
  | store held =>
      apply Run.Refines.after get
      intro world
      split
      · exact held.dispatch_refines refines action
      · exact .refl _

end Hosts

/-- A larger allowance changes nothing unless the smaller one is used up. -/
theorem Host.engine_refines (host : Host S Action alphabet) {depth larger : Nat}
    (atLeast : depth ≤ larger) : (host.engine depth).Refines (host.engine larger) := by
  induction depth generalizing larger with
  | zero => exact ⟨fun _ => .exhausted _, fun _ _ => .exhausted _⟩
  | succ depth ih =>
      cases larger with
      | zero => exact absurd atLeast (Nat.not_succ_le_zero depth)
      | succ larger =>
          have inner := ih (Nat.le_of_succ_le_succ atLeast)
          exact ⟨host.dispatch_refines inner, Pending.poll_refines inner⟩

end EffectLoop
