import EffectLoop.Proofs.Program.Straight
import EffectLoop.Proofs.World.Driving
import EffectLoop.Proofs.World.Unaware

/-!
# Polls in a context that answers at once

In a context whose dispatches are answered at once, one poll takes an unhindered computation to its end.
It does there what its straight form does (`Pending.poll_matches`).  Only the books of large joins
differ, for the straight form opens no join.
-/

namespace EffectLoop

variable {S ι : Type} {Action : ι → Type} {A α β γ δ : Type} {answer child : Answer ι}

open World (Beside Undisturbed)

/-! ## Computations that the allowance is enough for -/

/-- The computation does not use up the allowance of nested dispatches. -/
def Run.Afforded (computation : Run S Action A α) : Prop :=
  ∀ world, (computation world).1 ≠ .error .exhausted

namespace Run.Afforded

theorem pure (value : α) : (Pure.pure value : Run S Action A α).Afforded := fun _ => nofun

theorem bind {first : Run S Action A α} {next : α → Run S Action A β} (afforded : first.Afforded)
    (nextAfforded : ∀ value, (next value).Afforded) : (first >>= next).Afforded := by
  intro world
  have safe := afforded world
  rcases ended : first world with ⟨halt | value, middle⟩
  · rw [Run.bind_of_error ended]
    rw [ended] at safe
    exact fun same => safe (congrArg Except.error (Except.error.inj same))
  · rw [Run.bind_of_ok ended]
    exact nextAfforded value middle

theorem adopt (found : Noted α) : (Run.adopt found : Run S Action A α).Afforded := fun _ => nofun

theorem schedule (delay : Duration) (repeating : Bool) (task : Pending S Action A .finished) :
    (Run.schedule delay repeating task).Afforded := by
  intro world
  cases keeper : world.keeper with
  | virtual clock =>
      rw [schedule_virtual keeper]
      cases (clock.schedule delay repeating task).1 <;> exact nofun
  | tasks clock =>
      rw [schedule_tasks keeper]
      exact nofun

theorem clear (handle : TimerHandle) : (Run.clear handle : Run S Action A Bool).Afforded := by
  intro world
  cases keeper : world.keeper with
  | virtual clock =>
      rw [clear_virtual keeper]
      exact nofun
  | tasks clock =>
      rw [clear_tasks keeper]
      exact nofun

theorem deadline (delay : Duration) : (Run.deadline delay : Run S Action A Duration).Afforded := by
  intro world same
  obtain ⟨_, _, _, _, _, _, _, _, keeper, _, _⟩ := world
  cases keeper with
  | virtual clock =>
      simp only [Run.deadline, get_bind] at same
      cases moment : clock.now.add? delay <;> rw [moment] at same <;> cases same
  | tasks clock => cases same

theorem perform (effect : Primitive) :
    (Run.perform effect : Run S Action A (effect.Reply S)).Afforded := by
  cases effect with
  | clear handle => exact clear handle
  | deadline delay => exact deadline delay
  | _ => exact fun _ => nofun

end Run.Afforded

theorem Engine.send_afforded {engine : Engine S Action A}
    (afforded : ∀ action, (engine.dispatch action).Afforded) (action : Noted A) (keep : Bool) :
    (engine.send action keep).Afforded := by
  apply ((Run.Afforded.adopt action).bind afforded).bind
  intro caused
  cases keep <;> exact fun _ => nofun

theorem Prompt.run_afforded {engine : Engine S Action A}
    (afforded : ∀ action, (engine.dispatch action).Afforded) (program : Prompt S Action A α) :
    (program.run engine).Afforded := by
  induction program with
  | done value => exact .pure value
  | call effect next ih => exact (Run.Afforded.perform effect).bind ih
  | send action keep next ih => exact (engine.send_afforded afforded action keep).bind fun _ => ih
  | schedule delay repeating task next ih =>
      exact (Run.Afforded.schedule delay repeating task).bind ih
  | spawn task next ih =>
      have spawned : (Run.spawn task).Afforded := fun _ => nofun
      exact spawned.bind fun _ => ih

/-! ## Contexts -/

/-- Dispatches are answered at once, with a verdict that depends on the action.  What is done for an
action does not depend on the books of large joins.  Nested dispatches may need some allowance, but no
more than that. -/
structure Dispatcher.AnswersAtOnce (dispatch : Dispatcher S Action A)
    (verdict : A → Except CmdFailure Unit) (effect : A → Run S Action A Unit) : Prop where
  unaware : ∀ action, (effect action).Unaware
  affords : ∀ action, (effect action).Afforded
  answers : ∃ reach, ∀ depth ≥ reach, ∀ action, (Engine.ofDispatch dispatch depth).dispatch action =
    effect action >>= fun _ => pure (.done (verdict action))

/-- The context that does and answers the same, but first notes the action. -/
def Dispatcher.noting (verdict : A → Except CmdFailure Unit) (effect : A → Run S Action A Unit) :
    Dispatcher S Action A := fun _ action => do
  Run.emit (.dispatched action)
  effect action
  pure (.done (verdict action))

theorem Dispatcher.AnswersAtOnce.noting {dispatch : Dispatcher S Action A}
    {verdict : A → Except CmdFailure Unit} {effect : A → Run S Action A Unit}
    (answers : dispatch.AnswersAtOnce verdict effect) :
    (Dispatcher.noting verdict effect).AnswersAtOnce verdict fun action => do
      Run.emit (.dispatched action)
      effect action where
  unaware action := (Run.Unaware.emit _).bind fun _ => answers.unaware action
  affords action := by
    have noted : (Run.emit (.dispatched action) : Run S Action A Unit).Afforded := fun _ => nofun
    exact noted.bind fun _ => answers.affords action
  answers := by
    refine ⟨1, fun depth le action => ?_⟩
    obtain ⟨depth, rfl⟩ : ∃ smaller, depth = smaller + 1 := ⟨depth - 1, by omega⟩
    change (Run.emit _ >>= fun _ => effect action >>= fun _ => pure _) = _
    rw [bind_assoc]

/-- The engine of such a context, for computations that are over in the call. -/
def Engine.instant (verdict : A → Except CmdFailure Unit) (effect : A → Run S Action A Unit) :
    Engine S Action A where
  dispatch action := effect action >>= fun _ => pure (.done (verdict action))
  poll _ program := pure program

/-- A computation that is over in the call depends on the engine only by its dispatches. -/
theorem Prompt.run_congr {left right : Engine S Action A} (same : left.dispatch = right.dispatch)
    (program : Prompt S Action A α) : program.run left = program.run right := by
  have sends (action : Noted A) (keep : Bool) : left.send action keep = right.send action keep := by
    simp only [Engine.send, Engine.start, same]
  induction program with
  | done value => rfl
  | call effect next ih => simp only [run, ih]
  | send action keep next ih => simp only [run, sends, ih]
  | schedule delay repeating task next ih => simp only [run, ih]
  | spawn task next ih => simp only [run, ih]

/-! ## Matching computations -/

namespace Run

/-- Given enough allowance, and whatever waits, the second computation does in every world beside this
one what the first does in this one. -/
def Matches (floor : Nat) (near : World S Action A) (related : α → β → Prop) (one : Run S Action A α)
    (other : Nat → Waiter → Run S Action A β) : Prop :=
  ∃ enough, ∀ depth ≥ enough, ∀ waiter far, Beside floor near far →
    Matched floor far.nextTicket far related (one near) (other depth waiter far)

namespace Matches

variable {floor : Nat} {near : World S Action A} {related : α → β → Prop} {last : γ → δ → Prop}
variable {one : Run S Action A α} {other : Nat → Waiter → Run S Action A β}

theorem pure {value : α} {found : β} (holds : related value found) :
    Matches floor near related (Pure.pure value) fun _ _ => Pure.pure found :=
  ⟨0, fun _ _ _ _ _ => .answered holds (by assumption) (.refl le_rfl)⟩

theorem of_unaware {computation : Run S Action A α} (unaware : computation.Unaware) :
    Matches floor near Eq computation fun _ _ => computation :=
  ⟨0, fun _ _ _ far beside => unaware floor near far beside⟩

theorem mono {weaker : α → β → Prop} (matched : Matches floor near related one other)
    (implies : ∀ value found, related value found → weaker value found) :
    Matches floor near weaker one other := by
  obtain ⟨enough, matched⟩ := matched
  exact ⟨enough, fun depth le waiter far beside => (matched depth le waiter far beside).mono implies⟩

/-- What the second computation is with little allowance does not matter. -/
theorem congr {same : Nat → Waiter → Run S Action A β} (reach : Nat)
    (eq : ∀ depth ≥ reach, ∀ waiter, same depth waiter = other depth waiter)
    (matched : Matches floor near related one other) : Matches floor near related one same := by
  obtain ⟨enough, matched⟩ := matched
  refine ⟨max enough reach, fun depth le waiter far beside => ?_⟩
  rw [eq depth ((Nat.le_max_right _ _).trans le) waiter]
  exact matched depth ((Nat.le_max_left _ _).trans le) waiter far beside

/-- Both go on, the second in a way that is known from what the first has answered. -/
theorem bind {oneNext : α → Run S Action A γ} {otherNext : Nat → Waiter → β → Run S Action A δ}
    (first : Matches floor near related one other)
    (next : ∀ value nearer, one near = (.ok value, nearer) → ∃ known : Nat → Waiter → Run S Action A δ,
      (∀ depth waiter found, related value found → otherNext depth waiter found = known depth waiter) ∧
        Matches floor nearer last (oneNext value) known) :
    Matches floor near last (one >>= oneNext) fun depth waiter =>
      other depth waiter >>= otherNext depth waiter := by
  obtain ⟨enough, matched⟩ := first
  have later : ∃ further, ∀ value nearer, one near = (.ok value, nearer) → ∀ depth ≥ further,
      ∀ waiter found far, related value found → Beside floor nearer far →
        Matched floor far.nextTicket far last (oneNext value nearer)
          (otherNext depth waiter found far) := by
    rcases ended : one near with ⟨halt | value, nearer⟩
    · exact ⟨0, nofun⟩
    · obtain ⟨known, same, further, goesOn⟩ := next value nearer ended
      refine ⟨further, ?_⟩
      rintro _ _ ⟨⟩ depth le waiter found far holds beside
      rw [same depth waiter found holds]
      exact goesOn depth le waiter far beside
  obtain ⟨further, goesOn⟩ := later
  refine ⟨max enough further, fun depth le waiter far beside => ?_⟩
  apply (matched depth ((Nat.le_max_left _ _).trans le) waiter far beside).bind
  intro value found nearer farther ended holds beside kept
  have others := goesOn value nearer ended depth ((Nat.le_max_right _ _).trans le) waiter found farther
    holds beside
  exact others.since kept kept.inside

/-- The second computation gives the same answer, and goes on from there. -/
theorem andThen {other : Nat → Waiter → Run S Action A α} {oneNext : α → Run S Action A γ}
    {otherNext : Nat → Waiter → α → Run S Action A δ} (first : Matches floor near Eq one other)
    (next : ∀ value nearer, Matches floor nearer last (oneNext value) (otherNext · · value)) :
    Matches floor near last (one >>= oneNext) fun depth waiter =>
      other depth waiter >>= otherNext depth waiter := by
  apply first.bind
  intro value nearer _
  refine ⟨(otherNext · · value), ?_, next value nearer⟩
  rintro depth waiter _ rfl
  rfl

end Matches

end Run

/-! ## Families -/

section Polls

variable (verdict : A → Except CmdFailure Unit) (effect : A → Run S Action A Unit)
variable (dispatch : Dispatcher S Action A) (floor : Nat)

/-- One poll takes the computation to the end of its straight form. -/
def Pending.GoesStraight (program : Pending S Action A answer) : Prop :=
  ∀ near, Run.Matches floor near (fun value left => left = .done value)
    ((program.straight verdict).run (.instant verdict effect))
    fun depth waiter => program.poll (.ofDispatch dispatch depth) waiter

end Polls

section Families

variable {verdict : A → Except CmdFailure Unit} {effect : A → Run S Action A Unit}
variable {dispatch : Dispatcher S Action A} {floor count : Nat}

theorem Prompt.run_ofFnM (engine : Engine S Action A) (programs : Fin count → Prompt S Action A α) :
    (Vector.ofFnM programs).run engine = Vector.ofFnM fun index => (programs index).run engine := by
  induction count with
  | zero =>
      rw [Vector.ofFnM_zero, Vector.ofFnM_zero]
      rfl
  | succ count ih =>
      rw [Vector.ofFnM_succ, Vector.ofFnM_succ, Prompt.run_bind, ih]
      congr
      funext others
      rw [Prompt.run_bind]
      rfl

/-- The members of a family are polled one after the other. -/
theorem Run.Matches.ofFnM {one : Fin count → Run S Action A (child.Value Action)}
    {other : Fin count → Nat → Waiter → Run S Action A (Pending S Action A child)}
    (each : ∀ index near, Matches floor near (fun value left => left = .done value) (one index)
      (other index)) (near : World S Action A) :
    Matches floor near (fun values left => left = values.map .done) (Vector.ofFnM one)
      fun depth waiter => Vector.ofFnM fun index => other index depth waiter := by
  induction count generalizing near with
  | zero =>
      simp only [Vector.ofFnM_zero]
      exact .pure (by simp)
  | succ count ih =>
      simp only [Vector.ofFnM_succ]
      apply (ih (fun index => each index.castSucc) near).bind
      intro values nearer _
      refine ⟨_, fun depth waiter found same => by rw [same], ?_⟩
      apply (each (Fin.last count) nearer).bind
      intro value later _
      refine ⟨_, fun depth waiter found same => by rw [same], ?_⟩
      exact .pure Vector.map_push.symm

/-- A family by its first member. -/
theorem List.ofFnM_eq_mapM {m : Type → Type} [Monad m] [LawfulMonad m] (each : α → m β)
    (values : Fin count → α) :
    List.ofFnM (fun index => each (values index)) = (List.ofFn values).mapM each := by
  induction count with
  | zero => simp
  | succ count ih =>
      rw [List.ofFnM_succ, List.ofFn_succ, List.mapM_cons]
      simp only [ih]

section Rounds

variable (verdict effect dispatch floor)

/-- Given this allowance, the rest of the children of a large join are taken out of the queue, in order,
and each is polled to the end of its straight form. -/
def Rally.GoesStraight (rest : List (Pending S Action A child)) (near : World S Action A)
    (enough : Nat) : Prop :=
  ∀ depth ≥ enough, ∀ (waiter : Waiter) (ticket : Nat) {count : Nat}
    (before : List (Pending S Action A child)) (children : Vector (Pending S Action A child) count)
    (finished : List Nat) (remaining fuel : Nat) (far : World S Action A),
    children.toList = before ++ rest → Beside floor near far → floor ≤ ticket → ticket < far.nextTicket →
    far.rally? ticket = some ⟨List.range' before.length rest.length, finished⟩ → rest.length ≤ fuel →
    Run.Matched floor ticket far (fun values left => left.toList = before ++ values.map .done)
      (rest.mapM (fun program => (program.straight verdict).run (.instant verdict effect)) near)
      (Rally.poll (Engine.ofDispatch dispatch depth).poll waiter ticket children remaining 0 0 fuel far)

end Rounds

theorem Rally.goesStraight {rest : List (Pending S Action A child)}
    (each : ∀ program ∈ rest, program.GoesStraight verdict effect dispatch floor)
    (near : World S Action A) :
    ∃ enough, GoesStraight verdict effect dispatch floor rest near enough := by
  induction rest generalizing near with
  | nil =>
      refine ⟨0, ?_⟩
      intro depth _ waiter ticket count before children finished remaining fuel far whole beside _ inside
        found _
      rw [poll_nil waiter remaining 0 0 fuel found]
      exact .answered whole beside (.refl inside.le)
  | cons program rest ih =>
      obtain ⟨reach, head⟩ := each program List.mem_cons_self near
      have later : ∃ further, ∀ value nearer,
          (program.straight verdict).run (.instant verdict effect) near = (.ok value, nearer) →
            GoesStraight verdict effect dispatch floor rest nearer further := by
        rcases (program.straight verdict).run (.instant verdict effect) near with ⟨halt | value, nearer⟩
        · exact ⟨0, nofun⟩
        · obtain ⟨further, goesOn⟩ := ih (fun program among => each program (.tail _ among)) nearer
          refine ⟨further, ?_⟩
          rintro _ _ ⟨⟩
          exact goesOn
      obtain ⟨further, goesOn⟩ := later
      refine ⟨max (reach + 1) further, ?_⟩
      intro depth le waiter ticket count before children finished remaining fuel far whole beside above
        inside found enough
      obtain ⟨depth, rfl⟩ : ∃ smaller, depth = smaller + 1 := ⟨depth - 1, by omega⟩
      obtain ⟨fuel, rfl⟩ : ∃ fewer, fuel = fewer + 1 := ⟨fuel - 1, by simp at enough; omega⟩
      obtain ⟨within, first, set⟩ := child_of_append whole rfl
      rw [List.length_cons, List.range'_succ] at found
      rw [List.mapM_cons, Rally.poll, Run.bind_of_ok (takeChild_cons found)]
      dsimp only
      rw [dif_pos within, first]
      -- The joins that the child opens have later tickets, so it leaves the queue of this one alone.
      let taken := far.setRally ticket ⟨List.range' (before.length + 1) rest.length, finished⟩
      have besideTaken : Beside floor near taken := beside.setRally above _
      apply Run.Matched.since (World.undisturbed_setRally _ inside.le) le_rfl
      apply (head depth (by omega) _ taken besideTaken).bind
      rintro value _ nearer farther ended rfl besideLater kept
      have queued := (kept.kept ticket above inside).trans (far.rally?_setRally_self ticket _)
      dsimp only [Pending.result?]
      rw [Run.bind_of_ok (finish_eq queued)]
      apply Run.Matched.image_iff.2
      have insideLater : ticket < farther.nextTicket := Nat.lt_of_lt_of_le inside kept.inside
      have apart : Undisturbed floor ticket taken
          (farther.setRally ticket
            ⟨List.range' (before.length + 1) rest.length, before.length :: finished⟩) := by
        refine ⟨insideLater.le, fun lower aboveLower below => ?_⟩
        rw [farther.rally?_setRally_of_ne ticket _ below.ne]
        exact kept.kept lower aboveLower (below.trans inside)
      have foundLater : (farther.setRally ticket
          ⟨List.range' (before.length + 1) rest.length, before.length :: finished⟩).rally? ticket =
            some ⟨List.range' (before ++ [Pending.done value]).length rest.length,
              before.length :: finished⟩ := by
        rw [farther.rally?_setRally_self, List.length_append]
        rfl
      have others := goesOn value nearer ended (depth + 1) (by omega) waiter ticket _ _ _
        (count - (finished.length + 1)) fuel _ (set _) (besideLater.setRally above _) above insideLater
        foundLater (by simpa using enough)
      refine .since apart le_rfl (others.mono ?_)
      intro values left same
      simpa using same

/-- The same for a computation that is not part of the program, which is polled with less allowance. -/
theorem Pending.GoesStraight.matches_poll {program : Pending S Action A child}
    (straight : program.GoesStraight verdict effect dispatch floor) (near : World S Action A) :
    Run.Matches floor near (fun value left => left = .done value)
      ((program.straight verdict).run (.instant verdict effect))
      fun depth waiter => (Engine.ofDispatch dispatch depth).poll waiter program := by
  obtain ⟨enough, matched⟩ := straight near
  refine ⟨enough + 1, fun depth le => ?_⟩
  obtain ⟨depth, rfl⟩ : ∃ smaller, depth = smaller + 1 := ⟨depth - 1, by omega⟩
  exact matched depth (by omega)

/-- The children of a join that has not been polled before are polled to their ends. -/
theorem Engine.pollFresh_matches {children : Fin count → Pending S Action A child}
    (each : ∀ index, (children index).GoesStraight verdict effect dispatch floor)
    (near : World S Action A) :
    Run.Matches floor near (fun values found => found.2 = values.map .done)
      (Vector.ofFnM fun index => ((children index).straight verdict).run (.instant verdict effect))
      fun depth waiter => (Engine.ofDispatch dispatch depth).pollFresh waiter children := by
  by_cases small : count ≤ Rally.smallJoin
  · obtain ⟨enough, matched⟩ := Run.Matches.ofFnM (fun index => (each index).matches_poll) near
    refine ⟨enough, fun depth le waiter far beside => ?_⟩
    simp only [pollFresh, if_pos small]
    exact (matched depth le waiter far beside).imageOther
  · have members : ∀ program ∈ List.ofFn children,
        program.GoesStraight verdict effect dispatch floor := by
      intro program among
      obtain ⟨index, rfl⟩ := List.mem_ofFn.1 among
      exact each index
    obtain ⟨enough, matched⟩ := Rally.goesStraight members near
    refine ⟨enough, fun depth le waiter far beside => ?_⟩
    simp only [pollFresh, if_neg small]
    rw [Run.bind_of_ok (far.openRally_eq count)]
    have queued : (far.rallied count).rally? far.nextTicket =
        some ⟨List.range' 0 (List.ofFn children).length, []⟩ := by
      rw [far.rally?_rallied, List.length_ofFn, Rally.full_eq_range']
    apply Run.Matched.imageOther
    rw [Rally.resume_full waiter children (far.rally?_rallied count)]
    have polled := matched depth le waiter far.nextTicket [] (Vector.ofFn children) []
      count (count * count + count + 1) (far.rallied count) (by simp [Vector.toList])
      (beside.rallied count) beside.fresh (Nat.lt_succ_self _) queued (by rw [List.length_ofFn]; omega)
    rw [← List.ofFnM_eq_mapM, ← Vector.toList_ofFnM, map_eq_pure_bind, Run.Matched.image_iff] at polled
    refine .since (World.undisturbed_rallied count) le_rfl (polled.mono ?_)
    intro values left same
    rw [List.nil_append] at same
    exact Vector.toList_inj.1 (by rw [same, Vector.toList_map])

/-- The same for a join that is part of the program. -/
theorem Engine.pollJoin_matches {children : Fin count → Pending S Action A child}
    (each : ∀ index, (children index).GoesStraight verdict effect dispatch floor)
    (near : World S Action A) :
    Run.Matches floor near (fun values found => found.2 = values.map .done)
      (Vector.ofFnM fun index => ((children index).straight verdict).run (.instant verdict effect))
      fun depth waiter => (Engine.ofDispatch dispatch depth).pollJoin waiter none children fun index =>
        (children index).poll (.ofDispatch dispatch depth) waiter := by
  by_cases small : count ≤ Rally.smallJoin
  · obtain ⟨enough, matched⟩ := Run.Matches.ofFnM each near
    refine ⟨enough, fun depth le waiter far beside => ?_⟩
    simp only [pollJoin, if_pos small]
    exact (matched depth le waiter far beside).imageOther
  · simp only [pollJoin, if_neg small]
    exact pollFresh_matches each near

/-- A round of polls of computations that are over already, with these replies. -/
theorem Engine.pollFresh_replies (dispatch : Dispatcher S Action A) (floor : Nat)
    (replies : List (Except CmdFailure Unit)) (near : World S Action A) :
    ∃ given, firstFailure given.get = replies.forM id ∧
      Run.Matches floor near (fun values found => results? found.2 = some values)
        (pure given : Run S Action A _) fun depth waiter =>
          (Engine.ofDispatch dispatch depth).pollFresh waiter
            (replies.map fun reply => (.done reply : Pending S Action A .settled)).get := by
  let children : List (Pending S Action A .settled) := replies.map .done
  let reply (index : Fin children.length) := replies.get (index.cast (List.length_map _))
  have member (index : Fin children.length) : children.get index = .done (reply index) := by
    simp [children, reply]
  have straight (index : Fin children.length) :
      (children.get index).GoesStraight (fun _ => .ok ()) (fun _ => pure ()) dispatch floor := by
    rw [member]
    exact fun near => .pure rfl
  have early : (Vector.ofFnM fun index => ((children.get index).straight fun _ => .ok ()).run
      (.instant (fun _ => .ok ()) fun _ => pure ())) =
        (pure (Vector.ofFn reply) : Run S Action A _) := by
    simp only [member]
    exact Vector.ofFnM_pure
  have listed : List.ofFn (Vector.ofFn reply).get = replies := by
    apply List.ext_getElem
    · simp [children]
    · intro place inside within
      simp [Vector.get, reply]
      rfl
  have polled := pollFresh_matches straight near
  rw [early] at polled
  refine ⟨Vector.ofFn reply, by rw [firstFailure, listed], polled.mono fun values found same => ?_⟩
  rw [same, results?_map_done]

end Families

/-! ## One poll -/

section Polls

variable {verdict : A → Except CmdFailure Unit} {effect : A → Run S Action A Unit}

/-- Each dispatch is answered by its verdict. -/
theorem Engine.mapM_start_instant (actions : List (Noted A)) :
    actions.mapM (Engine.instant verdict effect).start =
      (Prompt.sendEach actions : Prompt S Action A Unit).run (.instant verdict effect) >>= fun _ =>
        pure ((Pending.replies verdict actions).map fun reply => .done reply) := by
  induction actions with
  | nil => simp [Prompt.sendEach, Prompt.run, Pending.replies]
  | cons action rest ih =>
      have first : (Engine.instant verdict effect).start action =
          (Engine.instant verdict effect).send action false >>= fun _ =>
            pure (.done (verdict action.value)) := by
        simp [send, start, instant, Run.adopt]
      rw [List.mapM_cons, ih, first]
      simp [Prompt.sendEach, Prompt.run, Pending.replies]

variable {dispatch : Dispatcher S Action A} (answers : dispatch.AnswersAtOnce verdict effect)
variable {floor : Nat}
include answers

theorem Engine.instant_unaware : (Engine.instant verdict effect).Unaware :=
  fun action => (answers.unaware action).bind fun _ => .pure _

/-- With enough allowance the context makes of a dispatched action what the instant engine makes of it. -/
theorem Dispatcher.AnswersAtOnce.exists_reach : ∃ reach, ∀ depth ≥ reach,
    (Engine.ofDispatch dispatch depth).dispatch = (Engine.instant verdict effect).dispatch := by
  obtain ⟨reach, same⟩ := answers.answers
  exact ⟨reach, fun depth le => funext (same depth le)⟩

/-- What a computation that is over in the call does in the context. -/
theorem Prompt.run_matches (program : Prompt S Action A α) (near : World S Action A) :
    Run.Matches floor near Eq (program.run (.instant verdict effect))
      fun depth _ => program.run (.ofDispatch dispatch depth) := by
  obtain ⟨reach, same⟩ := answers.exists_reach
  apply (Run.Matches.of_unaware (program.run_unaware (Engine.instant_unaware answers))).congr reach
  intro depth le _
  exact program.run_congr (same depth le)

theorem Engine.send_matches (action : Noted A) (keep : Bool) (near : World S Action A) :
    Run.Matches floor near Eq ((Engine.instant verdict effect).send action keep)
      fun depth _ => (Engine.ofDispatch dispatch depth).send action keep := by
  obtain ⟨reach, same⟩ := answers.exists_reach
  have unaware := Engine.send_unaware (Engine.instant_unaware answers) action keep
  apply (Run.Matches.of_unaware unaware).congr reach
  intro depth le _
  simp only [send, start, same depth le]

theorem Engine.mapM_start_matches (actions : List (Noted A)) (near : World S Action A) :
    Run.Matches floor near
      (fun _ caused => caused = (Pending.replies verdict actions).map fun reply => .done reply)
      ((Prompt.sendEach actions : Prompt S Action A Unit).run (.instant verdict effect))
      fun depth _ => actions.mapM (Engine.ofDispatch dispatch depth).start := by
  obtain ⟨reach, same⟩ := answers.exists_reach
  have unaware := Prompt.run_unaware (Engine.instant_unaware answers) (Prompt.sendEach actions)
  refine ⟨reach, fun depth le _ far beside => ?_⟩
  have starts (action : Noted A) :
      (ofDispatch dispatch depth).start action = (instant verdict effect).start action := by
    simp only [start, same depth le]
  have sent : actions.mapM (ofDispatch dispatch depth).start = _ :=
    (congrArg actions.mapM (funext starts)).trans (mapM_start_instant actions)
  dsimp only
  rw [sent]
  apply Run.Matched.imageOther
  exact (unaware floor near far beside).mono fun _ _ _ => rfl

/-- One poll takes an unhindered computation to its end. -/
theorem Pending.poll_matches {program : Pending S Action A answer} (unhindered : program.Unhindered) :
    program.GoesStraight verdict effect dispatch floor := by
  induction program with
  | done value => exact fun near => .pure rfl
  | call effect next ih =>
      intro near
      simp only [straight, Prompt.run, poll]
      apply (Run.Matches.of_unaware (.perform effect)).andThen
      intro reply nearer
      exact ih reply (unhindered reply) nearer
  | send action keep next ih =>
      intro near
      simp only [straight, Prompt.run, poll]
      apply (Engine.send_matches answers action keep near).andThen
      intro _ nearer
      exact ih unhindered nearer
  | schedule delay repeating task next _ ih =>
      intro near
      simp only [straight, Prompt.run, poll]
      apply (Run.Matches.of_unaware (.schedule delay repeating task)).andThen
      intro handle nearer
      exact ih handle (unhindered handle) nearer
  | spawn task next _ ih =>
      intro near
      simp only [straight, Prompt.run, poll]
      apply (Run.Matches.of_unaware (.spawn task)).andThen
      intro _ nearer
      exact ih unhindered nearer
  | sendAll actions next ih =>
      intro near
      have ran : (straight verdict (.sendAll actions next)).run (.instant verdict effect) =
          (Prompt.sendEach actions : Prompt S Action A Unit).run (.instant verdict effect) >>= fun _ =>
            ((next (replied verdict actions)).straight verdict).run (.instant verdict effect) :=
        Prompt.run_bind ..
      rw [ran]
      simp only [poll]
      apply (Engine.mapM_start_matches answers actions near).bind
      intro _ nearer _
      refine ⟨_, fun depth waiter found same => by rw [same], ?_⟩
      obtain ⟨given, first, replies⟩ := Engine.pollFresh_replies dispatch floor
        (Pending.replies verdict actions) nearer
      rw [replied, ← first, ← pure_bind given fun values : Vector (Except CmdFailure Unit) _ =>
        ((next (firstFailure values.get)).straight verdict).run (.instant verdict effect)]
      apply replies.bind
      intro values later _
      refine ⟨_, fun depth waiter found same => ?_, ih (firstFailure values.get) (unhindered _) later⟩
      rw [same]
  | join ticket children next childrenIH ih =>
      obtain ⟨rfl, childrenStraight, afterwards⟩ := unhindered
      intro near
      have ran : (straight verdict (.join none children next)).run (.instant verdict effect) =
          (Vector.ofFnM fun index => ((children index).straight verdict).run
            (.instant verdict effect)) >>=
            fun values => ((next values.get).straight verdict).run (.instant verdict effect) := by
        rw [← Prompt.run_ofFnM]
        exact Prompt.run_bind ..
      rw [ran]
      simp only [poll]
      apply (Engine.pollJoin_matches (fun index => childrenIH index (childrenStraight index)) near).bind
      intro values nearer _
      refine ⟨_, fun depth waiter found same => ?_, ih values.get (afterwards _) nearer⟩
      rw [same, results?_map_done]
  | _ => exact unhindered.elim

end Polls

end EffectLoop
