import EffectLoop.World.Host
import EffectLoop.Proofs.Program.Rendering
import EffectLoop.Proofs.World.Families

/-!
# Runs that mirror each other

Two computations *mirror* each other if from every world they lead to the same world, and either both
halt for the same reason or both answer.  A poll of a program and a poll of a rendering of it mirror
each other, and what they leave is again a program and its rendering.  So whatever else happens between
polls, the two cannot be told apart before they are over.

This is said of every context: `Engine.ofDispatch dispatch` is the engine of a context that does
`dispatch` with the actions that are dispatched in it.
-/

namespace EffectLoop

variable {S ι : Type} {Action : ι → Type} {A α β γ δ : Type} {answer other child kin : Answer ι}

/-- What a context makes of a dispatched action, given an engine for what that causes. -/
abbrev Dispatcher (S : Type) {ι : Type} (Action : ι → Type) (A : Type) :=
  Engine S Action A → A → Run S Action A (Pending S Action A .settled)

/-- The engine of a context.  Dispatches may nest `depth` deep. -/
def Engine.ofDispatch (dispatch : Dispatcher S Action A) : (depth : Nat) → Engine S Action A
  | 0 => ⟨fun _ => throw .exhausted, fun _ _ => throw .exhausted⟩
  | depth + 1 =>
      { dispatch := fun action => dispatch (ofDispatch dispatch depth) action
        poll := fun waiter pending => pending.poll (ofDispatch dispatch depth) waiter }

/-- A host is a context. -/
theorem Host.engine_eq_ofDispatch {alphabet : ι} (host : Host S Action alphabet) (depth : Nat) :
    host.engine depth = Engine.ofDispatch host.dispatch depth := by
  induction depth with
  | zero => rfl
  | succ depth ih => simp only [Host.engine, Engine.ofDispatch, ih]

namespace Run

/-- The same halt or related answers, in the same world. -/
inductive Alike (related : α → β → Prop) :
    Except Halt α × World S Action A → Except Halt β × World S Action A → Prop where
  | answered {left : α} {right : β} (world : World S Action A) : related left right →
      Alike related (.ok left, world) (.ok right, world)
  | halted (halt : Halt) (world : World S Action A) :
      Alike related (.error halt, world) (.error halt, world)

/-- From every world the two computations lead to the same world, with the same halt or with related
answers. -/
def Mirrors (related : α → β → Prop) (left : Run S Action A α) (right : Run S Action A β) : Prop :=
  ∀ world, Alike related (left world) (right world)

namespace Mirrors

variable {related : α → β → Prop} {next : γ → δ → Prop}

theorem pure {left : α} {right : β} (holds : related left right) :
    Mirrors related (Pure.pure left : Run S Action A α) (Pure.pure right) :=
  fun world => .answered world holds

theorem throw (halt : Halt) :
    Mirrors related (MonadExcept.throw halt : Run S Action A α) (MonadExcept.throw halt) :=
  fun world => .halted halt world

theorem bind {left : Run S Action A α} {right : Run S Action A β} {leftNext : α → Run S Action A γ}
    {rightNext : β → Run S Action A δ} (first : Mirrors related left right)
    (second : ∀ leftValue rightValue, related leftValue rightValue →
      Mirrors next (leftNext leftValue) (rightNext rightValue)) :
    Mirrors next (left >>= leftNext) (right >>= rightNext) := by
  intro world
  have alike := first world
  cases leftEnd : left world with
  | mk leftResult leftWorld =>
    cases rightEnd : right world with
    | mk rightResult rightWorld =>
      rw [leftEnd, rightEnd] at alike
      cases alike with
      | answered world holds =>
          rw [bind_of_ok leftEnd, bind_of_ok rightEnd]
          exact second _ _ holds _
      | halted halt world =>
          rw [bind_of_error leftEnd, bind_of_error rightEnd]
          exact .halted halt _

/-- After the same beginning. -/
theorem after (first : Run S Action A α) {leftNext : α → Run S Action A γ}
    {rightNext : α → Run S Action A δ}
    (second : ∀ value, Mirrors next (leftNext value) (rightNext value)) :
    Mirrors next (first >>= leftNext) (first >>= rightNext) := by
  have same : Mirrors Eq first first := by
    intro world
    cases first world with
    | mk result world =>
      cases result with
      | ok value => exact .answered world rfl
      | error halt => exact .halted halt world
  apply same.bind
  intro left right equal
  cases equal
  exact second left

theorem ofFnM {count : Nat} {left : Fin count → Run S Action A α}
    {right : Fin count → Run S Action A β}
    (each : ∀ index, Mirrors related (left index) (right index)) :
    Mirrors (fun found changed => ∀ index, related (found.get index) (changed.get index))
      (Vector.ofFnM left) (Vector.ofFnM right) := by
  induction count with
  | zero =>
      rw [Vector.ofFnM_zero, Vector.ofFnM_zero]
      apply pure
      intro index
      exact index.elim0
  | succ count ih =>
      rw [Vector.ofFnM_succ, Vector.ofFnM_succ]
      apply bind (ih fun index => each index.castSucc)
      intro found changed holds
      apply bind (each (Fin.last count))
      intro final finalChanged finalHolds
      apply pure
      intro index
      cases index using Fin.lastCases with
      | last =>
          change related (found.push final)[count] (changed.push finalChanged)[count]
          rw [Vector.getElem_push_eq, Vector.getElem_push_eq]
          exact finalHolds
      | cast index =>
          change related (found.push final)[index.val] (changed.push finalChanged)[index.val]
          rw [Vector.getElem_push_lt index.isLt, Vector.getElem_push_lt index.isLt]
          exact holds index

end Mirrors

end Run

/-! ## Families and their renderings -/

/-- Every member of a family is rendered, in its place. -/
abbrev RenderedEach (part : child.Value Action → kin.Value Action) {count : Nat}
    (children : Vector (Pending S Action A child) count)
    (changed : Vector (Pending S Action A kin) count) : Prop :=
  ∀ index, (children.get index).Renders part (changed.get index)

/-- A family is over when its renderings are, and the results are the images. -/
theorem RenderedEach.results? {part : child.Value Action → kin.Value Action} {count : Nat}
    {children : Vector (Pending S Action A child) count}
    {changed : Vector (Pending S Action A kin) count} (each : RenderedEach part children changed) :
    results? changed = (results? children).map (Vector.map part) := by
  cases complete : EffectLoop.results? children with
  | some results =>
      apply results?_eq_some_iff.2
      intro index
      apply Pending.result?_eq_some_iff.1
      rw [(each index).result?, done_of_results? complete index]
      exact congrArg some (Vector.getElem_map part index.isLt).symm
  | none =>
      cases changedComplete : EffectLoop.results? changed with
      | none => rfl
      | some results =>
          have ended (index) : ∃ value, children.get index = .done value := by
            have image := Pending.result?_eq_some_iff.2 (done_of_results? changedComplete index)
            rw [(each index).result?] at image
            obtain ⟨value, result, -⟩ := Option.map_eq_some_iff.1 image
            exact ⟨value, Pending.result?_eq_some_iff.1 result⟩
          choose values result using ended
          have all : EffectLoop.results? children = some (Vector.ofFn values) := by
            apply results?_eq_some_iff.2
            intro index
            rw [result index]
            exact congrArg Pending.done (Vector.getElem_ofFn index.isLt).symm
          rw [complete] at all
          cases all

theorem RenderedEach.set {part : child.Value Action → kin.Value Action} {count : Nat}
    {children : Vector (Pending S Action A child) count}
    {changed : Vector (Pending S Action A kin) count} (each : RenderedEach part children changed)
    {place : Nat} (inside : place < count) {left : Pending S Action A child}
    {right : Pending S Action A kin} (renders : left.Renders part right) :
    RenderedEach part (children.set place left) (changed.set place right) := by
  intro index
  change ((children.set place left)[index.val]).Renders part ((changed.set place right)[index.val])
  rw [Vector.getElem_set, Vector.getElem_set]
  split
  · exact renders
  · exact each index

/-! ## Polls -/

/-- The engine polls a program and a rendering of it alike. -/
def Engine.Faithful (engine : Engine S Action A) : Prop :=
  ∀ ⦃answer other : Answer ι⦄ ⦃image : answer.Value Action → other.Value Action⦄
    ⦃program : Pending S Action A answer⦄ ⦃rendered : Pending S Action A other⦄,
    program.Renders image rendered → ∀ waiter,
      Run.Mirrors (Pending.Renders image) (engine.poll waiter program) (engine.poll waiter rendered)

section Joins

variable {part : child.Value Action → kin.Value Action} {count : Nat}

namespace Rally

variable {pollChild : Waiter → Pending S Action A child → Run S Action A (Pending S Action A child)}
variable {pollKin : Waiter → Pending S Action A kin → Run S Action A (Pending S Action A kin)}
variable (faithful : ∀ {program rendered}, program.Renders part rendered → ∀ waiter,
  Run.Mirrors (Pending.Renders part) (pollChild waiter program) (pollKin waiter rendered))
include faithful

theorem poll_mirrors (waiter : Waiter) (ticket : Nat)
    {children : Vector (Pending S Action A child) count}
    {changed : Vector (Pending S Action A kin) count} (each : RenderedEach part children changed)
    (remaining stopped restless fuel : Nat) :
    Run.Mirrors (RenderedEach part)
      (poll pollChild waiter ticket children remaining stopped restless fuel)
      (poll pollKin waiter ticket changed remaining stopped restless fuel) := by
  induction fuel generalizing children changed remaining stopped restless with
  | zero => exact .pure each
  | succ fuel ih =>
      apply Run.Mirrors.after (takeChild ticket)
      intro taken
      cases taken with
      | none => exact .pure each
      | some place =>
          dsimp only
          split
          next inside =>
              apply (faithful (each ⟨place, inside⟩) _).bind
              intro left right renders
              have setEach := each.set inside renders
              rw [renders.result?]
              cases left.result? with
              | some value =>
                  apply Run.Mirrors.after (finish ticket place)
                  intro before
                  exact ih setEach _ _ _
              | none =>
                  apply Run.Mirrors.after (isQueued ticket place)
                  intro queued
                  -- The queue only decides the count of restless children; both cases go on alike.
                  split
                  all_goals
                    split
                    · apply Run.Mirrors.after (Run.update (·.wake waiter))
                      intro _
                      exact .pure setEach
                    · exact ih setEach _ _ _
          next => exact .pure each

theorem resume_mirrors (waiter : Waiter) (ticket : Nat)
    {children : Fin count → Pending S Action A child}
    {changed : Fin count → Pending S Action A kin}
    (each : ∀ index, (children index).Renders part (changed index)) :
    Run.Mirrors (RenderedEach part) (resume pollChild waiter ticket children)
      (resume pollKin waiter ticket changed) := by
  apply Run.Mirrors.after get
  intro world
  apply poll_mirrors faithful
  intro index
  change (Vector.ofFn children)[index.val].Renders part (Vector.ofFn changed)[index.val]
  rw [Vector.getElem_ofFn, Vector.getElem_ofFn]
  exact each index

end Rally

/-- What a poll of a join leaves: its ticket, and its children with their renderings. -/
def RenderedJoin (part : child.Value Action → kin.Value Action)
    (found : Option Nat × Vector (Pending S Action A child) count)
    (changed : Option Nat × Vector (Pending S Action A kin) count) : Prop :=
  found.1 = changed.1 ∧ RenderedEach part found.2 changed.2

variable {engine : Engine S Action A} (faithful : engine.Faithful)
include faithful

theorem Engine.pollJoin_mirrors (waiter : Waiter) (ticket : Option Nat)
    {children : Fin count → Pending S Action A child}
    {changed : Fin count → Pending S Action A kin}
    (each : ∀ index, (children index).Renders part (changed index))
    {pollEach : Fin count → Run S Action A (Pending S Action A child)}
    {pollChanged : Fin count → Run S Action A (Pending S Action A kin)}
    (polled : ∀ index,
      Run.Mirrors (Pending.Renders part) (pollEach index) (pollChanged index)) :
    Run.Mirrors (RenderedJoin part) (engine.pollJoin waiter ticket children pollEach)
      (engine.pollJoin waiter ticket changed pollChanged) := by
  have resumed (ticket : Nat) : Run.Mirrors (RenderedJoin part)
      (Rally.resume engine.poll waiter ticket children >>= fun left => pure (some ticket, left))
      (Rally.resume engine.poll waiter ticket changed >>= fun left => pure (some ticket, left)) := by
    apply (Rally.resume_mirrors (@faithful _ _ _) waiter ticket each).bind
    intro left right holds
    exact .pure ⟨rfl, holds⟩
  unfold pollJoin
  split
  next =>
      apply (Run.Mirrors.ofFnM polled).bind
      intro left right holds
      exact .pure ⟨rfl, holds⟩
  next large =>
      cases ticket with
      | some ticket => exact resumed ticket
      | none =>
          simp only [pollFresh, if_neg large]
          exact .after (Rally.openRally count) resumed

end Joins

/-- A poll of a rendering mirrors the poll of the program. -/
theorem Pending.poll_mirrors {engine : Engine S Action A} (faithful : engine.Faithful)
    {image : answer.Value Action → other.Value Action} {program : Pending S Action A answer}
    {rendered : Pending S Action A other} (renders : program.Renders image rendered)
    (waiter : Waiter) :
    Run.Mirrors (Pending.Renders image) (program.poll engine waiter)
      (rendered.poll engine waiter) := by
  induction renders with
  | done value => exact .pure (.done value)
  | call effect _ ih => exact .after _ ih
  | send action keep _ ih =>
      apply Run.Mirrors.after (engine.send action keep)
      intro _
      exact ih
  | schedule delay repeating task _ ih => exact .after _ ih
  | spawn task _ ih =>
      apply Run.Mirrors.after (Run.spawn task)
      intro _
      exact ih
  | wait gate renders ih =>
      apply Run.Mirrors.after get
      intro world
      split
      · exact ih
      · apply Run.Mirrors.after
        intro _
        exact .pure (.wait gate renders)
  | resumeAt moment renders ih =>
      apply Run.Mirrors.after get
      intro world
      split
      · split
        · exact ih
        · exact .pure (.resumeAt moment renders)
      · split
        · exact ih
        · apply Run.Mirrors.after
          intro _
          exact .pure (.resumeAt moment renders)
  | sendAll actions renders ih =>
      rw [poll, poll]
      apply Run.Mirrors.after
      intro caused
      apply Run.Mirrors.after
      intro found
      dsimp only
      split
      · exact ih _
      · exact .pure (.settling _ _ renders)
  | settling ticket caused renders ih =>
      rw [poll, poll]
      apply Run.Mirrors.after
      intro found
      dsimp only
      split
      · exact ih _
      · exact .pure (.settling _ _ renders)
  | join part ticket each renders eachIH ih =>
      rw [poll, poll]
      apply (Engine.pollJoin_mirrors faithful waiter ticket each eachIH).bind
      intro found changed holds
      cases found with
      | mk ticket left =>
      cases changed with
      | mk sameTicket right =>
      cases holds with
      | intro same each =>
      cases same
      dsimp only at each ⊢
      rw [each.results?]
      cases results? left with
      | some results =>
          have images : (results.map part).get = fun index => part (results.get index) := by
            funext index
            exact Vector.getElem_map part index.isLt
          dsimp only [Option.map_some]
          rw [images]
          exact ih results.get
      | none => exact .pure (.join part _ each renders)
  | advanceTo target ticket driven renders ih =>
      rw [poll, poll]
      apply Run.Mirrors.after get
      intro world
      split
      · apply Run.Mirrors.after
        intro found
        dsimp only
        split
        · exact .pure (.advanceTo _ _ _ renders)
        · apply Run.Mirrors.after
          intro due
          cases due with
          | none => exact ih
          | some driven => exact faithful (.advanceTo _ _ _ renders) waiter
      · split
        · exact ih
        · apply Run.Mirrors.after
          intro _
          exact .pure (.advanceTo _ _ _ renders)
  | interval handle period due task running =>
      rw [poll, poll]
      apply Run.Mirrors.after
      intro found
      dsimp only
      split
      · exact .pure (.interval _ _ _ _ _)
      · apply Run.Mirrors.after get
        intro world
        split
        · exact .pure (.interval _ _ _ _ _)
        · split
          · apply Run.Mirrors.after
            intro _
            exact faithful (.interval _ _ _ _ _) waiter
          · apply Run.Mirrors.after
            intro _
            exact .pure (.interval _ _ _ _ _)

/-- However deep dispatches may nest, the engine of a context polls alike. -/
theorem Engine.ofDispatch_faithful (dispatch : Dispatcher S Action A) (depth : Nat) :
    (Engine.ofDispatch dispatch depth).Faithful := by
  induction depth with
  | zero =>
      intro answer other image program rendered renders waiter
      exact .throw .exhausted
  | succ depth ih =>
      intro answer other image program rendered renders waiter
      exact Pending.poll_mirrors ih renders waiter


/-! ## What can be seen -/

theorem Prompt.run_bind (engine : Engine S Action A) (first : Prompt S Action A α)
    (after : α → Prompt S Action A β) :
    (first >>= after).run engine = first.run engine >>= fun value => (after value).run engine := by
  change (first.bind after).run engine = _
  induction first with
  | done value => simp only [bind, run, pure_bind]
  | call effect next ih => simp only [bind, run, ih, LawfulMonad.bind_assoc]
  | send action keep next ih => simp only [bind, run, ih, LawfulMonad.bind_assoc]
  | schedule delay repeating task next ih => simp only [bind, run, ih, LawfulMonad.bind_assoc]
  | spawn task next ih => simp only [bind, run, ih, LawfulMonad.bind_assoc]

theorem Prompt.run_map (engine : Engine S Action A) (image : α → β) (program : Prompt S Action A α) :
    (image <$> program).run engine = image <$> program.run engine := by
  rw [map_eq_pure_bind, run_bind, map_eq_pure_bind]
  rfl

/-- A poll of a computation, after anything else that happens in the world. -/
structure Turn (S : Type) {ι : Type} (Action : ι → Type) (A : Type) where
  meanwhile : World S Action A → World S Action A
  depth : Nat
  waiter : Waiter

/-- What can be seen after a poll: the result, if the computation is over, or the halt that ended it,
and the world. -/
abbrev Sight (S : Type) {ι : Type} (Action : ι → Type) (A : Type) (answer : Answer ι) :=
  Except Halt (Option (answer.Value Action)) × World S Action A

/-- What can be seen of a computation that is given turns. -/
def Pending.seen (dispatch : Dispatcher S Action A) : List (Turn S Action A) →
    Pending S Action A answer → World S Action A → List (Sight S Action A answer)
  | [], _, _ => []
  | turn :: later, program, world =>
      match program.poll (.ofDispatch dispatch turn.depth) turn.waiter (turn.meanwhile world) with
      | (.ok left, after) => (.ok left.result?, after) :: left.seen dispatch later after
      | (.error halt, after) => [(.error halt, after)]

/-- Nothing tells a program from a rendering that leaves its result as it is. -/
theorem Pending.seen_eq_of_renders (dispatch : Dispatcher S Action A)
    {program rendered : Pending S Action A answer} (renders : program.Renders id rendered)
    (turns : List (Turn S Action A)) (world : World S Action A) :
    program.seen dispatch turns world = rendered.seen dispatch turns world := by
  induction turns generalizing program rendered world with
  | nil => rfl
  | cons turn later ih =>
      have faithful := Engine.ofDispatch_faithful dispatch turn.depth
      have alike := poll_mirrors faithful renders turn.waiter (turn.meanwhile world)
      simp only [seen]
      generalize program.poll _ turn.waiter _ = left at alike ⊢
      generalize rendered.poll _ turn.waiter _ = right at alike ⊢
      cases alike with
      | answered after renders =>
          simp only [renders.result?, Option.map_id, id, ih renders]
      | halted halt after => rfl

namespace Verdict

variable {alphabet : ι}

/-- Two verdicts that differ at most in how the program of the follow-up actions is written. -/
inductive Renders : Verdict S Action A alphabet → Verdict S Action A alphabet → Prop where
  | failed (cause : CmdFailure) : Renders (.error cause) (.error cause)
  | nothing : Renders (.ok none) (.ok none)
  | followUp {pending rendered : FollowUp S Action A alphabet} :
      Pending.Renders id pending rendered → Renders (.ok (some pending)) (.ok (some rendered))

/-- What can be seen of a verdict whose follow-up is given turns. -/
def seen (dispatch : Dispatcher S Action A) (turns : List (Turn S Action A))
    (verdict : Verdict S Action A alphabet) (world : World S Action A) :
    Except CmdFailure (Option (List (Sight S Action A (.actions alphabet)))) :=
  match verdict with
  | .error cause => .error cause
  | .ok none => .ok none
  | .ok (some pending) => .ok (some (Pending.seen dispatch turns pending world))

theorem seen_eq_of_renders (dispatch : Dispatcher S Action A)
    {verdict rendered : Verdict S Action A alphabet} (renders : verdict.Renders rendered)
    (turns : List (Turn S Action A)) (world : World S Action A) :
    verdict.seen dispatch turns world = rendered.seen dispatch turns world := by
  cases renders with
  | failed cause => rfl
  | nothing => rfl
  | followUp renders => simp only [seen, Pending.seen_eq_of_renders dispatch renders turns world]

end Verdict

namespace Start

variable {alphabet : ι}

/-- What can be seen of a command that is started in a context: the halt or the verdict of the call,
and the world after it. -/
def seen (dispatch : Dispatcher S Action (Action alphabet)) (depth : Nat)
    (turns : List (Turn S Action (Action alphabet))) (start : Start S Action alphabet)
    (world : World S Action (Action alphabet)) :
    Except Halt (Except CmdFailure
      (Option (List (Sight S Action (Action alphabet) (.actions alphabet))))) ×
      World S Action (Action alphabet) :=
  match Prompt.run (.ofDispatch dispatch depth) start world with
  | (.ok verdict, after) => (.ok (Verdict.seen dispatch turns verdict after), after)
  | (.error halt, after) => (.error halt, after)

/-- Starts that do the same in the call and whose verdicts render each other look the same. -/
theorem seen_eq_of_renders (first : Prompt S Action (Action alphabet) α)
    {verdict rendered : α → Verdict S Action (Action alphabet) alphabet}
    (renders : ∀ value, (verdict value).Renders (rendered value))
    (dispatch : Dispatcher S Action (Action alphabet)) (depth : Nat)
    (turns : List (Turn S Action (Action alphabet))) (world : World S Action (Action alphabet)) :
    seen dispatch depth turns (verdict <$> first) world =
      seen dispatch depth turns (rendered <$> first) world := by
  simp only [seen, map_eq_pure_bind, Prompt.run_bind]
  cases firstEnd : first.run (.ofDispatch dispatch depth) world with
  | mk result after =>
    cases result with
    | ok value =>
        rw [Run.bind_of_ok firstEnd, Run.bind_of_ok firstEnd]
        have same := Verdict.seen_eq_of_renders dispatch (renders value) turns after
        exact congrArg (fun sights => (Except.ok sights, after)) same
    | error halt => rw [Run.bind_of_error firstEnd, Run.bind_of_error firstEnd]

end Start

end EffectLoop
