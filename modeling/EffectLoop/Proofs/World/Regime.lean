import EffectLoop.World.Poll
import EffectLoop.Proofs.Program.Rules
import EffectLoop.Proofs.World.Families

/-!
# Regimes

A regime singles out a kind of worlds and says how a run may change them.  A computation *obeys* the
regime if, from every world of the kind, it leads to a world of the kind, in a way that the law
allows, whether it answers or halts.

A regime *governs* the programs within given rules if each single change that such programs make is
allowed.  Then calls and polls of these programs obey it, and what a poll leaves is within the rules
again.  This is one induction over programs; the rest of a proof about runs is about single changes.
-/

namespace EffectLoop

variable {S ι : Type} {Action : ι → Type} {A α β : Type} {answer child : Answer ι}

/-- A kind of worlds, and how a run may change them. -/
structure Regime (S : Type) {ι : Type} (Action : ι → Type) (A : Type) where
  kind : World S Action A → Prop
  law : World S Action A → World S Action A → Prop

namespace Regime

variable (regime : Regime S Action A)

/-- A world of the kind may change like this, and is of the kind afterwards. -/
def Allows (before after : World S Action A) : Prop :=
  regime.kind before → regime.kind after ∧ regime.law before after

/-- In this world, the computation does what the regime allows, and what it answers satisfies
`post`. -/
def ObeysIn (world : World S Action A) (post : α → Prop) (computation : Run S Action A α) : Prop :=
  regime.Allows world (computation world).2 ∧
    (regime.kind world → ∀ value, (computation world).1 = .ok value → post value)

/-- In every world, the computation does what the regime allows, and what it answers satisfies
`post`. -/
def Obeys (post : α → Prop) (computation : Run S Action A α) : Prop :=
  ∀ world, regime.ObeysIn world post computation

/-- Changes that the law allows may follow one another. -/
structure Coherent : Prop where
  refl : ∀ world, regime.law world world
  trans : ∀ {first second third}, regime.law first second → regime.law second third →
    regime.law first third

/-- What does not show: how waiting computations are booked. -/
structure Steady : Prop extends regime.Coherent where
  booked : ∀ (world : World S Action A) gates rallies nextTicket stirred,
    regime.Allows world { world with gates, rallies, nextTicket, stirred }
  queued : ∀ (world : World S Action A) clock task, world.keeper = .tasks clock →
    regime.Allows world { world with keeper := .tasks (clock.enqueue task) }
  alarm : ∀ (world : World S Action A) clock moment waiter, world.keeper = .tasks clock →
    regime.Allows world { world with keeper := .tasks (clock.setAlarm moment waiter) }

/-- Every single change that programs within the rules make is allowed. -/
structure Governs (rules : Rules) : Prop extends regime.Steady where
  read : ∀ (world : World S Action A), regime.Allows world { world with reads := world.reads + 1 }
  note : ∀ (world : World S Action A) value, regime.Allows world (world.emit (.note value))
  log : ∀ (world : World S Action A) entry, rules.effect (.log entry) →
    regime.Allows world (world.emit (.log entry))
  keep : ∀ (world : World S Action A) caused, Pending.Within rules caused →
    regime.Allows world { world with kept := world.kept ++ [caused] }
  clear : ∀ handle, rules.effect (.clear handle) → regime.Obeys (fun _ => True) (Run.clear handle)
  forget : ∀ handle, rules.effect (.forget handle) →
    regime.Obeys (fun _ => True) (Run.forget handle)
  schedule : ∀ delay repeating task, Pending.Within rules task →
    regime.Obeys (fun _ => True) (Run.schedule delay repeating task)
  spawn : ∀ task, Pending.Within rules task → regime.Obeys (fun _ => True) (Run.spawn task)
  nextDriven : ∀ target, rules.advance → regime.Obeys
    (fun found => ∀ tasks, found = some tasks → ∀ task ∈ tasks, Pending.Within rules task)
    (Run.nextDriven target)
  fire : ∀ (world : World S Action A) handle, rules.interval →
    regime.Allows world (world.emit (.log (.intervalFired handle)))

end Regime

namespace Regime

variable {regime : Regime S Action A} {post : α → Prop} {last : β → Prop} {world : World S Action A}

/-- Looking at the world changes nothing. -/
theorem look {next : World S Action A → Run S Action A β}
    (nextObeys : ∀ world, regime.ObeysIn world last (next world)) :
    regime.Obeys last (get >>= next) :=
  fun world => nextObeys world

theorem updateIn {change : World S Action A → World S Action A}
    (allowed : regime.Allows world (change world)) :
    regime.ObeysIn world (fun _ => True) (Run.update change) :=
  ⟨allowed, fun _ _ _ => trivial⟩

theorem update {change : World S Action A → World S Action A}
    (allowed : ∀ world, regime.Allows world (change world)) :
    regime.Obeys (fun _ => True) (Run.update change) :=
  fun world => updateIn (allowed world)

namespace Coherent

variable (coherent : regime.Coherent)
include coherent

theorem same : regime.Allows world world :=
  fun kind => ⟨kind, coherent.refl world⟩

theorem andThen {before middle after : World S Action A} (first : regime.Allows before middle)
    (second : regime.Allows middle after) : regime.Allows before after := by
  intro kind
  have reached := first kind
  have again := second reached.1
  exact ⟨again.1, coherent.trans reached.2 again.2⟩

theorem wakeEach (wake : ∀ world waiter, regime.Allows world (World.wake world waiter))
    (waiters : List Waiter) (world : World S Action A) :
    regime.Allows world (waiters.foldl World.wake world) := by
  induction waiters generalizing world with
  | nil => exact coherent.same
  | cons waiter rest ih => exact coherent.andThen (wake world waiter) (ih _)

/-! ### Computations -/

theorem pureIn {value : α} (holds : post value) :
    regime.ObeysIn world post (Pure.pure value : Run S Action A α) := by
  constructor
  · exact coherent.same
  · intro kind found answered
    cases answered
    exact holds

theorem pure {value : α} (holds : post value) :
    regime.Obeys post (Pure.pure value : Run S Action A α) :=
  fun _ => coherent.pureIn holds

theorem throw (halt : Halt) : regime.Obeys post (MonadExcept.throw halt : Run S Action A α) := by
  intro world
  constructor
  · exact coherent.same
  · intro kind value answered
    cases answered

theorem bindIn {first : Run S Action A α} {next : α → Run S Action A β}
    (firstObeys : regime.ObeysIn world post first)
    (nextObeys : ∀ value, post value → regime.Obeys last (next value)) :
    regime.ObeysIn world last (first >>= next) := by
  obtain ⟨allowed, answers⟩ := firstObeys
  rcases outcome : first world with ⟨result, middle⟩
  rw [outcome] at allowed answers
  cases result with
  | error halt =>
      rw [ObeysIn, Run.bind_of_error outcome]
      constructor
      · exact allowed
      · intro kind value answered
        cases answered
  | ok value =>
      rw [ObeysIn, Run.bind_of_ok outcome]
      constructor
      · intro kind
        exact coherent.andThen allowed (nextObeys value (answers kind value rfl) middle).1 kind
      · intro kind
        exact (nextObeys value (answers kind value rfl) middle).2 (allowed kind).1

theorem bind {first : Run S Action A α} {next : α → Run S Action A β}
    (firstObeys : regime.Obeys post first)
    (nextObeys : ∀ value, post value → regime.Obeys last (next value)) :
    regime.Obeys last (first >>= next) :=
  fun world => coherent.bindIn (firstObeys world) nextObeys

/-- Whatever the first part answers. -/
theorem after {first : Run S Action A α} {next : α → Run S Action A β}
    (firstObeys : regime.Obeys (fun _ => True) first)
    (nextObeys : ∀ value, regime.Obeys last (next value)) : regime.Obeys last (first >>= next) :=
  coherent.bind firstObeys fun value _ => nextObeys value

theorem mapM {each : α → Run S Action A β} (values : List α)
    (eachObeys : ∀ value, regime.Obeys last (each value)) :
    regime.Obeys (fun found => ∀ value ∈ found, last value) (values.mapM each) := by
  induction values with
  | nil =>
      apply coherent.pure
      intro value within
      cases within
  | cons value rest ih =>
      rw [List.mapM_cons]
      apply coherent.bind (eachObeys value)
      intro first holds
      apply coherent.bind ih
      intro others hold
      apply coherent.pure
      intro other within
      cases within with
      | head => exact holds
      | tail _ within => exact hold other within

theorem ofFnM {count : Nat} {each : Fin count → Run S Action A β}
    (eachObeys : ∀ index, regime.Obeys last (each index)) :
    regime.Obeys (fun found => ∀ index, last (found.get index)) (Vector.ofFnM each) := by
  induction count with
  | zero =>
      rw [Vector.ofFnM_zero]
      apply coherent.pure
      intro index
      exact index.elim0
  | succ count ih =>
      rw [Vector.ofFnM_succ]
      apply coherent.bind (ih fun index => eachObeys index.castSucc)
      intro others hold
      apply coherent.bind (eachObeys (Fin.last count))
      intro final holds
      apply coherent.pure
      intro index
      cases index using Fin.lastCases with
      | last =>
          change last (others.push final)[count]
          rw [Vector.getElem_push_eq]
          exact holds
      | cast index =>
          change last (others.push final)[index.val]
          rw [Vector.getElem_push_lt index.isLt]
          exact hold index

end Coherent

namespace Steady

variable (steady : regime.Steady)
include steady

theorem setRally (world : World S Action A) (ticket : Nat) (rally : Rally) :
    regime.Allows world (world.setRally ticket rally) :=
  steady.booked world world.gates _ world.nextTicket world.stirred

theorem wakeAlong (root : Nat) (path : List (Nat × Nat)) (world : World S Action A) :
    regime.Allows world (world.wakeAlong root path) := by
  induction path generalizing world with
  | nil =>
      have stirred := steady.booked world world.gates world.rallies world.nextTicket true
      simp only [World.wakeAlong, World.wakeRoot]
      split
      next clock keeper =>
          rw [← keeper]
          exact stirred
      next clock keeper => exact steady.andThen stirred (steady.queued _ clock root keeper)
  | cons step outer ih =>
      obtain ⟨ticket, child⟩ := step
      simp only [World.wakeAlong]
      split
      · exact steady.same
      · split
        · exact steady.same
        · exact steady.andThen (steady.setRally world ticket _) (ih _)

theorem wake (world : World S Action A) (waiter : Waiter) : regime.Allows world (world.wake waiter) :=
  steady.wakeAlong waiter.root waiter.path world

theorem wakeAll (waiters : List Waiter) (world : World S Action A) :
    regime.Allows world (waiters.foldl World.wake world) :=
  steady.wakeEach steady.wake waiters world

theorem unlock (world : World S Action A) (gate : String) :
    regime.Allows world (world.unlock gate) :=
  steady.andThen (steady.booked world _ world.rallies world.nextTicket world.stirred)
    (steady.wakeAll _ _)

end Steady

end Regime

/-! ## Effects -/

namespace Regime.Governs

variable {regime : Regime S Action A} {rules : Rules} (governs : regime.Governs rules)
include governs

theorem adopt {post : α → Prop} {found : Noted α} (holds : post found.value) :
    regime.Obeys post (Run.adopt found : Run S Action A α) := by
  have steady := governs.toSteady
  have noted (notes : List Json) (world : World S Action A) :
      regime.Allows world (world.annotate notes) := by
    induction notes generalizing world with
    | nil => exact steady.same
    | cons value rest ih => exact steady.andThen (governs.note world value) (ih _)
  apply steady.after (Regime.update (noted found.notes))
  intro _
  exact steady.pure holds

theorem readState :
    regime.Obeys (fun _ => True) (Run.perform .readState : Run S Action A S) := by
  have steady := governs.toSteady
  apply steady.after (Regime.update governs.read)
  intro _
  exact Regime.look fun world => steady.pureIn trivial

theorem perform (effect : Primitive) (may : rules.effect effect) :
    regime.Obeys (fun _ => True) (Run.perform effect) := by
  have steady := governs.toSteady
  cases effect with
  | readState => exact governs.readState
  | note value => exact Regime.update fun world => governs.note world value
  | log entry => exact Regime.update fun world => governs.log world entry may
  | setGate gate isOpen =>
      apply Regime.update
      intro world
      cases isOpen with
      | true => exact steady.unlock world gate
      | false => exact steady.booked world _ world.rallies world.nextTicket world.stirred
  | clear handle => exact governs.clear handle may
  | inspect => exact Regime.look fun world => steady.pureIn trivial
  | wallClock => exact Regime.look fun world => steady.pureIn trivial
  | deadline delay =>
      apply Regime.look
      intro world
      split
      · split
        · exact steady.pureIn trivial
        · exact steady.throw _ _
      · exact steady.pureIn trivial
  | forget handle => exact governs.forget handle may
  | skip => exact steady.pure trivial

end Regime.Governs

/-! ## Programs -/

/-- Whatever the engine is asked to do obeys the regime, and stays within the rules. -/
structure Engine.Obeys (regime : Regime S Action A) (rules : Rules) (engine : Engine S Action A) :
    Prop where
  dispatch : ∀ action, regime.Obeys (Pending.Within rules) (engine.dispatch action)
  poll : ∀ {answer : Answer ι} (waiter : Waiter) {pending : Pending S Action A answer},
    pending.Within rules → regime.Obeys (Pending.Within rules) (engine.poll waiter pending)

section Programs

variable {regime : Regime S Action A} {rules : Rules}

namespace Rally

section

variable (steady : regime.Steady)
include steady

theorem openRally_obeys (count : Nat) :
    regime.Obeys (fun _ => True) (openRally count : Run S Action A Nat) := by
  apply Regime.look
  intro world
  apply steady.bindIn (Regime.updateIn (steady.booked world world.gates _ _ world.stirred))
  intro _ _
  exact steady.pure trivial

end

section

variable (coherent : regime.Coherent) {ticket : Nat}
variable (booked : ∀ world rally, regime.Allows world (World.setRally world ticket rally))
include coherent booked

theorem takeChild_obeys :
    regime.Obeys (fun _ => True) (takeChild ticket : Run S Action A (Option Nat)) := by
  apply Regime.look
  intro world
  split
  · exact coherent.pureIn trivial
  · split
    · exact coherent.pureIn trivial
    · apply coherent.bindIn (Regime.updateIn (booked world _))
      intro _ _
      exact coherent.pure trivial

theorem finish_obeys (child : Nat) :
    regime.Obeys (fun _ => True) (finish ticket child : Run S Action A Nat) := by
  apply Regime.look
  intro world
  split
  · exact coherent.pureIn trivial
  · apply coherent.bindIn (Regime.updateIn (booked world _))
    intro _ _
    exact coherent.pure trivial

variable (wake : ∀ world waiter, regime.Allows world (World.wake world waiter))
variable {good : Pending S Action A child → Prop}
variable {pollChild : Waiter → Pending S Action A child → Run S Action A (Pending S Action A child)}
variable (childObeys : ∀ waiter {pending}, good pending →
  regime.Obeys good (pollChild waiter pending))
include wake childObeys

theorem poll_obeys (waiter : Waiter) {count : Nat}
    {children : Vector (Pending S Action A child) count} (all : ∀ index, good (children.get index))
    (remaining stopped restless fuel : Nat) :
    regime.Obeys (fun left => ∀ index, good (left.get index))
      (poll pollChild waiter ticket children remaining stopped restless fuel) := by
  induction fuel generalizing children remaining stopped restless with
  | zero => exact coherent.pure all
  | succ fuel ih =>
      apply coherent.after (takeChild_obeys coherent booked)
      intro taken
      cases taken with
      | none => exact coherent.pure all
      | some place =>
          dsimp only
          split
          next inside =>
              apply coherent.bind (childObeys _ (all ⟨place, inside⟩))
              intro left holds
              have allSet : ∀ index, good ((children.set place left).get index) := by
                intro index
                change good (children.set place left)[index.val]
                rw [Vector.getElem_set]
                split
                · exact holds
                · exact all index
              split
              · apply coherent.after (finish_obeys coherent booked place)
                intro before
                exact ih allSet _ _ _
              · apply Regime.look
                intro world
                have woken := Regime.update fun world => wake world waiter
                -- The queue only decides the count of restless children; both cases go on alike.
                split
                all_goals
                  split
                  · apply coherent.bindIn (woken world)
                    intro _ _
                    exact coherent.pure allSet
                  · exact ih allSet _ _ _ world
          next => exact coherent.pure all

theorem resume_obeys (waiter : Waiter) {count : Nat}
    {children : Fin count → Pending S Action A child} (all : ∀ index, good (children index)) :
    regime.Obeys (fun left => ∀ index, good (left.get index))
      (resume pollChild waiter ticket children) := by
  apply Regime.look
  intro world
  apply poll_obeys coherent booked wake childObeys
  intro index
  change good (Vector.ofFn children)[index.val]
  rw [Vector.getElem_ofFn]
  exact all index

end

end Rally

variable (governs : regime.Governs rules) {engine : Engine S Action A}
variable (obeys : engine.Obeys regime rules)
include governs obeys

namespace Engine

theorem start_obeys (action : Noted A) :
    regime.Obeys (Pending.Within rules) (engine.start action) := by
  have adopted : regime.Obeys (fun _ => True) (Run.adopt action : Run S Action A A) :=
    governs.adopt trivial
  apply governs.bind adopted
  intro sent _
  exact obeys.dispatch sent

theorem send_obeys (action : Noted A) (keep : Bool) :
    regime.Obeys (fun _ => True) (engine.send action keep) := by
  apply governs.bind (start_obeys governs obeys action)
  intro caused within
  split
  · exact Regime.update fun world => governs.keep world caused within
  · exact governs.pure trivial

/-- What is left of the children of a join is within the rules. -/
abbrev Leaves (rules : Rules) {count : Nat}
    (found : Option Nat × Vector (Pending S Action A child) count) : Prop :=
  ∀ index, (found.2.get index).Within rules

theorem pollFresh_obeys (waiter : Waiter) {count : Nat}
    {children : Fin count → Pending S Action A child}
    (within : ∀ index, (children index).Within rules) :
    regime.Obeys (Leaves rules) (engine.pollFresh waiter children) := by
  unfold pollFresh
  split
  · apply governs.bind (governs.ofFnM fun index => obeys.poll waiter (within index))
    intro left hold
    exact governs.pure hold
  · apply governs.after (Rally.openRally_obeys governs.toSteady count)
    intro ticket
    have polled (waiter : Waiter) {pending : Pending S Action A child}
        (within : pending.Within rules) := obeys.poll waiter within
    apply governs.bind (Rally.resume_obeys governs.toCoherent (governs.setRally · ticket) governs.wake polled waiter
          within)
    intro left hold
    exact governs.pure hold

theorem pollJoin_obeys (waiter : Waiter) (ticket : Option Nat) {count : Nat}
    {children : Fin count → Pending S Action A child}
    (within : ∀ index, (children index).Within rules)
    {each : Fin count → Run S Action A (Pending S Action A child)}
    (eachObeys : ∀ index, regime.Obeys (Pending.Within rules) (each index)) :
    regime.Obeys (Leaves rules) (engine.pollJoin waiter ticket children each) := by
  unfold pollJoin
  split
  · apply governs.bind (governs.ofFnM eachObeys)
    intro left hold
    exact governs.pure hold
  · cases ticket with
    | none => exact pollFresh_obeys governs obeys waiter within
    | some ticket =>
        have polled (waiter : Waiter) {pending : Pending S Action A child}
            (within : pending.Within rules) := obeys.poll waiter within
        apply governs.bind (Rally.resume_obeys governs.toCoherent (governs.setRally · ticket) governs.wake polled waiter
          within)
        intro left hold
        exact governs.pure hold

end Engine

/-- A computation that is over in the call obeys the regime. -/
theorem Prompt.run_obeys {post : α → Prop} {program : Prompt S Action A α}
    (within : program.Within rules post) : regime.Obeys post (program.run engine) := by
  induction program with
  | done value => exact governs.pure within
  | call effect next ih =>
      apply governs.after (governs.perform effect within.1)
      intro reply
      exact ih reply (within.2 reply)
  | send action keep next ih =>
      apply governs.after (Engine.send_obeys governs obeys action keep)
      intro _
      exact ih within
  | schedule delay repeating task next ih =>
      apply governs.after (governs.schedule delay repeating task within.1)
      intro handle
      exact ih handle (within.2 handle)
  | spawn task next ih =>
      apply governs.after (governs.spawn task within.1)
      intro _
      exact ih within.2

/-- A poll obeys the regime, and what it leaves is within the rules. -/
theorem Pending.poll_obeys (waiter : Waiter) {program : Pending S Action A answer}
    (within : program.Within rules) :
    regime.Obeys (Pending.Within rules) (program.poll engine waiter) := by
  have steady := governs.toSteady
  induction program with
  | done value => exact steady.pure trivial
  | call effect next ih =>
      apply steady.after (governs.perform effect within.1)
      intro reply
      exact ih reply (within.2 reply)
  | send action keep next ih =>
      apply steady.after (Engine.send_obeys governs obeys action keep)
      intro _
      exact ih within
  | schedule delay repeating task next _ ih =>
      apply steady.after (governs.schedule delay repeating task within.1)
      intro handle
      exact ih handle (within.2 handle)
  | spawn task next _ ih =>
      apply steady.after (governs.spawn task within.1)
      intro _
      exact ih within.2
  | wait gate next ih =>
      apply Regime.look
      intro world
      split
      · exact ih within world
      · apply steady.bindIn (Regime.updateIn
          (steady.booked world _ world.rallies world.nextTicket world.stirred))
        intro _ _
        exact steady.pure within
  | resumeAt moment next ih =>
      apply Regime.look
      intro world
      split
      · split
        · exact ih within world
        · exact steady.pureIn within
      next clock keeper =>
        split
        · exact ih within world
        · apply steady.bindIn (Regime.updateIn (steady.alarm world clock moment waiter keeper))
          intro _ _
          exact steady.pure within
  | sendAll actions next ih =>
      rw [poll]
      apply steady.bind (steady.mapM actions (Engine.start_obeys governs obeys))
      intro caused causedWithin
      apply steady.bind (Engine.pollFresh_obeys governs obeys waiter
        fun index => causedWithin _ (List.get_mem caused index))
      intro found leaves
      dsimp only
      split
      · exact ih _ (within _)
      · exact steady.pure ⟨leaves, within⟩
  | settling ticket caused next causedIH ih =>
      rw [poll]
      apply steady.bind (Engine.pollJoin_obeys governs obeys waiter ticket within.1
        fun index => causedIH index (within.1 index))
      intro found leaves
      dsimp only
      split
      · exact ih _ (within.2 _)
      · exact steady.pure ⟨leaves, within.2⟩
  | join ticket children next childrenIH ih =>
      rw [poll]
      apply steady.bind (Engine.pollJoin_obeys governs obeys waiter ticket within.1
        fun index => childrenIH index (within.1 index))
      intro found leaves
      dsimp only
      split
      · exact ih _ (within.2 _)
      · exact steady.pure ⟨leaves, within.2⟩
  | advanceTo target ticket driven next drivenIH ih =>
      obtain ⟨may, drivenWithin, nextWithin⟩ := within
      rw [poll]
      apply Regime.look
      intro world
      split
      · apply steady.bindIn (Engine.pollJoin_obeys governs obeys waiter ticket drivenWithin
          (fun index => drivenIH index (drivenWithin index)) world)
        intro found leaves
        dsimp only
        split
        · exact steady.pure ⟨may, leaves, nextWithin⟩
        · apply steady.bind (governs.nextDriven target may)
          intro due dueWithin
          cases due with
          | none => exact ih nextWithin
          | some tasks =>
              apply obeys.poll
              exact ⟨may, fun index => dueWithin tasks rfl _ (List.get_mem tasks index), nextWithin⟩
      next clock keeper =>
        split
        · exact ih nextWithin world
        · apply steady.bindIn (Regime.updateIn (steady.alarm world clock target waiter keeper))
          intro _ _
          exact steady.pure ⟨may, drivenWithin, nextWithin⟩
  | interval handle period due task running _ runningIH =>
      obtain ⟨may, taskWithin, runningWithin⟩ := within
      rw [poll]
      apply steady.bind (Engine.pollJoin_obeys governs obeys waiter none runningWithin
        fun index => runningIH index (runningWithin index))
      intro found leaves
      dsimp only
      split
      · exact steady.pure ⟨may, taskWithin, leaves⟩
      · apply Regime.look
        intro world
        split
        · exact steady.pureIn ⟨may, taskWithin, fun index => index.elim0⟩
        next clock keeper =>
          split
          · apply steady.bindIn (Regime.updateIn (governs.fire world handle may))
            intro _ _
            exact obeys.poll waiter ⟨may, taskWithin, fun _ => taskWithin⟩
          · apply steady.bindIn (Regime.updateIn (steady.alarm world clock due waiter keeper))
            intro _ _
            exact steady.pure ⟨may, taskWithin, fun index => index.elim0⟩

end Programs

end EffectLoop
