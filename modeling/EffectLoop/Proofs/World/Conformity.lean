import Mathlib.Logic.Relation
import EffectLoop.Proofs.World.Regime
import EffectLoop.World.Host

/-!
# Hosts under a regime

What a host does of its own accord is to add events to the trace and to commit states.  If a regime
allows that, and the host's commands are within the rules, then all that dispatches cause obeys the
regime, however deep they nest.
-/

namespace EffectLoop

variable {S ι : Type} {Action : ι → Type} {alphabet : ι} {answer : Answer ι}

/-- The command executes within the rules, and so does what is pending afterwards. -/
def Cmd.Conforms (rules : Rules) (options : Options) (cmd : Cmd S Action alphabet) : Prop :=
  (cmd.execute options).Within rules
    fun verdict => ∀ pending, verdict = .ok (some pending) → Pending.Within rules pending

/-- The programs that the host brings in are within the rules. -/
def Host.Within (rules : Rules) : Host S Action alphabet → Prop
  | .recording _ plan =>
      ∀ action, ((plan action).pending : Settling S Action (Action alphabet)).Within rules
  | .store held => ∀ state action loop, (held.reducer state action).value = .ok loop →
      loop.lift.2.Conforms rules held.options

theorem Cmd.conforms_lax (cmd : Cmd S Action alphabet) (options : Options) :
    cmd.Conforms .lax options := by
  apply (Prompt.within_lax _).mono
  intro verdict _ pending _
  exact pending.within_lax

theorem Host.within_lax (host : Host S Action alphabet) : host.Within .lax := by
  cases host with
  | recording options plan => exact fun action => (plan action).pending.within_lax
  | store held => exact fun _ _ loop _ => loop.lift.2.conforms_lax held.options

theorem Cmd.Conforms.loosen {rules looser : Rules} (loosened : rules.Loosened looser)
    {options : Options} {cmd : Cmd S Action alphabet} (conforms : cmd.Conforms rules options) :
    cmd.Conforms looser options := by
  apply (Prompt.Within.loosen loosened conforms).mono
  intro verdict within pending found
  exact (within pending found).loosen loosened

theorem Host.Within.loosen {rules looser : Rules} (loosened : rules.Loosened looser)
    {host : Host S Action alphabet} (within : host.Within rules) : host.Within looser := by
  cases host with
  | recording options plan => exact fun action => Pending.Within.loosen loosened (within action)
  | store held =>
      intro state action loop found
      exact (within state action loop found).loosen loosened

/-- Every single change that the host, or a program within the rules, makes is allowed. -/
structure Regime.Houses (regime : Regime S Action (Action alphabet)) (rules : Rules) : Prop
    extends regime.Governs rules where
  observed : ∀ (world : World S Action (Action alphabet)) seen,
    regime.Allows world (world.emit (.observed seen))
  delivered : ∀ (world : World S Action (Action alphabet)) delivery,
    regime.Allows world (world.emit (.delivered delivery))
  committed : ∀ (world : World S Action (Action alphabet)) state,
    regime.Allows world ({ world with state }.emit (.committed state))
  dispatched : ∀ (world : World S Action (Action alphabet)) action,
    regime.Allows world (world.emit (.dispatched action))

section Houses

variable {regime : Regime S Action (Action alphabet)} {rules : Rules}
variable (houses : regime.Houses rules)
include houses

namespace Store

variable (store : Store S Action alphabet) {engine : Engine S Action (Action alphabet)}

theorem observe_obeys (seen : Observation (Action alphabet)) :
    regime.Obeys (fun _ => True) (store.observe seen) := by
  have steady := houses.toSteady
  apply steady.after (Regime.update fun world => houses.observed world seen)
  intro _
  induction store.observer seen with
  | nil => exact steady.pure trivial
  | cons delivery rest ih =>
      apply steady.after (Regime.update fun world => houses.delivered world delivery)
      intro _
      exact ih

theorem commit_obeys (state : S) :
    regime.Obeys (fun _ => True) (commit state : Run S Action (Action alphabet) Unit) := by
  have steady := houses.toSteady
  intro world
  constructor
  · exact houses.committed world state
  · intro _ _ _
    trivial

variable (obeys : engine.Obeys regime rules)
include obeys

theorem launch_obeys (cmd : Cmd S Action alphabet)
    (within : cmd.Conforms rules store.options) :
    regime.Obeys (Pending.Within rules) (store.launch engine cmd) := by
  have steady := houses.toSteady
  unfold launch
  split
  · exact steady.pure trivial
  · apply steady.after (store.observe_obeys houses _)
    intro _
    apply steady.bind (Prompt.run_obeys houses.toGoverns obeys within)
    intro verdict pendingWithin
    split
    · exact steady.pure trivial
    next pending =>
      apply steady.pure
      apply (pendingWithin pending rfl).bind
      intro result
      cases result with
      | error cause => trivial
      | ok actions => exact fun _ => trivial
    · exact steady.pure trivial

theorem start_obeys (loop : Loop S Action alphabet)
    (within : loop.lift.2.Conforms rules store.options) :
    regime.Obeys (Pending.Within rules) (store.start engine loop) := by
  apply houses.after (commit_obeys houses _)
  intro _
  exact store.launch_obeys houses obeys _ within

theorem dispatch_obeys (within : (Host.store store).Within rules) (action : Action alphabet) :
    regime.Obeys (Pending.Within rules) (store.dispatch engine action) := by
  have steady := houses.toSteady
  have reduced : regime.Obeys (fun loop => loop.lift.2.Conforms rules store.options)
      (store.reduce action) := by
    apply steady.after (Regime.Governs.readState houses.toGoverns)
    intro state
    have reduction : regime.Obeys
        (fun result => ∀ loop, result = .ok loop → loop.lift.2.Conforms rules store.options)
        (Run.adopt (store.reducer state action)) :=
      houses.adopt fun loop => within state action loop
    apply steady.bind reduction
    intro result commandWithin
    cases result with
    | ok loop => exact steady.pure (commandWithin loop rfl)
    | error refused => exact steady.throw _
  apply steady.after (store.observe_obeys houses _)
  intro _
  apply steady.bind reduced
  exact store.start_obeys houses obeys

end Store

theorem Host.engine_obeys {host : Host S Action alphabet} (within : host.Within rules)
    (depth : Nat) : (host.engine depth).Obeys regime rules := by
  have steady := houses.toSteady
  induction depth with
  | zero =>
      constructor
      · intro action
        exact steady.throw _
      · intro answer waiter pending _
        exact steady.throw _
  | succ depth ih =>
      constructor
      · intro action
        cases host with
        | recording options plan =>
            apply steady.after (Regime.update fun world => houses.dispatched world action)
            intro _
            exact steady.pure (within action)
        | store held =>
            apply Regime.look
            intro world
            split
            · exact held.dispatch_obeys houses ih within action world
            · exact steady.pureIn trivial
      · intro answer waiter pending pendingWithin
        exact Pending.poll_obeys houses.toGoverns ih waiter pendingWithin

end Houses

/-- A host that notes what is dispatched, and makes nothing of it. -/
def Host.plain : Host Unit (fun _ : Unit => Json) () := .recording .default fun _ => ⟨none, none⟩

theorem Host.plain_within (rules : Rules) : plain.Within rules := fun _ => trivial

/-! The moments of the examples are durations. -/

theorem Duration.tenMillis_lt : 10 * Duration.millisecond < Duration.limit := by decide

theorem Duration.twentyMillis_lt : 20 * Duration.millisecond < Duration.limit := by decide

theorem Duration.twentyFiveMillis_lt : 25 * Duration.millisecond < Duration.limit := by decide

theorem Duration.fiftyMillis_lt : 50 * Duration.millisecond < Duration.limit := by decide

/-! ## What happens -/

/-- Something happens in a world of the host: code is called, a computation is polled, or there is a
change that leaves the scheduler alone. -/
inductive Host.Happens (host : Host S Action alphabet) (rules : Rules) :
    World S Action (Action alphabet) → World S Action (Action alphabet) → Prop where
  | call {α : Type} (depth : Nat) {program : Prompt S Action (Action alphabet) α} {world} :
      program.Within rules (fun _ => True) →
      Happens host rules world (program.run (host.engine depth) world).2
  | poll {answer : Answer ι} (depth : Nat) (waiter : Waiter)
      {program : Pending S Action (Action alphabet) answer} {world} : program.Within rules →
      Happens host rules world (program.poll (host.engine depth) waiter world).2
  | beside {before after} : after.keeper = before.keeper → Happens host rules before after

/-- Such things happen, one after the other. -/
abbrev Host.Lives (host : Host S Action alphabet) (rules : Rules) :
    World S Action (Action alphabet) → World S Action (Action alphabet) → Prop :=
  Relation.ReflTransGen (host.Happens rules)

section Happens

variable {regime : Regime S Action (Action alphabet)} {rules : Rules}
variable {before after : World S Action (Action alphabet)} {host : Host S Action alphabet}

theorem Host.Happens.allowed (houses : regime.Houses rules) (within : host.Within rules)
    (beside : ∀ {before after}, after.keeper = before.keeper → regime.Allows before after)
    (happens : host.Happens rules before after) : regime.Allows before after := by
  cases happens with
  | call depth programWithin =>
      exact (Prompt.run_obeys houses.toGoverns (Host.engine_obeys houses within depth)
        programWithin before).1
  | poll depth waiter programWithin =>
      exact (Pending.poll_obeys houses.toGoverns (Host.engine_obeys houses within depth) waiter
        programWithin before).1
  | beside same => exact beside same

theorem Host.Lives.allowed (houses : regime.Houses rules) (within : host.Within rules)
    (beside : ∀ {before after}, after.keeper = before.keeper → regime.Allows before after)
    (lives : host.Lives rules before after) : regime.Allows before after := by
  induction lives with
  | refl => exact houses.toSteady.same
  | tail _ happens ih => exact houses.toSteady.andThen ih (happens.allowed houses within beside)

end Happens

end EffectLoop
