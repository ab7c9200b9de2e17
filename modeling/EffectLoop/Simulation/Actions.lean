import EffectLoop.Command.Basic
import EffectLoop.Simulation.Tree

/-!
# Simulating a command

`Cmd.simulate` computes the actions that a command would produce for assumed outcomes.  It calls no
RUN function, registers no schedule and dispatches nothing; only creators and taggers are applied.
-/

namespace EffectLoop

/-- The actions that a simulated command produces. -/
inductive Simulated (A : Type) where
  | nothing
  | one (action : A)
  | many (actions : List A)

namespace Simulated

variable {A B : Type}

/-- Is no action produced? -/
def isNothing : Simulated A → Bool
  | nothing => true
  | _ => false

/-- The actions in order. -/
def toList : Simulated A → List A
  | nothing => []
  | one action => [action]
  | many actions => actions

/-- No action at all, or several. -/
def ofList : List A → Simulated A
  | [] => nothing
  | actions => many actions

/-- An action, or none. -/
def ofOption : Option A → Simulated A
  | none => nothing
  | some action => one action

/-- Tag every action. -/
def mapNoted (tagger : A → Noted B) : Simulated A → Noted (Simulated B)
  | nothing => pure nothing
  | one action => one <$> tagger action
  | many actions => many <$> actions.mapM tagger

@[simp] theorem toList_ofList (actions : List A) : (ofList actions).toList = actions := by
  cases actions <;> rfl

@[simp] theorem toList_ofOption (action : Option A) : (ofOption action).toList = action.toList := by
  cases action <;> rfl

end Simulated

namespace Simulation

/-- The outcome assumed for the command at a position of a list. -/
def entry? (index : Nat) : Option Simulation → Option Simulation
  | some (many entries) => entries[index]?
  | _ => none

/-- The handle assumed for a schedule, and the outcome assumed for the command it executes.  An
outcome that is not that of a schedule is handed on to the command. -/
def schedule? : Option Simulation → TimerHandle × Option Simulation
  | some (scheduled handle nested) => (handle, nested)
  | other => (.unissued, other)

end Simulation

variable {S ι : Type} {Action : ι → Type}

/-- The action of a RUN for an assumed outcome. -/
def RunSpec.simulate {A : Type} (spec : RunSpec S Action A) :
    Option Simulation → Noted (Simulated A)
  | some (.run result true) => Simulated.ofOption <$> spec.successAction result
  | some (.run result false) => Simulated.ofOption <$> spec.failureAction (.failed result)
  | _ => pure .nothing

/-- The actions that a command would produce for assumed outcomes. -/
def Cmd.simulate : {alphabet : ι} → Cmd S Action alphabet → Option Simulation →
    Noted (Simulated (Action alphabet))
  | _, .none, _ => pure .nothing
  | _, .action sent, _ => pure (.one sent)
  | _, .run spec, tree => spec.simulate tree
  | _, .list cmds _ _, tree => do
      let found ← (List.ofFn fun index =>
        (cmds index).simulate (Simulation.entry? index tree)).mapM id
      pure (.ofList (found.flatMap Simulated.toList))
  | _, .map nested tagger args, tree => do
      (← nested.simulate tree).mapNoted (tagger args)
  | _, .scheduled nested _ _ onScheduled, tree => do
      let (handle, assumed) := Simulation.schedule? tree
      let found ← nested.simulate assumed
      match onScheduled with
      | some creator => do
          let created ← creator handle
          pure (.many (created :: found.toList))
      | Option.none => pure found

end EffectLoop
