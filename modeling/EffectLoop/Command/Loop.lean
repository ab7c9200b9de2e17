import EffectLoop.Command.Basic

/-!
# Loops

What a reducer answers: the next state, alone or with a command to execute once that state is
committed.
-/

namespace EffectLoop

/-- A reducer's answer. -/
inductive Loop (S : Type) {ι : Type} (Action : ι → Type) (alphabet : ι) where
  | model (model : S)
  | withCmd (model : S) (cmd : Cmd S Action alphabet)

namespace Loop

variable {S ι : Type} {Action : ι → Type} {alphabet : ι}

/-- Is there a command? -/
def isLoop : Loop S Action alphabet → Bool
  | model _ => false
  | withCmd _ _ => true

/-- The next state. -/
def state : Loop S Action alphabet → S
  | model state => state
  | withCmd state _ => state

/-- The paired command, if there is one. -/
def cmd? : Loop S Action alphabet → Option (Cmd S Action alphabet)
  | model _ => none
  | withCmd _ cmd => some cmd

/-- State and command; a bare state gets the command without effect. -/
def lift : Loop S Action alphabet → S × Cmd S Action alphabet
  | model state => (state, .none)
  | withCmd state cmd => (state, cmd)

/-- The loop of a pair. -/
def ofPair (pair : S × Cmd S Action alphabet) : Loop S Action alphabet := .withCmd pair.1 pair.2

@[simp] theorem lift_fst (loop : Loop S Action alphabet) : loop.lift.1 = loop.state := by
  cases loop <;> rfl

@[simp] theorem lift_snd (loop : Loop S Action alphabet) :
    loop.lift.2 = loop.cmd?.getD .none := by
  cases loop <;> rfl

end Loop

/-- A reducer answers an action in a state.  It may leave notes, and the building of its command
may be refused. -/
abbrev Reducer (S : Type) {ι : Type} (Action : ι → Type) (alphabet : ι) :=
  S → Action alphabet → Noted (Except Refusal (Loop S Action alphabet))

end EffectLoop
