import EffectLoop.Simulation.Actions

/-!
# What a simulation sees

Simulating a command looks at its actions, creators and taggers, and at nothing that only matters when
the command is executed: not at RUN functions and their arguments, not at the flags of RUNs, lists and
schedules, not at delays.  Of a simulation tree it looks at no more entries of a list than the list has
commands.  So a test against simulated outcomes says the same of every command that *resembles* the one
it was written for.
-/

namespace EffectLoop

variable {S ι : Type} {Action : ι → Type} {alphabet child : ι}

namespace Cmd

/-- The two commands have the same shape, actions, creators and taggers.  They may differ in all that
only matters when they are executed. -/
inductive Resembles : {alphabet : ι} → Cmd S Action alphabet → Cmd S Action alphabet → Prop where
  | none {alphabet : ι} : Resembles (none : Cmd S Action alphabet) none
  | action {alphabet : ι} (sent : Action alphabet) :
      Resembles (action sent : Cmd S Action alphabet) (action sent)
  | run {alphabet : ι} {left right : RunSpec S Action (Action alphabet)} :
      left.onSuccess = right.onSuccess → left.onFail = right.onFail →
      Resembles (run left) (run right)
  | list {alphabet : ι} {count : Nat} {left right : Fin count → Cmd S Action alphabet}
      (sequence otherSequence batch otherBatch : Bool) :
      (∀ index, Resembles (left index) (right index)) →
      Resembles (list left sequence batch) (list right otherSequence otherBatch)
  | map {alphabet child : ι} {left right : Cmd S Action child}
      (tagger : List Json → Action child → Noted (Action alphabet)) (args : List Json) :
      Resembles left right → Resembles (map left tagger args) (map right tagger args)
  | scheduled {alphabet : ι} {left right : Cmd S Action alphabet} (delay otherDelay : Duration)
      (repeating otherRepeating : Bool)
      (onScheduled : Option (TimerHandle → Noted (Action alphabet))) :
      Resembles left right →
      Resembles (scheduled left delay repeating onScheduled)
        (scheduled right otherDelay otherRepeating onScheduled)

/-- The tree without the entries that are beyond the commands of a list, at every level. -/
def trim : {alphabet : ι} → Cmd S Action alphabet → Simulation → Simulation
  | _, @list _ _ _ _ count cmds _ _, .many entries =>
      .many (List.ofFn fun index : Fin (min count entries.length) =>
        (cmds ⟨index, by omega⟩).trim (entries.get ⟨index, by omega⟩))
  | _, map nested _ _, tree => nested.trim tree
  | _, scheduled nested _ _ _, .scheduled handle assumed =>
      .scheduled handle (assumed.map nested.trim)
  | _, scheduled nested _ _ _, tree => nested.trim tree
  | _, _, tree => tree

/-! ## The entries of a list -/

section Entries

variable {count : Nat} (cmds : Fin count → Cmd S Action alphabet) (sequence batch : Bool)

/-- What a trimmed tree assumes for a command of a list is what the tree assumes, trimmed. -/
theorem entry?_trim (index : Fin count) (tree : Option Simulation) :
    Simulation.entry? index (tree.map (list cmds sequence batch).trim) =
      (Simulation.entry? index tree).map (cmds index).trim := by
  cases tree with
  | none => rfl
  | some tree =>
      cases tree with
      | run result success => rfl
      | scheduled handle nested => rfl
      | many entries =>
          simp only [Option.map_some, trim, Simulation.entry?, List.getElem?_ofFn]
          by_cases inside : index.val < entries.length
          · have both : index.val < min count entries.length := by omega
            rw [dif_pos both, List.getElem?_eq_getElem inside]
            rfl
          · have neither : ¬index.val < min count entries.length := by omega
            rw [dif_neg neither, List.getElem?_eq_none (by omega)]
            rfl

/-- Surplus entries are trimmed away. -/
theorem trim_many_take (entries : List Simulation) :
    (list cmds sequence batch).trim (.many (entries.take count)) =
      (list cmds sequence batch).trim (.many entries) := by
  simp only [trim, Simulation.many.injEq]
  apply List.ext_getElem
  · simp
  · intro place _ _
    simp

end Entries

@[simp] theorem trim_run (cmd : Cmd S Action alphabet) (result : Json) (success : Bool) :
    cmd.trim (.run result success) = .run result success := by
  induction cmd with
  | none | action | run | list => rfl
  | map nested tagger args ih => exact ih
  | scheduled nested delay repeating onScheduled ih => exact ih

theorem exists_trim_many (cmd : Cmd S Action alphabet) (entries : List Simulation) :
    ∃ kept, cmd.trim (.many entries) = .many kept := by
  induction cmd with
  | none | action | run => exact ⟨entries, rfl⟩
  | list => exact ⟨_, rfl⟩
  | map nested tagger args ih => exact ih
  | scheduled nested delay repeating onScheduled ih => exact ih

/-- What a trimmed tree assumes for a schedule and its command is what the tree assumes, trimmed. -/
theorem schedule?_trim (nested : Cmd S Action alphabet) (delay : Duration) (repeating : Bool)
    (onScheduled : Option (TimerHandle → Noted (Action alphabet))) (tree : Option Simulation) :
    Simulation.schedule? (tree.map (scheduled nested delay repeating onScheduled).trim) =
      ((Simulation.schedule? tree).1, (Simulation.schedule? tree).2.map nested.trim) := by
  cases tree with
  | none => rfl
  | some tree =>
      cases tree with
      | scheduled handle assumed => rfl
      -- Other trees are handed on to the command, and trimming does not make them a schedule's.
      | run result success => simp [trim, Simulation.schedule?]
      | many entries =>
          obtain ⟨kept, trimmed⟩ := nested.exists_trim_many entries
          simp [trim, Simulation.schedule?, trimmed]

/-! ## The two runs -/

/-- Commands that resemble each other give the same for the same tree. -/
theorem Resembles.simulate_eq {left right : Cmd S Action alphabet} (same : left.Resembles right) :
    left.simulate = right.simulate := by
  induction same with
  | none => rfl
  | action sent => rfl
  | run onSuccess onFail =>
      funext tree
      simp only [simulate, RunSpec.simulate, RunSpec.successAction, RunSpec.failureAction, onSuccess,
        onFail]
  | list sequence otherSequence batch otherBatch _ ih =>
      funext tree
      simp only [simulate, ih]
  | map tagger args _ ih =>
      funext tree
      simp only [simulate, ih]
  | scheduled delay otherDelay repeating otherRepeating onScheduled _ ih =>
      funext tree
      simp only [simulate, ih]

/-- A command gives the same for a tree and for the tree trimmed. -/
theorem simulate_trim (cmd : Cmd S Action alphabet) (tree : Option Simulation) :
    cmd.simulate (tree.map cmd.trim) = cmd.simulate tree := by
  induction cmd generalizing tree with
  | none => rfl
  | action sent => rfl
  | run spec => cases tree <;> rfl
  | list cmds sequence batch ih => simp only [simulate, entry?_trim, ih]
  | map nested tagger args ih =>
      simp only [simulate]
      exact congrArg (· >>= fun found => found.mapNoted (tagger args)) (ih tree)
  | scheduled nested delay repeating onScheduled ih =>
      simp only [simulate, schedule?_trim, ih]

/-- Simulation is blind to everything real.  Commands that resemble each other give the same for every
tree, or for none.  They look at no more entries of a list than there are commands in it, at no level:
trees that are the same once they are trimmed give the same. -/
theorem Resembles.simulate_blind {left right : Cmd S Action alphabet} (same : left.Resembles right) :
    (∀ tree, left.simulate tree = right.simulate tree) ∧
      (∀ tree other, tree.map left.trim = other.map left.trim →
        left.simulate tree = right.simulate other) ∧
      ∀ count (cmds : Fin count → Cmd S Action alphabet) sequence batch,
        left = .list cmds sequence batch → ∀ entries,
          left.simulate (some (.many entries)) = right.simulate (some (.many (entries.take count))) := by
  have equal (tree) : left.simulate tree = right.simulate tree := by rw [same.simulate_eq]
  have trimmed (tree other) (agree : tree.map left.trim = other.map left.trim) :
      left.simulate tree = right.simulate other := by
    calc left.simulate tree
        = left.simulate (tree.map left.trim) := (left.simulate_trim tree).symm
      _ = left.simulate (other.map left.trim) := by rw [agree]
      _ = left.simulate other := left.simulate_trim other
      _ = right.simulate other := equal other
  refine ⟨equal, trimmed, ?_⟩
  intro count cmds sequence batch isList entries
  apply trimmed
  rw [isList, Option.map_some, Option.map_some, trim_many_take]

namespace Blindness

/-- Run a function later, with an action for whatever comes out, and tag the actions. -/
def errand (func : List Arg → Prompt Unit (fun _ : Unit => Nat) Nat
    (RunResult Unit (fun _ : Unit => Nat) Nat)) (args : List Arg) (delay : Duration) (flag : Bool) :
    Cmd Unit (fun _ : Unit => Nat) () :=
  let call : Cmd Unit (fun _ : Unit => Nat) () :=
    .run ⟨func, args, some fun _ => pure 1, some fun _ => pure 2, flag⟩
  let later : Cmd Unit (fun _ : Unit => Nat) () :=
    .scheduled call delay flag (some fun handle => pure handle.id.toNat)
  .map later (fun _ action => pure (action + 10)) []

/-- Two errands that are done when they are called. -/
def real : Cmd Unit (fun _ : Unit => Nat) () :=
  .list (fun _ : Fin 2 => errand (fun _ => .done (.ready (.ok .null))) [] .zero false) true false

/-- Two errands that dispatch, wait at a gate and fail. -/
def stub : Cmd Unit (fun _ : Unit => Nat) () :=
  .list (fun _ : Fin 2 => errand (fun _ => .send (pure 7) false
    (.done (.deferred (.wait "gate" (.done (.error (.failed .null))))))) [.dispatch]
      ⟨Duration.millisecond, Duration.oneMillisecond.representable⟩ true) false true

theorem real_resembles : real.Resembles stub :=
  .list _ _ _ _ fun _ => .map _ _ (.scheduled _ _ _ _ _ (.run rfl rfl))

/-- An outcome for each command, and one too many. -/
def entries : List Simulation :=
  [.scheduled ⟨5⟩ (some (.run .null true)), .run .null false, .run .null true]

/-- Both commands give the actions of two schedules, whatever the third entry is. -/
theorem stub_simulates : real.Resembles stub ∧
    (stub.simulate (some (.many (entries.take 2)))).value.toList = [15, 11, 10, 12] ∧
      real.simulate (some (.many entries)) = stub.simulate (some (.many (entries.take 2))) := by
  obtain ⟨-, -, lists⟩ := Resembles.simulate_blind real_resembles
  exact ⟨real_resembles, by decide +kernel, lists 2 _ _ _ rfl entries⟩

end Blindness

end Cmd

end EffectLoop
