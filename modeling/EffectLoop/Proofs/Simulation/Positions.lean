import EffectLoop.Simulation.Actions

/-!
# Positions in a simulated list

A list takes the outcome of each of its commands from the entry at the position of the command, whether
or not the commands before it produce anything.  So it can be simulated position by position
(`Cmd.simulateAll`): every command uses up one entry, and entries beyond the last command are not looked
at.  A list among the elements of another one may then be replaced by its own elements, if its entries are
put in the place of its entry.
-/

namespace EffectLoop

variable {S ι : Type} {Action : ι → Type} {alphabet : ι}

namespace Simulation

/-- The outcomes assumed for a list, by position; other trees assume none. -/
def entries : Option Simulation → List Simulation
  | some (many entries) => entries
  | _ => []

@[simp] theorem entries_many (outcomes : List Simulation) :
    entries (some (many outcomes)) = outcomes := rfl

theorem entry?_eq_getElem? (index : Nat) (tree : Option Simulation) :
    entry? index tree = (entries tree)[index]? := by
  cases tree with
  | none => rfl
  | some tree => cases tree <;> rfl

end Simulation

namespace Cmd

/-- The actions of several commands, each simulated for the entry at its position. -/
def simulateAll : List (Cmd S Action alphabet) → List Simulation → Noted (List (Action alphabet))
  | [], _ => pure []
  | cmd :: rest, entries => do
      let found ← cmd.simulate entries.head?
      let others ← simulateAll rest entries.tail
      pure (found.toList ++ others)

/-- The elements of a list, simulated as the list does it, are simulated position by position. -/
theorem mapM_simulate_eq (cmds : List (Cmd S Action alphabet)) (entries : List Simulation) :
    (List.flatMap Simulated.toList <$>
        (List.ofFn fun index => (cmds.get index).simulate entries[index.val]?).mapM id) =
      simulateAll cmds entries := by
  induction cmds generalizing entries with
  | nil => rfl
  | cons cmd rest ih =>
      have later (index : Fin rest.length) : entries[index.succ.val]? = entries.tail[index.val]? := by
        rw [Fin.val_succ, List.getElem?_tail]
      rw [List.ofFn_succ, List.mapM_cons, simulateAll, ← ih entries.tail]
      simp only [List.get_cons_zero, List.get_cons_succ', later, Fin.val_zero, List.head?_eq_getElem?, id,
        map_bind, map_pure, bind_map_left, List.flatMap_cons]

/-- A list produces what its commands produce for the entries at their positions. -/
theorem simulate_ofList (cmds : List (Cmd S Action alphabet)) (sequence batch : Bool)
    (tree : Option Simulation) :
    (ofList cmds sequence batch).simulate tree =
      Simulated.ofList <$> simulateAll cmds (Simulation.entries tree) := by
  rw [← mapM_simulate_eq, Functor.map_map]
  simp only [ofList, simulate, Simulation.entry?_eq_getElem?, map_eq_pure_bind]

/-- Commands use up one entry each. -/
theorem simulateAll_append (first second : List (Cmd S Action alphabet)) (entries : List Simulation) :
    simulateAll (first ++ second) entries = (do
      let found ← simulateAll first entries
      let others ← simulateAll second (entries.drop first.length)
      pure (found ++ others)) := by
  induction first generalizing entries with
  | nil => simp [simulateAll]
  | cons cmd rest ih =>
      simp only [List.cons_append, simulateAll, ih, LawfulMonad.bind_assoc, pure_bind, List.append_assoc,
        List.length_cons, List.drop_tail]

/-- Entries beyond the commands are not looked at. -/
theorem simulateAll_take (cmds : List (Cmd S Action alphabet)) (entries : List Simulation) :
    simulateAll cmds (entries.take cmds.length) = simulateAll cmds entries := by
  induction cmds generalizing entries with
  | nil => rfl
  | cons cmd rest ih =>
      cases entries with
      | nil => rfl
      | cons entry entries =>
          simp only [simulateAll, List.length_cons, List.take_succ_cons, List.head?_cons, List.tail_cons, ih]

/-- If there is an entry for each of the first commands, the others start with the entries after these. -/
theorem simulateAll_append_append {first : List (Cmd S Action alphabet)} {early : List Simulation}
    (aligned : early.length = first.length) (second : List (Cmd S Action alphabet))
    (late : List Simulation) :
    simulateAll (first ++ second) (early ++ late) = (do
      let found ← simulateAll first early
      let others ← simulateAll second late
      pure (found ++ others)) := by
  rw [simulateAll_append, ← simulateAll_take first, List.take_left' aligned, List.drop_left' aligned]

/-- Simulation flattens nested lists position by position.  A list with another one among its elements
gives the same as the list with the elements of the inner one in its place, whatever the flags, if the
entries of the inner list are put in the place of its entry.  There may be fewer entries for the
commands after the inner list than there are commands, or more. -/
theorem simulate_flatten {before inner : List (Cmd S Action alphabet)} {early middle : List Simulation}
    (alignedBefore : early.length = before.length) (alignedInner : middle.length = inner.length)
    (after : List (Cmd S Action alphabet)) (late : List Simulation)
    (sequence batch innerSequence innerBatch flatSequence flatBatch : Bool) :
    (ofList (before ++ [ofList inner innerSequence innerBatch] ++ after) sequence batch).simulate
        (some (.many (early ++ [.many middle] ++ late))) =
      (ofList (before ++ inner ++ after) flatSequence flatBatch).simulate
        (some (.many (early ++ middle ++ late))) := by
  have nested : simulateAll [ofList inner innerSequence innerBatch] [.many middle] =
      simulateAll inner middle := by
    simp only [simulateAll, List.head?_cons, simulate_ofList, Simulation.entries_many, bind_map_left,
      pure_bind, Simulated.toList_ofList, List.append_nil, bind_pure]
  have alignedFlat : (early ++ middle).length = (before ++ inner).length := by
    rw [List.length_append, List.length_append, alignedBefore, alignedInner]
  have alignedNested : (early ++ [Simulation.many middle]).length =
      (before ++ [ofList inner innerSequence innerBatch]).length := by
    rw [List.length_append, List.length_append, alignedBefore]
    rfl
  rw [simulate_ofList, simulate_ofList, Simulation.entries_many, Simulation.entries_many,
    simulateAll_append_append alignedNested, simulateAll_append_append alignedFlat,
    simulateAll_append_append alignedBefore, simulateAll_append_append alignedBefore, nested]

namespace Placing

/-- Ask for something, with an action for an answer and none for a failure. -/
def asking (number : Nat) : Cmd Unit (fun _ : Unit => Nat) () :=
  .run ⟨fun _ => .done (.ready (.ok .null)), [], some fun _ => pure number, Option.none, false⟩

/-- Ask later, with an action that tells the handle. -/
def askingLater (number : Nat) : Cmd Unit (fun _ : Unit => Nat) () :=
  .scheduled (asking number) .zero false (some fun handle => pure handle.id.toNat)

/-- Two commands before an inner list, the first of which fails. -/
def before : List (Cmd Unit (fun _ : Unit => Nat) ()) := [asking 1, asking 2]

/-- An inner list, the first command of which does nothing. -/
def inner : List (Cmd Unit (fun _ : Unit => Nat) ()) := [.none, askingLater 3]

/-- Two commands after it, of which only the first has an entry. -/
def after : List (Cmd Unit (fun _ : Unit => Nat) ()) := [asking 4, asking 5]

def early : List Simulation := [.run .null false, .run .null true]

def middle : List Simulation := [.run .null true, .scheduled ⟨9⟩ (some (.run .null true))]

def late : List Simulation := [.run .null true]

/-- The nested list and the flat one give the same actions, although the first command gives none. -/
theorem simulate_flatten_placed :
    early.length = before.length ∧ middle.length = inner.length ∧
      ((ofList (before ++ inner ++ after) true true).simulate
        (some (.many (early ++ middle ++ late)))).value.toList = [2, 9, 3, 4] ∧
      (ofList (before ++ [ofList inner true false] ++ after) false true).simulate
          (some (.many (early ++ [.many middle] ++ late))) =
        (ofList (before ++ inner ++ after) true true).simulate
          (some (.many (early ++ middle ++ late))) :=
  ⟨rfl, rfl, by decide +kernel,
    simulate_flatten rfl rfl after late false true true false true true⟩

end Placing

end Cmd

end EffectLoop
