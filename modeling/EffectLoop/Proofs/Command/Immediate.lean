import EffectLoop.Proofs.Command.Ledger
import EffectLoop.Proofs.Store.Thread
import EffectLoop.Proofs.World.Hosting
import EffectLoop.Proofs.World.Mirroring

/-!
# Immediate commands

A command is *immediate* if its RUNs send nothing and hand back outcomes that are known in the call.  How
it is executed depends only on the flags of its lists; `Cmd.flagged` gives all of them the same flags.

`Cmd.Unfolds` relates a command to calls of its functions, one for each RUN in order, and to the
simulation tree that holds their outcomes.
-/

namespace EffectLoop

variable {S ι : Type} {Action : ι → Type} {A B α : Type} {alphabet child : ι}

/-! ## Functions that send nothing -/

/-- A computation that may not send anything does not depend on what becomes of dispatched actions. -/
theorem Prompt.Meets.run_eq {terms : Terms S Action A} {post : α → Prop} {program : Prompt S Action A α}
    (meets : program.Meets terms post) (silent : ¬terms.sends) (left right : Engine S Action A) :
    program.run left = program.run right := by
  induction program with
  | done value => rfl
  | call effect next ih => simp only [run, fun reply => ih reply (meets reply)]
  | send action keep next ih => exact absurd meets.1 silent
  | schedule delay repeating task next ih => simp only [run, fun handle => ih handle (meets.2 handle)]
  | spawn task next ih => simp only [run, ih meets.2]

/-- A failure carries a payload and meets with a fail creator. -/
def RunSpec.Handles (spec : RunSpec S Action A) (outcome : Except RunFailure Json) : Prop :=
  (Simulation.ofOutcome? outcome).isSome ∧ ∀ cause, outcome = .error cause → spec.onFail.isSome

/-- The function sends nothing, and its outcome is known in the call and can be handled. -/
def RunSpec.Immediate (spec : RunSpec S Action A) : Prop :=
  (spec.func spec.args).Meets (.quiet True) fun output =>
    ∃ outcome, output = .ready outcome ∧ spec.Handles outcome

/-- What the function of a RUN does in the call, in a context. -/
def RunSpec.callee (spec : RunSpec S Action A) (tag : A → Noted B) :
    Prompt S Action B (Option (Except RunFailure Json)) :=
  RunResult.outcome? <$> (spec.func spec.args).retag tag

namespace Cmd

/-- Every RUN is immediate, and no command is scheduled. -/
def Immediate : {alphabet : ι} → Cmd S Action alphabet → Prop
  | _, .none => True
  | _, .action _ => True
  | _, .run spec => spec.Immediate
  | _, .list cmds _ _ => ∀ index, (cmds index).Immediate
  | _, .map nested _ _ => nested.Immediate
  | _, .scheduled _ _ _ _ => False

/-- The same command, with the given flags for every list. -/
def flagged (sequence batch : Bool) : {alphabet : ι} → Cmd S Action alphabet → Cmd S Action alphabet
  | _, .none => .none
  | _, .action sent => .action sent
  | _, .run spec => .run spec
  | _, .list cmds _ _ => .list (fun index => (cmds index).flagged sequence batch) sequence batch
  | _, .map nested tagger args => .map (nested.flagged sequence batch) tagger args
  | _, .scheduled nested delay repeating onScheduled =>
      .scheduled (nested.flagged sequence batch) delay repeating onScheduled

/-- A simulation does not look at the flags of lists. -/
theorem simulate_flagged (sequence batch : Bool) (cmd : Cmd S Action alphabet)
    (tree : Option Simulation) : (cmd.flagged sequence batch).simulate tree = cmd.simulate tree := by
  induction cmd generalizing tree with
  | none => rfl
  | action sent => rfl
  | run spec => rfl
  | list cmds _ _ ih => simp only [flagged, simulate, ih]
  | map nested tagger args ih => simp only [flagged, simulate, ih]
  | scheduled nested delay repeating onScheduled ih => simp only [flagged, simulate, ih]

/-- How deep lists are nested in each other. -/
def nesting : {alphabet : ι} → Cmd S Action alphabet → Nat
  | _, .list cmds _ _ => (Finset.univ.sup fun index => (cmds index).nesting) + 1
  | _, .map nested _ _ => nested.nesting
  | _, .scheduled nested _ _ _ => nested.nesting
  | _, _ => 0

/-- The function is that of one of the RUNs, in a context. -/
def Calls : {alphabet : ι} → (tag : Action alphabet → Noted A) → Cmd S Action alphabet →
    Callee S Action A → Prop
  | _, tag, .run spec, function => function = spec.callee tag
  | _, tag, .list cmds _ _, function => ∃ index, (cmds index).Calls tag function
  | _, tag, .map nested tagger args, function =>
      nested.Calls (fun action => tagger args action >>= tag) function
  | _, _, _, _ => False

/-- The functions of the RUNs may be called in this order, with these outcomes, which the tree holds. -/
inductive Unfolds : {alphabet : ι} → (tag : Action alphabet → Noted A) → Cmd S Action alphabet →
    List (Call S Action A) → Simulation → Prop where
  | none {alphabet : ι} (tag : Action alphabet → Noted A) : Unfolds tag .none [] (.many [])
  | action {alphabet : ι} (tag : Action alphabet → Noted A) (sent : Action alphabet) :
      Unfolds tag (.action sent) [] (.many [])
  | run {alphabet : ι} {tag : Action alphabet → Noted A} {spec : RunSpec S Action (Action alphabet)}
      {journal outcome leaf} : (spec.func spec.args).Ends journal (.ready outcome) →
      Simulation.ofOutcome? outcome = some leaf →
      Unfolds tag (.run spec) [⟨spec.callee tag, outcome⟩] leaf
  | list {alphabet : ι} {tag : Action alphabet → Noted A} {count : Nat}
      {cmds : Fin count → Cmd S Action alphabet} {sequence batch}
      {calls : Fin count → List (Call S Action A)} {trees : Fin count → Simulation} :
      (∀ index, Unfolds tag (cmds index) (calls index) (trees index)) →
      Unfolds tag (.list cmds sequence batch) (List.ofFn calls).flatten (.many (List.ofFn trees))
  | map {alphabet child : ι} {tag : Action alphabet → Noted A} {nested : Cmd S Action child}
      {tagger : List Json → Action child → Noted (Action alphabet)} {args calls tree} :
      Unfolds (fun action => tagger args action >>= tag) nested calls tree →
      Unfolds tag (.map nested tagger args) calls tree

/-- Which functions are called, and in which order the tree holds their outcomes, does not depend on the
flags of lists. -/
theorem Unfolds.flagged {tag : Action alphabet → Noted A} {cmd : Cmd S Action alphabet}
    {calls : List (Call S Action A)} {tree : Simulation} (unfolds : cmd.Unfolds tag calls tree)
    (sequence batch : Bool) : (cmd.flagged sequence batch).Unfolds tag calls tree := by
  induction unfolds with
  | none tag => exact .none tag
  | action tag sent => exact .action tag sent
  | run ends isLeaf => exact .run ends isLeaf
  | list _ ih => exact .list ih
  | map _ ih => exact .map ih

/-- Immediate commands have outcomes. -/
theorem Immediate.exists_unfolds [Nonempty S] {cmd : Cmd S Action alphabet} (immediate : cmd.Immediate)
    (tag : Action alphabet → Noted A) : ∃ calls tree, cmd.Unfolds tag calls tree := by
  induction cmd with
  | none => exact ⟨_, _, .none tag⟩
  | action sent => exact ⟨_, _, .action tag sent⟩
  | run spec =>
      rcases Prompt.exists_ends (spec.func spec.args) with ⟨journal, output, ends⟩
      rcases (Prompt.Meets.of_ends immediate ends).1 with ⟨outcome, same, told, -⟩
      rcases Option.isSome_iff_exists.1 told with ⟨leaf, isLeaf⟩
      rw [same] at ends
      exact ⟨_, leaf, .run ends isLeaf⟩
  | list cmds sequence batch ih =>
      choose calls trees unfolds using fun index => ih index (immediate index) tag
      exact ⟨_, _, .list unfolds⟩
  | map nested tagger args ih =>
      rcases ih immediate fun action => tagger args action >>= tag with ⟨calls, tree, unfolds⟩
      exact ⟨calls, tree, .map unfolds⟩
  | scheduled => exact immediate.elim

/-- The functions of the RUNs may be called in this order, and these are the actions that the simulation
of their outcomes gives. -/
def Gives (tag : Action alphabet → Noted A) (cmd : Cmd S Action alphabet)
    (calls : List (Call S Action A)) (actions : List (Action alphabet)) : Prop :=
  ∃ tree, cmd.Unfolds tag calls tree ∧ actions = (cmd.simulate (some tree)).value.toList

namespace Gives

variable {tag : Action alphabet → Noted A} {count : Nat} {cmds : Fin count → Cmd S Action alphabet}
variable {calls : Fin count → List (Call S Action A)} {actions : Fin count → List (Action alphabet)}

theorem list (gives : ∀ index, (cmds index).Gives tag (calls index) (actions index))
    (sequence batch : Bool) :
    (Cmd.list cmds sequence batch).Gives tag (List.ofFn calls).flatten (List.ofFn actions).flatten := by
  choose trees unfolds simulated using gives
  refine ⟨_, .list unfolds, ?_⟩
  rw [simulate_list_toList, funext simulated]

theorem map {tagger : List Json → Action child → Noted (Action alphabet)} {args : List Json}
    {nested : Cmd S Action child} {calls : List (Call S Action A)} {actions : List (Action child)}
    (gives : nested.Gives (fun action => tagger args action >>= tag) calls actions) :
    (Cmd.map nested tagger args).Gives tag calls
      (actions.map fun action => (tagger args action).value) := by
  rcases gives with ⟨tree, unfolds, simulated⟩
  refine ⟨tree, .map unfolds, ?_⟩
  rw [simulate, Noted.bind_value, Simulated.toList_mapNoted_value, simulated]

/-- What one command of a list gives is among what the list gives, whatever the others give. -/
theorem exists_list [Nonempty S] {sequence batch : Bool}
    (immediate : (Cmd.list cmds sequence batch).Immediate) {index : Fin count}
    {part : List (Call S Action A)} {found : List (Action alphabet)}
    (gives : (cmds index).Gives tag part found) :
    ∃ calls actions, (Cmd.list cmds sequence batch).Gives tag calls actions ∧ found ⊆ actions := by
  have others (other : Fin count) : ∃ calls actions, (cmds other).Gives tag calls actions ∧
      (other = index → found ⊆ actions) := by
    by_cases same : other = index
    · rw [same]
      exact ⟨part, found, gives, fun _ => List.Subset.refl _⟩
    · rcases (immediate other).exists_unfolds tag with ⟨calls, tree, unfolds⟩
      exact ⟨calls, _, ⟨tree, unfolds, rfl⟩, fun is => absurd is same⟩
  choose calls actions each inside using others
  refine ⟨_, _, .list each sequence batch, ?_⟩
  intro action listed
  exact List.mem_flatten.2 ⟨_, List.mem_ofFn.2 ⟨index, rfl⟩, inside index rfl listed⟩

end Gives

end Cmd

/-! ## Calls -/

namespace RunSpec

variable {store : Store S Action alphabet} {functions : Callee S Action (Action alphabet) → Prop}

/-- An immediate function is called once, and its outcome is one that it may have. -/
theorem Immediate.does {spec : RunSpec S Action A} (immediate : spec.Immediate)
    {tag : A → Noted (Action alphabet)} (listed : functions (spec.callee tag))
    (engine : Engine S Action (Action alphabet)) :
    store.Does functions (((spec.func spec.args).retag tag).run engine) fun calls actions output =>
      ∃ outcome journal, calls = [⟨spec.callee tag, outcome⟩] ∧ actions = [] ∧
        output = .ready outcome ∧ spec.Handles outcome ∧
          (spec.func spec.args).Ends journal (.ready outcome) := by
  intro world isOpen floor le
  let mute := (Host.store store).engine 0
  have silent := Prompt.Meets.retag tag immediate
  rw [silent.run_eq id engine mute]
  have called : (spec.callee tag).run mute =
      RunResult.outcome? <$> ((spec.func spec.args).retag tag).run mute := Prompt.run_map ..
  rcases ran : ((spec.func spec.args).retag tag).run mute world with ⟨result, after⟩
  cases result with
  | error halt =>
      refine .halts ran ⟨[], [], world, _, .rest world, listed, ?_⟩
      rw [called, map_eq_pure_bind]
      exact Run.bind_of_error ran
  | ok output =>
      rcases (Prompt.run_ends _ mute world).holds output after ran with ⟨told, ends⟩
      rcases Prompt.Ends.of_retag ends with ⟨journal, source, -⟩
      rcases (Prompt.Meets.of_ends immediate source).1 with ⟨outcome, rfl, handles⟩
      have answered : (spec.callee tag).run mute world = (.ok (some outcome), after) := by
        rw [called, map_eq_pure_bind]
        exact Run.bind_of_ok ran
      let call : Call S Action (Action alphabet) := ⟨spec.callee tag, outcome⟩
      have thread : store.Thread [call] [] world after := .called answered
      exact .answers ran thread nofun ⟨outcome, journal, rfl, rfl, rfl, handles, source⟩

end RunSpec

end EffectLoop
