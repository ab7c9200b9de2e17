import EffectLoop.Command.Build
import EffectLoop.Proofs.Program.Retag
import EffectLoop.Simulation.Actions

/-!
# Fusion of tags

A command that is tagged twice is the command that is tagged once with both taggers in a row.  The
two are not merely similar: executing them is the same program, so no host, no state and no order of
completion tells them apart, and neither does a simulation tree.
-/

namespace EffectLoop

variable {S ι : Type} {Action : ι → Type} {A : Type} {alphabet child grandchild : ι}

namespace FollowUp

theorem retag_andThen {B : Type} (tagger : A → Noted B) (first : FollowUp S Action A child)
    (after : List (Action child) → FollowUp S Action A alphabet) :
    Pending.retag tagger (first.andThen after) =
      FollowUp.andThen (Pending.retag tagger first)
        fun actions => Pending.retag tagger (after actions) := by
  simp only [andThen, Pending.retag_bind]
  congr 1
  funext result
  cases result <;> rfl

theorem andThen_andThen (first : FollowUp S Action A grandchild)
    (second : List (Action grandchild) → FollowUp S Action A child)
    (third : List (Action child) → FollowUp S Action A alphabet) :
    (first.andThen second).andThen third =
      first.andThen fun actions => (second actions).andThen third := by
  simp only [andThen, Pending.bind_assoc]
  congr 1
  funext result
  cases result <;> rfl

/-- A tagger without notes maps the results. -/
theorem tagged_pure (tagger : Action child → Action alphabet)
    (first : FollowUp S Action (Action child) child) :
    first.tagged (fun action => pure (tagger action)) =
      FollowUp.andThen (Pending.retag (fun action => pure (tagger action)) first)
        fun actions => now (actions.map tagger) := by
  simp only [tagged, Pending.withNoted_mapM_pure]

theorem tagged_tagged (inner : Action grandchild → Action child)
    (outer : Action child → Action alphabet)
    (first : FollowUp S Action (Action grandchild) grandchild) :
    FollowUp.tagged (fun action => pure (outer action))
        (first.tagged fun action => pure (inner action)) =
      first.tagged fun action => pure (outer (inner action)) := by
  calc FollowUp.tagged (fun action => pure (outer action))
        (first.tagged fun action => pure (inner action))
      = FollowUp.andThen
          (FollowUp.andThen
            (Pending.retag (fun action => pure (outer action))
              (Pending.retag (fun action => pure (inner action)) first))
            fun actions => now (actions.map inner))
          fun actions => now (actions.map outer) := by
        simp only [tagged_pure, retag_andThen]
        rfl
    _ = FollowUp.andThen (Pending.retag (fun action => pure (outer (inner action))) first)
          fun actions => now ((actions.map inner).map outer) := by
        rw [andThen_andThen, Pending.retag_retag]
        simp only [pure_bind]
        rfl
    _ = first.tagged fun action => pure (outer (inner action)) := by
        simp only [tagged_pure, List.map_map, Function.comp_def]

end FollowUp

/-- The verdict of a tagged command. -/
def Verdict.tagged (tagger : Action child → Noted (Action alphabet)) :
    Verdict S Action (Action child) child → Verdict S Action (Action alphabet) alphabet
  | .error cause => .error cause
  | .ok none => .ok none
  | .ok (some pending) => .ok (some (pending.tagged tagger))

theorem Verdict.tagged_tagged (inner : Action grandchild → Action child)
    (outer : Action child → Action alphabet)
    (verdict : Verdict S Action (Action grandchild) grandchild) :
    Verdict.tagged (fun action => pure (outer action))
        (Verdict.tagged (fun action => pure (inner action)) verdict) =
      Verdict.tagged (fun action => pure (outer (inner action))) verdict := by
  rcases verdict with cause | found
  · rfl
  · cases found with
    | none => rfl
    | some pending => simp only [Verdict.tagged, FollowUp.tagged_tagged]

namespace Simulated

variable {B C : Type}

/-- Apply a function to every action. -/
def map (image : A → B) : Simulated A → Simulated B
  | nothing => nothing
  | one action => one (image action)
  | many actions => many (actions.map image)

theorem mapNoted_pure (image : A → B) (found : Simulated A) :
    found.mapNoted (fun action => pure (image action)) = pure (found.map image) := by
  cases found with
  | nothing => rfl
  | one action => rfl
  | many actions =>
      simp only [mapNoted, List.mapM_pure, map_pure]
      rfl

@[simp] theorem toList_map (image : A → B) (found : Simulated A) :
    (found.map image).toList = found.toList.map image := by
  cases found <;> rfl

@[simp] theorem map_ofList (image : A → B) (actions : List A) :
    (ofList actions).map image = ofList (actions.map image) := by
  cases actions <;> rfl

theorem map_map (inner : A → B) (outer : B → C) (found : Simulated A) :
    (found.map inner).map outer = found.map fun action => outer (inner action) := by
  cases found with
  | nothing => rfl
  | one action => rfl
  | many actions => simp only [map, List.map_map, Function.comp_def]

end Simulated

namespace Cmd

/-- A tagged command sends tagged actions in the call, and its verdict is tagged. -/
theorem execute_map (options : Options) (nested : Cmd S Action child)
    (tagger : List Json → Action child → Noted (Action alphabet)) (args : List Json) :
    (Cmd.map nested tagger args).execute options =
      Verdict.tagged (tagger args) <$> (nested.execute options).retag (tagger args) := by
  rw [map_eq_pure_bind]
  change Prompt.bind _ _ = Prompt.bind _ _
  congr 1
  funext verdict
  rcases verdict with cause | found
  · rfl
  · cases found <;> rfl

/-- Executing a command that is tagged twice is executing the command that is tagged once. -/
theorem execute_map_map (options : Options) (nested : Cmd S Action grandchild)
    (inner : List Json → Action grandchild → Action child) (innerArgs : List Json)
    (outer : List Json → Action child → Action alphabet) (outerArgs : List Json) :
    (Cmd.map (Cmd.map nested (fun args action => pure (inner args action)) innerArgs)
        (fun args action => pure (outer args action)) outerArgs).execute options =
      (Cmd.map nested (fun _ action => pure (outer outerArgs (inner innerArgs action)))
        []).execute options := by
  simp only [execute_map, map_eq_pure_bind, Prompt.retag_bind, Prompt.retag_retag,
    LawfulMonad.bind_assoc, pure_bind]
  congr 1
  funext verdict
  change Prompt.done (Verdict.tagged _ (Verdict.tagged _ verdict)) = Prompt.done _
  rw [Verdict.tagged_tagged]

/-- Simulating a command that is tagged twice is simulating the command that is tagged once. -/
theorem simulate_map_map (nested : Cmd S Action grandchild)
    (inner : List Json → Action grandchild → Action child) (innerArgs : List Json)
    (outer : List Json → Action child → Action alphabet) (outerArgs : List Json)
    (tree : Option Simulation) :
    (Cmd.map (Cmd.map nested (fun args action => pure (inner args action)) innerArgs)
        (fun args action => pure (outer args action)) outerArgs).simulate tree =
      (Cmd.map nested (fun _ action => pure (outer outerArgs (inner innerArgs action)))
        []).simulate tree := by
  simp only [simulate, LawfulMonad.bind_assoc]
  congr 1
  funext found
  rw [Simulated.mapNoted_pure, pure_bind, Simulated.mapNoted_pure, Simulated.mapNoted_pure,
    Simulated.map_map]

/-- Tagging fuses.  A command that is tagged by `inner` and then by `outer` is indistinguishable
from the command that is tagged by `outer` after `inner`: executed, they are one program, with the
same verdict, the same effects in the same order, and the same tasks for the scheduler; simulated,
they give the same actions for every tree.  Taggers with arguments are fed their own ones. -/
theorem tagged_tagged_eq (cmd : Cmd S Action grandchild) :
    (∀ (inner : Action grandchild → Action child) (outer : Action child → Action alphabet),
      let twice := tagged (tagged cmd fun action => pure (inner action))
        fun action => pure (outer action)
      let once := tagged cmd fun action => pure (outer (inner action))
      (∀ options, twice.execute options = once.execute options) ∧
        ∀ tree, twice.simulate tree = once.simulate tree) ∧
    ∀ (inner : List Json → Action grandchild → Action child) (innerArgs : List Json)
      (outer : List Json → Action child → Action alphabet) (outerArgs : List Json),
      let twice := taggedWith
        (taggedWith cmd (fun args action => pure (inner args action)) innerArgs)
        (fun args action => pure (outer args action)) outerArgs
      let once := tagged cmd fun action => pure (outer outerArgs (inner innerArgs action))
      (∀ options, twice.execute options = once.execute options) ∧
        ∀ tree, twice.simulate tree = once.simulate tree := by
  constructor
  · intro inner outer
    constructor
    · intro options
      exact execute_map_map options cmd (fun _ => inner) [] (fun _ => outer) []
    · intro tree
      exact simulate_map_map cmd (fun _ => inner) [] (fun _ => outer) [] tree
  · intro inner innerArgs outer outerArgs
    constructor
    · intro options
      exact execute_map_map options cmd inner innerArgs outer outerArgs
    · intro tree
      exact simulate_map_map cmd inner innerArgs outer outerArgs tree

end Cmd

end EffectLoop
