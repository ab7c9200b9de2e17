import Mathlib.Data.List.OfFn
import EffectLoop.Proofs.Command.Fusion
import EffectLoop.Proofs.World.Mirroring

/-!
# Tagging composite commands

A tag on a list can be put on each of its members, and a tag on a scheduled command on the command it
executes and on the action that reports its handle.

For a sequential list and for a schedule both ways give one program.  A parallel list gives two: one
joins the members and tags what they have produced, the other tags the results of each member before
it joins them.  The second program is a rendering of the first, so no context tells them apart.
-/

namespace EffectLoop

variable {S ι : Type} {Action : ι → Type} {A α : Type} {alphabet child : ι} {answer : Answer ι}

/-- Effects that are followed by a function of their results. -/
theorem mapM_id_map {m : Type → Type} [Monad m] [LawfulMonad m] {β γ : Type} (image : β → γ)
    (effects : List (m β)) :
    (effects.map (image <$> ·)).mapM id = List.map image <$> effects.mapM id := by
  induction effects with
  | nil => simp only [List.map_nil, List.mapM_nil, map_pure]
  | cons effect rest ih =>
      rw [List.map_cons, List.mapM_cons, List.mapM_cons, ih]
      simp only [id, map_eq_pure_bind, LawfulMonad.bind_assoc, pure_bind, List.map_cons]

section

variable (tagger : Action child → Action alphabet)

namespace FollowUp

/-- The result is tagged when all else is done. -/
theorem tagged_eq_bind (first : FollowUp S Action (Action child) child) :
    first.tagged (fun action => pure (tagger action)) =
      (Pending.retag (fun action => pure (tagger action)) first).bind
        fun result => .done (List.map tagger <$> result) := by
  rw [tagged_pure, andThen]
  congr 1
  funext result
  cases result <;> rfl

theorem tagged_now (actions : List (Action child)) :
    (now actions : FollowUp S Action (Action child) child).tagged (fun action => pure (tagger action)) =
      now (actions.map tagger) := by
  rw [tagged_pure]
  rfl

/-- What comes after the actions is tagged as they are. -/
theorem tagged_andThen (first : FollowUp S Action (Action child) child)
    (after : List (Action child) → FollowUp S Action (Action child) child)
    (last : List (Action alphabet) → FollowUp S Action (Action alphabet) alphabet)
    (same : ∀ actions, (after actions).tagged (fun action => pure (tagger action)) =
      last (actions.map tagger)) :
    FollowUp.tagged (fun action => pure (tagger action)) (first.andThen after) =
      (first.tagged fun action => pure (tagger action)).andThen last := by
  simp only [tagged_pure] at same ⊢
  rw [retag_andThen, andThen_andThen, andThen_andThen]
  simp only [same]
  rfl

theorem tagged_thenPending (first : Prompt S Action (Action child) α)
    (after : α → FollowUp S Action (Action child) child) :
    FollowUp.tagged (fun action => pure (tagger action)) (first.thenPending after) =
      (first.retag fun action => pure (tagger action)).thenPending
        fun value => (after value).tagged fun action => pure (tagger action) := by
  simp only [tagged, andThen, Prompt.retag_thenPending, Prompt.bind_thenPending]

/-- Dispatching actions and going on. -/
theorem tagged_sendAll (actions : List (Action child))
    (next : Except CmdFailure Unit → FollowUp S Action (Action child) child) :
    FollowUp.tagged (fun action => pure (tagger action))
        (Pending.sendAll (actions.map pure) next) =
      .sendAll ((actions.map tagger).map pure)
        fun reply => (next reply).tagged fun action => pure (tagger action) := by
  simp only [tagged, andThen, Pending.retag, Pending.bind, List.map_map, Function.comp_def, pure_bind]

end FollowUp

/-- The start of a tagged command. -/
def Start.tagged (start : Start S Action child) : Start S Action alphabet :=
  Verdict.tagged (fun action => pure (tagger action)) <$>
    start.retag fun action => pure (tagger action)

/-! ## Sequential lists -/

theorem tagged_arrive (batch : Bool)
    (onward : List (Action child) → FollowUp S Action (Action child) child)
    (last : List (Action alphabet) → FollowUp S Action (Action alphabet) alphabet)
    (same : ∀ collected, (onward collected).tagged (fun action => pure (tagger action)) =
      last (collected.map tagger))
    (collected actions : List (Action child)) :
    (arrive batch onward collected actions).tagged (fun action => pure (tagger action)) =
      arrive batch last (collected.map tagger) (actions.map tagger) := by
  cases batch with
  | true =>
      rw [arrive, if_pos rfl, same, List.map_append]
      rfl
  | false =>
      simp only [arrive, Bool.false_eq_true, if_false, FollowUp.tagged_sendAll]
      congr 1
      funext reply
      cases reply with
      | ok done => exact same collected
      | error cause => rfl

theorem tagged_walk_of_onward (batch : Bool) (rest : List (Start S Action child))
    (same : ∀ collected,
      (onward batch rest collected).tagged (fun action => pure (tagger action)) =
        onward batch (rest.map (Start.tagged tagger)) (collected.map tagger))
    (collected : List (Action child)) (verdict : Verdict S Action (Action child) child) :
    (walk batch rest collected verdict).tagged (fun action => pure (tagger action)) =
      walk batch (rest.map (Start.tagged tagger)) (collected.map tagger)
        (verdict.tagged fun action => pure (tagger action)) := by
  have arrived := tagged_arrive tagger batch _ _ same collected
  rw [walk_eq, walk_eq]
  cases verdict with
  | error cause => rfl
  | ok found =>
      cases found with
      | none => exact arrived []
      | some pending => exact FollowUp.tagged_andThen tagger pending _ _ arrived

/-- Tagging what is left of a sequential list is tagging what it has collected, the verdict it waits
for, and the commands to come. -/
theorem tagged_walk (batch : Bool) (rest : List (Start S Action child))
    (collected : List (Action child)) (verdict : Verdict S Action (Action child) child) :
    (walk batch rest collected verdict).tagged (fun action => pure (tagger action)) =
      walk batch (rest.map (Start.tagged tagger)) (collected.map tagger)
        (verdict.tagged fun action => pure (tagger action)) := by
  induction rest generalizing collected verdict with
  | nil => exact tagged_walk_of_onward tagger batch [] (FollowUp.tagged_now tagger) collected verdict
  | cons next later ih =>
      apply tagged_walk_of_onward
      intro collected
      change FollowUp.tagged _ (next.thenPending (walk batch later collected)) =
        (Start.tagged tagger next).thenPending (walk batch _ _)
      rw [FollowUp.tagged_thenPending, Start.tagged, Prompt.map_thenPending]
      simp only [ih]

theorem tagged_startInOrder (batch : Bool) (starts : List (Start S Action child)) :
    (startInOrder batch starts).tagged tagger =
      startInOrder batch (starts.map (Start.tagged tagger)) := by
  cases starts with
  | nil => rfl
  | cons head rest =>
      simp only [Start.tagged, startInOrder, List.map_cons, Prompt.retag_bind, map_eq_pure_bind,
        LawfulMonad.bind_assoc, pure_bind]
      congr 1
      funext verdict
      have left := tagged_walk tagger batch rest [] verdict
      change Prompt.done (Except.ok (some _)) = Prompt.done (Except.ok (some _))
      rw [left]
      rfl

/-! ## Parallel lists -/

theorem siblings_tagged (batch : Bool)
    (verdicts : List (Verdict S Action (Action child) child)) :
    siblings batch (verdicts.map (Verdict.tagged fun action => pure (tagger action))) =
      (siblings batch verdicts).map (FollowUp.tagged fun action => pure (tagger action)) := by
  rw [siblings, siblings, List.filterMap_map, List.map_filterMap]
  congr 1
  funext verdict
  cases verdict with
  | error cause => rfl
  | ok found =>
      cases found with
      | none => rfl
      | some pending =>
          cases batch with
          | true => rfl
          | false =>
              have dispatched : FollowUp.dispatched (pending.tagged fun action => pure (tagger action)) =
                  pending.dispatched.tagged fun action => pure (tagger action) := by
                symm
                apply FollowUp.tagged_andThen
                intro actions
                rw [FollowUp.tagged_sendAll]
                congr 1
                funext reply
                cases reply <;> rfl
              exact congrArg some dispatched

/-- The results of tagged siblings. -/
theorem FollowUp.collect_tagged {count : Nat}
    (results : Fin count → Except CmdFailure (List (Action child))) :
    collect (fun index => List.map tagger <$> results index) =
      List.map tagger <$> collect results := by
  have each : (List.ofFn fun index => List.map tagger <$> results index) =
      (List.ofFn results).map (List.map tagger <$> ·) := by
    rw [List.map_ofFn]
    rfl
  simp only [collect, each, mapM_id_map, Functor.map_map, List.map_flatten]

/-- Waiting for siblings that are told by what they stem from. -/
theorem FollowUp.all_map (image : α → FollowUp S Action A alphabet) (values : List α) :
    all (values.map image) =
      .join none (fun index => image (values.get index)) fun results => .done (collect results) := by
  let joined (family : Σ count, Fin count → FollowUp S Action A alphabet) :
      FollowUp S Action A alphabet :=
    .join none family.2 fun results => .done (collect results)
  exact congrArg joined (sigma_get_map image values)

theorem FollowUp.retag_all (tag : Action alphabet → Noted A)
    (found : List (FollowUp S Action (Action alphabet) alphabet)) :
    Pending.retag tag (all found) = all (found.map (Pending.retag tag)) :=
  (all_map (Pending.retag tag) found).symm

/-- Waiting for tagged siblings is a rendering of waiting for the siblings and tagging what they have
produced. -/
theorem FollowUp.renders_all (siblings : List (FollowUp S Action (Action child) child)) :
    Pending.Renders id ((all siblings).tagged fun action => pure (tagger action))
      (all (siblings.map (FollowUp.tagged fun action => pure (tagger action)))) := by
  have whole : (all siblings).tagged (fun action => pure (tagger action)) =
      .join none (fun index => Pending.retag (fun action => pure (tagger action)) (siblings.get index))
        fun results => .done (List.map tagger <$> collect results) := by
    rw [tagged_eq_bind]
    rfl
  rw [whole, all_map]
  apply Pending.Renders.join (List.map tagger <$> ·)
  · intro index
    rw [tagged_eq_bind]
    exact .bind_done _ _
  · intro results
    rw [collect_tagged]
    exact .done _

/-- The verdict of a parallel list with these follow-ups. -/
def Verdict.gathered (found : List (FollowUp S Action A alphabet)) : Verdict S Action A alphabet :=
  if found.isEmpty then .ok none else .ok (some (.all found))

theorem Verdict.renders_gathered (found : List (FollowUp S Action (Action child) child)) :
    Verdict.Renders (Verdict.tagged (fun action => pure (tagger action)) (gathered found))
      (gathered (found.map (FollowUp.tagged fun action => pure (tagger action)))) := by
  cases found with
  | nil => exact .nothing
  | cons first rest => exact .followUp (FollowUp.renders_all tagger (first :: rest))

theorem startTogether_eq (batch : Bool) (starts : List (Start S Action alphabet)) :
    startTogether batch starts =
      (fun verdicts => Verdict.gathered (siblings batch verdicts)) <$> starts.mapM id := by
  rw [startTogether, map_eq_pure_bind]
  congr 1
  funext verdicts
  cases siblings batch verdicts <;> rfl

/-- A tagged parallel list looks like the parallel list of the tagged commands. -/
theorem seen_tagged_startTogether (batch : Bool) (starts : List (Start S Action child))
    (dispatch : Dispatcher S Action (Action alphabet)) (depth : Nat)
    (turns : List (Turn S Action (Action alphabet))) (world : World S Action (Action alphabet)) :
    Start.seen dispatch depth turns ((startTogether batch starts).tagged tagger) world =
      Start.seen dispatch depth turns
        (startTogether batch (starts.map (Start.tagged tagger))) world := by
  let retagged := (starts.map (Prompt.retag fun action => pure (tagger action))).mapM id
  have whole : (startTogether batch starts).tagged tagger =
      (fun verdicts => Verdict.tagged (fun action => pure (tagger action))
        (Verdict.gathered (siblings batch verdicts))) <$> retagged := by
    simp only [Start.tagged, startTogether_eq, map_eq_pure_bind, Prompt.retag_bind,
      Prompt.retag_mapM, LawfulMonad.bind_assoc, retagged]
    rfl
  have parts : startTogether batch (starts.map (Start.tagged tagger)) =
      (fun verdicts => Verdict.gathered
        ((siblings batch verdicts).map (FollowUp.tagged fun action => pure (tagger action)))) <$>
          retagged := by
    have starts_eq : starts.map (Start.tagged tagger) =
        (starts.map (Prompt.retag fun action => pure (tagger action))).map
          (Verdict.tagged (fun action => pure (tagger action)) <$> ·) := by
      rw [List.map_map]
      rfl
    rw [startTogether_eq, starts_eq, mapM_id_map, Functor.map_map]
    simp only [siblings_tagged, retagged]
  rw [whole, parts]
  apply Start.seen_eq_of_renders
  intro verdicts
  exact Verdict.renders_gathered tagger (siblings batch verdicts)

/-! ## Schedules -/

theorem tagged_ofAction (found : Noted (Option (Action child))) :
    Start.tagged tagger (Verdict.ofAction found : Start S Action child) =
      Verdict.ofAction (Option.map tagger <$> found) := by
  rw [Verdict.ofAction, Verdict.ofAction, Prompt.ofNoted_map, Start.tagged, Prompt.retag_bind,
    Prompt.retag_ofNoted]
  simp only [map_eq_pure_bind, LawfulMonad.bind_assoc, pure_bind]
  congr 1
  funext action
  cases action <;> rfl

/-- If the command that a schedule executes is tagged, its firings send tagged actions. -/
theorem retag_firing (start : Start S Action child) :
    (firing start).retag (fun action => pure (tagger action)) = firing (start.tagged tagger) := by
  rw [firing, firing, Prompt.retag_thenPending, Start.tagged, Prompt.map_thenPending]
  congr 1
  funext verdict
  cases verdict with
  | error cause => rfl
  | ok found =>
      cases found with
      | none => rfl
      | some pending =>
          simp only [Verdict.tagged, FollowUp.tagged_eq_bind, Pending.retag_bind, Pending.bind_assoc]
          congr 1
          funext result
          cases result with
          | error cause => rfl
          | ok actions =>
              have sent : (actions.map pure).map (· >>= fun action => (pure (tagger action) : Noted _)) =
                  (actions.map tagger).map pure := by
                simp only [List.map_map, Function.comp_def, pure_bind]
              simp only [Pending.retag, sent]
              congr 1
              funext reply
              cases reply <;> rfl

end

namespace Cmd

variable (tagger : List Json → Action child → Action alphabet) (args : List Json)
variable (options : Options) (tree : Option Simulation)

theorem execute_tagged (nested : Cmd S Action child) :
    (nested.taggedWith (fun args action => pure (tagger args action)) args).execute options =
      (nested.execute options).tagged (tagger args) :=
  execute_map options nested (fun args action => pure (tagger args action)) args

theorem simulate_tagged (nested : Cmd S Action child) :
    (nested.taggedWith (fun args action => pure (tagger args action)) args).simulate tree =
      Simulated.map (tagger args) <$> nested.simulate tree := by
  simp only [taggedWith, simulate, Simulated.mapNoted_pure, bind_pure_comp]

section List

variable {count : Nat} (cmds : Fin count → Cmd S Action child) (sequence batch : Bool)

theorem execute_list : (list cmds sequence batch).execute options =
    if sequence then startInOrder batch (List.ofFn fun index => (cmds index).execute options)
    else startTogether batch (List.ofFn fun index => (cmds index).execute options) := by
  cases sequence <;> rfl

theorem seen_tagged_list (dispatch : Dispatcher S Action (Action alphabet)) (depth : Nat)
    (turns : List (Turn S Action (Action alphabet))) (world : World S Action (Action alphabet)) :
    Start.seen dispatch depth turns (((list cmds sequence batch).taggedWith
        (fun args action => pure (tagger args action)) args).execute options) world =
      Start.seen dispatch depth turns ((list (fun index =>
        (cmds index).taggedWith (fun args action => pure (tagger args action)) args)
          sequence batch).execute options) world := by
  have starts : (List.ofFn fun index => ((cmds index).taggedWith
        (fun args action => pure (tagger args action)) args).execute options) =
      (List.ofFn fun index => (cmds index).execute options).map (Start.tagged (tagger args)) := by
    simp only [List.map_ofFn, Function.comp_def, execute_tagged]
  rw [execute_tagged]
  cases sequence with
  | true => simp only [execute, starts, tagged_startInOrder]
  | false => simp only [execute, starts, seen_tagged_startTogether]

theorem simulate_tagged_list :
    ((list cmds sequence batch).taggedWith
        (fun args action => pure (tagger args action)) args).simulate tree =
      (list (fun index => (cmds index).taggedWith (fun args action => pure (tagger args action)) args)
        sequence batch).simulate tree := by
  have each : (List.ofFn fun index => Simulated.map (tagger args) <$>
        (cmds index).simulate (Simulation.entry? index tree)) =
      (List.ofFn fun index => (cmds index).simulate (Simulation.entry? index tree)).map
        (Simulated.map (tagger args) <$> ·) := by
    simp only [List.map_ofFn, Function.comp_def]
  rw [simulate_tagged]
  simp only [simulate, simulate_tagged, each, mapM_id_map]
  simp only [map_eq_pure_bind, LawfulMonad.bind_assoc, pure_bind, Simulated.map_ofList,
    List.map_flatMap, List.flatMap_map, Simulated.toList_map]

end List

section Scheduled

variable (nested : Cmd S Action child) (delay : Duration) (repeating : Bool)
variable (onScheduled : Option (TimerHandle → Noted (Action child)))

theorem execute_tagged_scheduled :
    ((scheduled nested delay repeating onScheduled).taggedWith
        (fun args action => pure (tagger args action)) args).execute options =
      (scheduled (nested.taggedWith (fun args action => pure (tagger args action)) args)
        delay repeating
        (onScheduled.map fun creator handle => tagger args <$> creator handle)).execute options := by
  rw [execute_tagged]
  cases onScheduled with
  | none =>
      simp only [execute, execute_tagged, ← retag_firing]
      rfl
  | some creator =>
      have report (handle : TimerHandle) : Start.tagged (tagger args)
            (Verdict.ofAction (some <$> creator handle) : Start S Action child) =
          Verdict.ofAction (some <$> tagger args <$> creator handle) := by
        rw [tagged_ofAction, Functor.map_map, Functor.map_map]
        rfl
      simp only [execute, execute_tagged, ← retag_firing, Option.map_some, ← report]
      rfl

theorem simulate_tagged_scheduled :
    ((scheduled nested delay repeating onScheduled).taggedWith
        (fun args action => pure (tagger args action)) args).simulate tree =
      (scheduled (nested.taggedWith (fun args action => pure (tagger args action)) args)
        delay repeating
        (onScheduled.map fun creator handle => tagger args <$> creator handle)).simulate tree := by
  rw [simulate_tagged]
  cases onScheduled with
  | none => simp only [simulate, simulate_tagged, Option.map_none, bind_pure]
  | some creator =>
      simp only [simulate, simulate_tagged, Option.map_some, map_eq_pure_bind,
        LawfulMonad.bind_assoc, pure_bind, Simulated.toList_map]
      rfl

end Scheduled

/-- Tagging distributes.  A tagged list is indistinguishable from the list of the tagged commands with
the same flags: started in any context, in any world, and polled at any turns, whatever happens in
between, both show the same halt or verdict, the same result after every poll, and the same world, in
which all that was dispatched and registered is found.  A tagged schedule is the very program that
schedules the tagged command and tags the action that reports the handle, so that the tasks that fire
are the same.  Simulated, they give the same actions for every tree. -/
theorem tagged_distributes :
    (∀ {count : Nat} (cmds : Fin count → Cmd S Action child) (sequence batch : Bool),
      let whole := taggedWith (list cmds sequence batch)
        (fun args action => pure (tagger args action)) args
      let parts := list (fun index =>
        taggedWith (cmds index) (fun args action => pure (tagger args action)) args) sequence batch
      (∀ options dispatch depth turns world,
        Start.seen dispatch depth turns (whole.execute options) world =
          Start.seen dispatch depth turns (parts.execute options) world) ∧
      ∀ tree, whole.simulate tree = parts.simulate tree) ∧
    ∀ (nested : Cmd S Action child) (delay : Duration) (repeating : Bool)
      (onScheduled : Option (TimerHandle → Noted (Action child))),
      let whole := taggedWith (scheduled nested delay repeating onScheduled)
        (fun args action => pure (tagger args action)) args
      let parts := scheduled (taggedWith nested (fun args action => pure (tagger args action)) args)
        delay repeating (onScheduled.map fun creator handle => tagger args <$> creator handle)
      (∀ options, whole.execute options = parts.execute options) ∧
      ∀ tree, whole.simulate tree = parts.simulate tree := by
  constructor
  · intro count cmds sequence batch
    constructor
    · intro options dispatch depth turns world
      exact seen_tagged_list tagger args options cmds sequence batch dispatch depth turns world
    · intro tree
      exact simulate_tagged_list tagger args tree cmds sequence batch
  · intro nested delay repeating onScheduled
    constructor
    · intro options
      exact execute_tagged_scheduled tagger args options nested delay repeating onScheduled
    · intro tree
      exact simulate_tagged_scheduled tagger args tree nested delay repeating onScheduled

end Cmd

end EffectLoop
