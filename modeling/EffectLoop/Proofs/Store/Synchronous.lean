import EffectLoop.Proofs.Store.Staging
import EffectLoop.Proofs.Store.Work
import Mathlib.Tactic.FinCases

/-!
# Immediate commands on a store

An immediate command on a store whose reducer answers with bare states is over after one poll.  Whatever
flags its lists carry, as long as all carry the same, the actions are reduced that the simulation of the
outcomes gives, in that order.

The outcomes themselves may depend on the flags: a function that reads the state may be called before or
after the actions of the commands in front of it are reduced.
-/

namespace EffectLoop

variable {S ι : Type} {Action : ι → Type} {alphabet child : ι}

namespace Cmd

/-- What the commands of a list give one after the other is what the list gives. -/
theorem gives_of_concat {tag : Action child → Noted (Action alphabet)} {count : Nat}
    {cmds : Fin count → Cmd S Action child} {calls : List (Call S Action (Action alphabet))}
    {all : List (Action child)}
    (given : Stage.Course.concat (List.ofFn fun index => (cmds index).Gives tag) calls all)
    (sequence batch : Bool) : (Cmd.list cmds sequence batch).Gives tag calls all := by
  rcases given with ⟨given, portioned, rfl⟩
  rcases portioned.of_ofFn with ⟨stretches, found, rfl, rfl, each⟩
  exact .list each sequence batch

/-- What the commands of a list give when they are started, the list gives, whatever its flags are. -/
theorem starts_list (options : Options) {stage : Stage S Action alphabet child} {count need : Nat}
    {cmds : Fin count → Cmd S Action child} (positive : 0 < need)
    (each : ∀ index, stage.Starts need ((cmds index).Gives stage.tag)
      (((cmds index).flagged stage.sequence stage.batch).execute options))
    (bare : ∀ index, stage.Bare ((cmds index).Gives stage.tag)) (sequence batch : Bool) :
    stage.Starts (need + 1) ((Cmd.list cmds sequence batch).Gives stage.tag)
      (((Cmd.list cmds sequence batch).flagged stage.sequence stage.batch).execute options) := by
  have bareAll : ∀ course ∈ List.ofFn fun index => (cmds index).Gives stage.tag, stage.Bare course := by
    intro course among
    rcases List.mem_ofFn.1 among with ⟨index, rfl⟩
    exact bare index
  have gives (calls all) (given : Stage.Course.concat
      (List.ofFn fun index => (cmds index).Gives stage.tag) calls all) :
      (Cmd.list cmds sequence batch).Gives stage.tag calls all := gives_of_concat given sequence batch
  rw [flagged, execute_list]
  split
  next inOrder =>
      exact (Stage.starts_inOrder positive (forall₂_ofFn each) bareAll inOrder).mono (Nat.le_succ _) gives
  next parallel =>
      exact (Stage.starts_together positive (forall₂_ofFn each) bareAll
        (Bool.eq_false_iff.2 parallel)).mono le_rfl gives

/-- Started on a stage, an immediate command gives what its simulation gives. -/
theorem starts_execute [Nonempty S] (options : Options) {cmd : Cmd S Action child}
    (immediate : cmd.Immediate) {stage : Stage S Action alphabet child}
    (listed : ∀ function, cmd.Calls stage.tag function → stage.functions function)
    (bare : stage.Bare (cmd.Gives stage.tag)) :
    stage.Starts (cmd.nesting + 1) (cmd.Gives stage.tag)
      ((cmd.flagged stage.sequence stage.batch).execute options) := by
  induction cmd with
  | none => exact fun _ => .pure ⟨rfl, .many [], .none _, rfl⟩
  | action sent => exact fun _ => .pure ⟨rfl, Stage.follows_now ⟨.many [], .action _ sent, rfl⟩⟩
  | run spec => exact Stage.starts_run options immediate (listed _ rfl) _
  | list cmds sequence batch ih =>
      let deepest := Finset.univ.sup fun index => (cmds index).nesting
      have bareEach (index) : stage.Bare ((cmds index).Gives stage.tag) := by
        intro calls all gives action inside
        rcases Gives.exists_list immediate gives with ⟨others, whole, givesAll, subset⟩
        exact bare others whole givesAll action (subset inside)
      have each (index) : stage.Starts (deepest + 1) ((cmds index).Gives stage.tag)
          (((cmds index).flagged stage.sequence stage.batch).execute options) := by
        have starts := ih index (immediate index)
          (fun function calls => listed function ⟨index, calls⟩) (bareEach index)
        have le : (cmds index).nesting ≤ deepest :=
          Finset.sup_le_iff.1 (le_refl deepest) index (Finset.mem_univ index)
        exact starts.mono (Nat.succ_le_succ le) fun _ _ => id
      exact starts_list options (Nat.succ_pos deepest) each bareEach sequence batch
  | map nested tagger args ih =>
      have bareNested : (stage.tagged (tagger args)).Bare
          (nested.Gives (stage.tagged (tagger args)).tag) := by
        intro calls all gives action inside
        exact bare calls _ (.map gives) _ (List.mem_map_of_mem inside)
      rw [flagged, execute_map]
      apply (Stage.Starts.tagged (ih immediate listed bareNested)).mono le_rfl
      intro calls all holds
      rcases holds with ⟨found, gives, rfl⟩
      exact .map gives
  | scheduled => exact immediate.elim

end Cmd

namespace Store

variable (store : Store S Action alphabet)

/-- Start a command of the store, and poll what follows once. -/
def drive (depth : Nat) (waiter : Waiter) (cmd : Cmd S Action alphabet) :
    Run S Action (Action alphabet) (Settling S Action (Action alphabet)) := do
  let caused ← store.launch ((Host.store store).engine depth) cmd
  caused.poll ((Host.store store).engine depth) waiter

/-- What an immediate command has done, when its functions had the outcomes that the tree holds: exactly
the actions that its simulation gives for the tree were told and reduced, in that order, between calls of
its functions. -/
structure Reduces (cmd : Cmd S Action alphabet) (tree : Simulation)
    (before after : World S Action (Action alphabet)) : Prop where
  threaded : ∃ calls, cmd.Unfolds pure calls tree ∧
    store.Thread calls (cmd.simulate (some tree)).value.toList before after
  observed : ∃ recent, after.trace = recent ++ before.trace ∧
    told recent = (cmd.simulate (some tree)).value.toList
  state : after.state =
    (cmd.simulate (some tree)).value.toList.foldl store.reducer.model before.state

variable {store}

/-- What a command leaves pending is done by one poll. -/
theorem finishes_settle {stage : Stage S Action alphabet child} {need depth : Nat} (positive : 0 < need)
    (enough : need ≤ depth) {course : Stage.Course S Action alphabet child} (bare : stage.Bare course)
    {calls : List (Call S Action (Action alphabet))} {verdict : Verdict S Action (Action child) child}
    (answers : stage.Answers need course calls verdict) :
    stage.store.Finishes stage.functions depth (Pending.retag stage.tag verdict.settle)
      fun more actions value => value = .ok () ∧
        ∃ all, course (calls ++ more) all ∧ actions = all.map stage.image := by
  rcases verdict with cause | _ | follow
  · exact answers.elim
  · refine .done ⟨rfl, [], ?_, rfl⟩
    rw [List.append_nil]
    exact answers
  · obtain ⟨depth, rfl⟩ : ∃ smaller, depth = smaller + 1 := ⟨depth - 1, by omega⟩
    rw [Verdict.settle, FollowUp.settle, Pending.retag_bind]
    apply (answers (depth + 1) enough).bind
    intro more actions result holds
    rcases holds with ⟨given, whole, -, -⟩
    apply Stage.finishes_sendProduced (bare _ _ given) whole
    apply Finishes.done
    rw [List.append_nil, List.append_nil, whole]
    exact ⟨rfl, _, given, rfl⟩

/-- The same for a command of the store itself, whose actions are not tagged. -/
theorem finishes_settle_untagged {stage : Stage S Action alphabet alphabet} (untagged : stage.tag = pure)
    {need depth : Nat} (positive : 0 < need) (enough : need ≤ depth)
    {course : Stage.Course S Action alphabet alphabet} (bare : stage.Bare course)
    {calls : List (Call S Action (Action alphabet))} {verdict : Verdict S Action (Action alphabet) alphabet}
    (answers : stage.Answers need course calls verdict) :
    stage.store.Finishes stage.functions depth verdict.settle fun more actions value =>
      value = .ok () ∧ course (calls ++ more) actions := by
  have image (actions : List (Action alphabet)) : actions.map stage.image = actions := by
    unfold Stage.image
    rw [untagged]
    exact List.map_id actions
  have finishes := finishes_settle positive enough bare answers
  rw [untagged, Pending.retag_pure] at finishes
  apply finishes.mono
  intro more actions value holds
  rcases holds with ⟨settled, all, given, rfl⟩
  rw [image]
  exact ⟨settled, given⟩

theorem does_observe (seen : Cmd.Kind) {functions : Callee S Action (Action alphabet) → Prop} :
    store.Does functions (store.observe (.effect seen)) fun calls actions _ =>
      calls = [] ∧ actions = [] := by
  let heard : List (Event S (Action alphabet)) :=
    ((store.observer (.effect seen)).map Event.delivered).reverse ++ [.observed (.effect seen)]
  have answered (world : World S Action (Action alphabet)) : store.observe (.effect seen) world =
      (.ok (), { world with trace := heard ++ world.trace }) := by
    rw [observe_eq, List.append_assoc]
    rfl
  refine .idle (fun _ => heard) answered (fun _ => ?_) ⟨rfl, rfl⟩
  rw [told_append, told_deliveries]
  rfl

/-- What the start of an immediate command has left to do is done by one poll. -/
theorem launch_does [Nonempty S] {cmd : Cmd S Action alphabet} (immediate : cmd.Immediate)
    (bare : ∀ calls actions, cmd.Gives pure calls actions → ∀ action ∈ actions, store.Bare action)
    (sequence batch : Bool) {depth : Nat} (enough : cmd.nesting + 1 ≤ depth) :
    store.Does (cmd.Calls pure)
      (store.launch ((Host.store store).engine depth) (cmd.flagged sequence batch))
      fun calls actions caused => actions = [] ∧
        store.Finishes (cmd.Calls pure) depth caused fun more others value =>
          value = .ok () ∧ cmd.Gives pure (calls ++ more) others := by
  let stage : Stage S Action alphabet alphabet := ⟨store, cmd.Calls pure, pure, sequence, batch⟩
  have bareStage : stage.Bare (cmd.Gives pure) := bare
  have starts : stage.Starts (cmd.nesting + 1) (cmd.Gives pure)
      ((cmd.flagged sequence batch).execute store.options) :=
    Cmd.starts_execute store.options immediate (fun _ => id) bareStage
  rw [launch]
  split
  next none =>
      cases cmd with
      | none => exact .pure ⟨rfl, .done ⟨rfl, .many [], .none _, rfl⟩⟩
      | _ => cases none
  next some =>
      apply (does_observe _).bind
      intro calls actions reply holds
      rcases holds with ⟨rfl, rfl⟩
      have begun := starts depth
      rw [Prompt.retag_pure] at begun
      apply begun.bind
      intro calls actions verdict holds
      rcases holds with ⟨rfl, answers⟩
      have settles := finishes_settle_untagged rfl (Nat.succ_pos _) enough bareStage answers
      rw [← List.append_nil calls] at settles
      rcases verdict with cause | _ | follow
      · exact answers.elim
      · exact .pure ⟨rfl, settles⟩
      · exact .pure ⟨rfl, settles⟩

/-- Driven to its end, the command gives what its simulation gives. -/
theorem drive_does [Nonempty S] {cmd : Cmd S Action alphabet} (immediate : cmd.Immediate)
    (bare : ∀ calls actions, cmd.Gives pure calls actions → ∀ action ∈ actions, store.Bare action)
    (sequence batch : Bool) {depth : Nat} (enough : cmd.nesting + 1 ≤ depth) (waiter : Waiter) :
    store.Does (cmd.Calls pure) (store.drive depth waiter (cmd.flagged sequence batch))
      fun calls actions left => left = .done (.ok ()) ∧ cmd.Gives pure calls actions := by
  apply (launch_does immediate bare sequence batch enough).bind
  intro calls actions caused holds
  rcases holds with ⟨rfl, finishes⟩
  apply (finishes.polled waiter).mono
  intro more others left holds
  rcases holds with ⟨value, rfl, rfl, gives⟩
  exact ⟨rfl, gives⟩

/-- What a command gives along a thread does not depend on the flags of its lists. -/
theorem reduces_flagged {cmd : Cmd S Action alphabet} {calls : List (Call S Action (Action alphabet))}
    {tree : Simulation} {before after : World S Action (Action alphabet)}
    (unfolds : cmd.Unfolds pure calls tree)
    (thread : store.Thread calls (cmd.simulate (some tree)).value.toList before after)
    (sequence batch : Bool) : store.Reduces (cmd.flagged sequence batch) tree before after := by
  have same := cmd.simulate_flagged sequence batch (some tree)
  rcases thread.replays with ⟨-, state, observed⟩
  refine ⟨⟨calls, unfolds.flagged sequence batch, ?_⟩, ?_, ?_⟩
  · rw [same]
    exact thread
  · rw [same]
    exact observed
  · rw [same]
    exact state

/-- On an open store whose reducer answers the actions of an immediate command with bare states, one poll
drives the command to its end, if all of its lists carry the same flags, whichever they are.  It reduces
what the simulation of the outcomes gives, unless one of the functions halts.  So the state is the same
for all flags under which the outcomes are the same. -/
theorem drive_reduces_simulation {cmd : Cmd S Action alphabet} (immediate : cmd.Immediate)
    (bare : ∀ calls actions, cmd.Gives pure calls actions → ∀ action ∈ actions, store.Bare action)
    {depth : Nat} (enough : cmd.nesting + 1 ≤ depth) (waiter : Waiter)
    {world : World S Action (Action alphabet)} (isOpen : world.isOpen) :
    (∀ sequence batch,
      (∃ tree later, store.drive depth waiter (cmd.flagged sequence batch) world =
          (.ok (.done (.ok ())), later) ∧
        store.Reduces (cmd.flagged sequence batch) tree world later) ∨
      ∃ halt later, store.drive depth waiter (cmd.flagged sequence batch) world =
          (.error halt, later) ∧
        store.Breaks (cmd.Calls pure) world halt later) ∧
    ∀ sequence batch inOrder batched tree left right,
      store.Reduces (cmd.flagged sequence batch) tree world left →
        store.Reduces (cmd.flagged inOrder batched) tree world right → left.state = right.state := by
  have : Nonempty S := ⟨world.state⟩
  constructor
  · intro sequence batch
    cases drive_does immediate bare sequence batch enough waiter world isOpen _ le_rfl with
    | answers answered thread _ holds =>
        rcases holds with ⟨rfl, tree, unfolds, rfl⟩
        exact .inl ⟨tree, _, answered, reduces_flagged unfolds thread sequence batch⟩
    | halts halted breaks => exact .inr ⟨_, _, halted, breaks⟩
  · intro sequence batch inOrder batched tree left right first second
    rw [first.state, second.state, Cmd.simulate_flagged, Cmd.simulate_flagged]

/-! ## A function that reads the state -/

/-- A store that adds up numbers. -/
def summing : Store Nat (fun _ : Unit => Nat) () where
  reducer state action := pure (.ok (.model (state + action)))
  options := .default
  observer := .silent

/-- One, and ten or twenty, as the state is zero or not when the function reads it. -/
def glancing : Cmd Nat (fun _ : Unit => Nat) () :=
  .ofList [.action 1, .run {
    func _ := .call .readState fun state => .done (.ready (.ok (.bool (state == 0))))
    args := []
    onSuccess := some fun
      | .bool true => pure 10
      | _ => pure 20
    onFail := none
    forceSync := false }] false false

theorem glancing_immediate : glancing.Immediate := by
  intro index
  fin_cases index
  · trivial
  · intro state
    exact ⟨.ok (.bool (state == 0)), rfl, rfl, nofun⟩

theorem summing_bare (action : Nat) : summing.Bare action :=
  fun state => ⟨state + action, rfl⟩

/-- A world in which the sum is zero. -/
def blank : World Nat (fun _ : Unit => Nat) Nat := .initial 0 (.virtual .initial) (.int 0)

/-- Reading the state does not halt. -/
theorem glancing_never_breaks {world later : World Nat (fun _ : Unit => Nat) Nat} {halt : Halt} :
    ¬summing.Breaks (glancing.Calls pure) world halt later := by
  intro breaks
  rcases breaks with ⟨calls, actions, middle, function, -, ⟨index, listed⟩, halted⟩
  fin_cases index
  · exact listed.elim
  · cases listed
    cases halted

theorem glancing_nesting : glancing.nesting + 1 ≤ 2 := by decide +kernel

/-- In sequence the function is called after the one was added. -/
theorem drive_reduces_simulation_summing :
    ∃ tree later, summing.drive 2 ⟨0, []⟩ (glancing.flagged true false) blank =
        (.ok (.done (.ok ())), later) ∧
      summing.Reduces (glancing.flagged true false) tree blank later := by
  have isOpen : blank.isOpen := rfl
  rcases (drive_reduces_simulation glancing_immediate (fun _ _ _ action _ => summing_bare action)
    glancing_nesting ⟨0, []⟩ isOpen).1 true false with ended | ⟨halt, later, -, breaks⟩
  · exact ended
  · exact absurd breaks glancing_never_breaks

theorem glancing_ends (sequence batch : Bool) :
    summing.drive 2 ⟨0, []⟩ (glancing.flagged sequence batch) blank =
      (.ok (.done (.ok ())), (summing.drive 2 ⟨0, []⟩ (glancing.flagged sequence batch) blank).2) := by
  cases drive_does glancing_immediate (fun _ _ _ action _ => summing_bare action) sequence batch
    glancing_nesting ⟨0, []⟩ blank rfl _ le_rfl with
  | answers answered _ _ holds => rw [answered, holds.1]
  | halts _ breaks => exact absurd breaks glancing_never_breaks

/-- The same command on the same store comes to different sums: the function is called before the one is
added, or after. -/
theorem glancing_depends_on_flags :
    glancing.Immediate ∧ (∀ action, summing.Bare action) ∧
      (∃ later, summing.drive 2 ⟨0, []⟩ (glancing.flagged false false) blank =
        (.ok (.done (.ok ())), later) ∧ later.state = 11) ∧
      ∃ later, summing.drive 2 ⟨0, []⟩ (glancing.flagged true false) blank =
        (.ok (.done (.ok ())), later) ∧ later.state = 21 := by
  refine ⟨glancing_immediate, summing_bare, ?parallel, ?sequential⟩
  case parallel => exact ⟨_, glancing_ends false false, by decide +kernel⟩
  case sequential => exact ⟨_, glancing_ends true false, by decide +kernel⟩

end Store

end EffectLoop
