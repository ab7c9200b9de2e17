import Mathlib.Data.List.Indexes
import EffectLoop.Proofs.Command.Calls
import EffectLoop.Proofs.Command.Flattening

/-!
# Nested lists

A list may have another one with the same flags among its elements.  The elements of the inner list can
as well stand in its place (`Cmd.flatten_completes`): in a context that answers dispatches at once, lists
of ready commands are over after one poll either way, with the same outcome and in the same world.  So
all effects are the same, and come in the same order.

To see that this includes the calls of the functions and the dispatches, let the functions announce their
sites, and let the context note the actions: the notes are the same as well.  A function of the nested
list announces the site that it has when the inner list is spliced (`Site.spliced`).
-/

namespace EffectLoop

variable {S ι : Type} {Action : ι → Type} {A α β : Type} {alphabet : ι}

/-! ## Lists of commands -/

namespace Cmd

/-- Every list command is the list over its elements. -/
theorem list_eq_ofList {count : Nat} (cmds : Fin count → Cmd S Action alphabet) (sequence batch : Bool) :
    .list cmds sequence batch = ofList (List.ofFn cmds) sequence batch := by
  have same : (⟨_, (List.ofFn cmds).get⟩ : Σ size, Fin size → Cmd S Action alphabet) = ⟨count, cmds⟩ :=
    List.equivSigmaTuple.right_inv ⟨count, cmds⟩
  exact congrArg (fun family => Cmd.list family.2 sequence batch) same.symm

theorem execute_ofList (options : Options) (cmds : List (Cmd S Action alphabet)) (sequence batch : Bool) :
    (ofList cmds sequence batch).execute options =
      if sequence then startInOrder batch (cmds.map (execute options))
      else startTogether batch (cmds.map (execute options)) := by
  rw [ofList, execute_list, ← map_eq_ofFn_get]

theorem ready_ofList {cmds : List (Cmd S Action alphabet)} (sequence batch : Bool)
    (ready : ∀ cmd ∈ cmds, cmd.Ready) : (ofList cmds sequence batch).Ready :=
  fun index => ready _ (cmds.get_mem index)

/-- A list with another one among its elements that has the same flags. -/
def enclosing (before inner after : List (Cmd S Action alphabet)) (sequence batch : Bool) :
    Cmd S Action alphabet :=
  ofList (before ++ ofList inner sequence batch :: after) sequence batch

/-- The list with the elements of the inner list in its place. -/
def spliced (before inner after : List (Cmd S Action alphabet)) (sequence batch : Bool) :
    Cmd S Action alphabet :=
  ofList (before ++ inner ++ after) sequence batch

section Flattening

variable {before inner after : List (Cmd S Action alphabet)} (sequence batch : Bool)

theorem ready_enclosing (ready : ∀ cmd ∈ before ++ inner ++ after, cmd.Ready) :
    ∀ cmd ∈ before ++ ofList inner sequence batch :: after, cmd.Ready := by
  rw [List.forall_mem_append, List.forall_mem_append] at ready
  rw [List.forall_mem_append, List.forall_mem_cons]
  exact ⟨ready.1.1, ready_ofList sequence batch ready.1.2, ready.2⟩

/-- A nested list goes the same way as the flat one. -/
theorem straight_enclosing (reply : Action alphabet → Except CmdFailure Unit) (options : Options)
    (ready : ∀ cmd ∈ before ++ inner ++ after, cmd.Ready) :
    Start.straight reply ((enclosing before inner after sequence batch).execute options) =
      Start.straight reply ((spliced before inner after sequence batch).execute options) := by
  have each (cmds : List (Cmd S Action alphabet)) (among : ∀ cmd ∈ cmds, cmd.Ready) :
      ∀ start ∈ cmds.map (execute options), start.Within .lax Verdict.Unhindered := by
    intro start listed
    obtain ⟨cmd, member, rfl⟩ := List.mem_map.1 listed
    exact (among cmd member).within_execute options
  have flat := each _ ready
  have whole := each _ (ready_enclosing sequence batch ready)
  have elements := each inner fun cmd member => ready cmd (by simp [member])
  simp only [enclosing, spliced, List.map_append, List.map_cons, execute_ofList] at flat whole ⊢
  cases sequence with
  | true =>
      simp only [if_true] at whole ⊢
      rw [Start.straight_startInOrder reply whole, Start.straight_startInOrder reply flat,
        Start.inOrder_flatten reply elements]
  | false =>
      simp only [Bool.false_eq_true, if_false] at whole ⊢
      rw [Start.straight_startTogether reply whole, Start.straight_startTogether reply flat,
        Start.together_flatten reply elements]

variable {dispatch : Dispatcher S Action (Action alphabet)}
variable {reply : Action alphabet → Except CmdFailure Unit}
variable {effect : Action alphabet → Run S Action (Action alphabet) Unit}

/-- Driven from this world, both commands are over, with the same result and in the same world. -/
def CompleteAlike (dispatch : Dispatcher S Action (Action alphabet)) (options : Options)
    (world : World S Action (Action alphabet)) (first second : Cmd S Action alphabet) : Prop :=
  ∃ result left, first.Completes dispatch options world result left ∧
    second.Completes dispatch options world result left

theorem completeAlike_enclosing (answers : dispatch.AnswersAtOnce reply effect) (options : Options)
    (ready : ∀ cmd ∈ before ++ inner ++ after, cmd.Ready) {world : World S Action (Action alphabet)}
    (gates : world.GatesBelow world.nextTicket) :
    CompleteAlike dispatch options world (enclosing before inner after sequence batch)
      (spliced before inner after sequence batch) := by
  have nested := ready_ofList sequence batch (ready_enclosing sequence batch ready)
  have completes := (ready_ofList sequence batch ready).completes options answers gates
  rw [← spliced, ← straight_enclosing sequence batch reply options ready] at completes
  exact ⟨_, _, nested.completes options answers gates, completes⟩

end Flattening

end Cmd

/-! ## Announcing calls -/

/-- The site that a RUN of a nested list has in the flat one, if the inner list is at this place and has
`count` elements. -/
def Site.spliced (place count : Nat) : Site → Site
  | [] => []
  | outer :: rest =>
      if outer.index < place then outer :: rest
      else if outer.index = place then
        rest.modifyHead fun inner => { inner with index := place + inner.index }
      else { outer with index := outer.index - 1 + count } :: rest

/-- A computation keeps what is known of its results when its notes are quoted. -/
theorem Prompt.Within.quote {program : Prompt S Action A α} {post : α → Prop} {image : α → β}
    {quoted : β → Prop} (within : program.Within .lax post)
    (holds : ∀ value, post value → quoted (image value)) : (program.quote image).Within .lax quoted := by
  induction program with
  | done value => exact holds value within
  | call effect next ih => exact ⟨trivial, fun reply => ih _ (within.2 _)⟩
  | send action keep next ih => exact ih within
  | schedule delay repeating task next ih =>
      exact ⟨Pending.within_lax _, fun handle => ih handle (within.2 handle)⟩
  | spawn task next ih => exact ⟨Pending.within_lax _, ih within.2⟩

namespace Cmd

theorem Ready.announced {cmd : Cmd S Action alphabet} (ready : cmd.Ready) (name : Site → Site) :
    (cmd.announced name).Ready := by
  induction cmd generalizing name with
  | none | action | scheduled => exact trivial
  | run spec =>
      refine ⟨trivial, fun _ => Prompt.Within.quote ready ?_⟩
      rintro _ ⟨outcome, rfl⟩
      exact ⟨outcome, rfl⟩
  | list cmds sequence batch ih => exact fun index => ih index (ready index) _
  | map nested tagger args ih => exact ih ready name

section Places

variable (name : Site → Site) (sequence : Bool) (start : Nat)

/-- The elements of a list announce themselves under their places, counted from `start` on. -/
def announcedFrom (cmds : List (Cmd S Action alphabet)) : List (Cmd S Action alphabet) :=
  cmds.mapIdx fun index cmd => cmd.announced fun site => name (⟨sequence, start + index⟩ :: site)

theorem announcedFrom_append (first second : List (Cmd S Action alphabet)) :
    announcedFrom name sequence start (first ++ second) =
      announcedFrom name sequence start first ++
        announcedFrom name sequence (start + first.length) second := by
  have place (index : Nat) : start + (index + first.length) = start + first.length + index := by omega
  simp only [announcedFrom, List.mapIdx_append, place]

theorem announcedFrom_cons (first : Cmd S Action alphabet) (rest : List (Cmd S Action alphabet)) :
    announcedFrom name sequence start (first :: rest) =
      (first.announced fun site => name (⟨sequence, start⟩ :: site)) ::
        announcedFrom name sequence (start + 1) rest :=
  announcedFrom_append name sequence start [first] rest

variable {name sequence start}

/-- Only the names of these places matter. -/
theorem announcedFrom_congr {other : Site → Site} {place : Nat} {cmds : List (Cmd S Action alphabet)}
    (same : ∀ index < cmds.length, ∀ site,
      name (⟨sequence, start + index⟩ :: site) = other (⟨sequence, place + index⟩ :: site)) :
    announcedFrom name sequence start cmds = announcedFrom other sequence place cmds := by
  apply List.mapIdx_eq_mapIdx_iff.2
  intro index inside
  rw [funext (same index inside)]

end Places

theorem announced_ofList (name : Site → Site) (cmds : List (Cmd S Action alphabet))
    (sequence batch : Bool) : (ofList cmds sequence batch).announced name =
      ofList (announcedFrom name sequence 0 cmds) sequence batch := by
  rw [ofList, announced, list_eq_ofList, announcedFrom, List.mapIdx_eq_ofFn]
  simp only [Nat.zero_add]

theorem ready_announcedFrom {name : Site → Site} {sequence : Bool} {start : Nat}
    {cmds : List (Cmd S Action alphabet)} (ready : ∀ cmd ∈ cmds, cmd.Ready) :
    ∀ cmd ∈ announcedFrom name sequence start cmds, cmd.Ready := by
  intro cmd member
  obtain ⟨index, inside, rfl⟩ := List.mem_mapIdx.1 member
  exact (ready _ (List.getElem_mem inside)).announced _

section Splicing

variable (before inner after : List (Cmd S Action alphabet)) (sequence batch : Bool)

/-- The elements of a nested list announce themselves as those of the flat one do. -/
theorem announced_enclosing : (enclosing before inner after sequence batch).announced
      (Site.spliced before.length inner.length) =
    enclosing (announcedFrom id sequence 0 before) (announcedFrom id sequence before.length inner)
      (announcedFrom id sequence (before.length + inner.length) after) sequence batch := by
  have early : announcedFrom (Site.spliced before.length inner.length) sequence 0 before =
      announcedFrom id sequence 0 before := by
    apply announcedFrom_congr
    intro index inside site
    simp [Site.spliced, inside]
  have inside : announcedFrom
      (fun site => Site.spliced before.length inner.length (⟨sequence, before.length⟩ :: site))
        sequence 0 inner = announcedFrom id sequence before.length inner := by
    apply announcedFrom_congr
    intro index _ site
    simp [Site.spliced]
  have late : announcedFrom (Site.spliced before.length inner.length) sequence (before.length + 1) after =
      announcedFrom id sequence (before.length + inner.length) after := by
    apply announcedFrom_congr
    intro index _ site
    have beyond : ¬ before.length + 1 + index < before.length := by omega
    have other : before.length + 1 + index ≠ before.length := by omega
    have place : before.length + 1 + index - 1 + inner.length =
        before.length + inner.length + index := by omega
    simp only [Site.spliced, beyond, other, place, if_false, id]
  rw [enclosing, announced_ofList, announcedFrom_append, announcedFrom_cons, announced_ofList,
    Nat.zero_add, early, inside, late, enclosing]

theorem announced_spliced : (spliced before inner after sequence batch).announced id =
    spliced (announcedFrom id sequence 0 before) (announcedFrom id sequence before.length inner)
      (announcedFrom id sequence (before.length + inner.length) after) sequence batch := by
  rw [spliced, announced_ofList, announcedFrom_append, announcedFrom_append, List.length_append,
    Nat.zero_add, Nat.zero_add, spliced]

end Splicing

/-! ## Flattening -/

/-- In a context that answers dispatches at once, and in a world in which nothing waits in a join that is
yet to be opened, a nested list of ready commands does what the flat one does: it is over with the same
outcome, in the same world.  It is the same if the functions announce their sites and the context notes
the actions: the same functions are called in the same order, and the same actions are dispatched. -/
theorem flatten_completes {dispatch : Dispatcher S Action (Action alphabet)}
    {reply : Action alphabet → Except CmdFailure Unit}
    {effect : Action alphabet → Run S Action (Action alphabet) Unit}
    (answers : dispatch.AnswersAtOnce reply effect) (options : Options)
    {before inner after : List (Cmd S Action alphabet)} (sequence batch : Bool)
    (ready : ∀ cmd ∈ before ++ inner ++ after, cmd.Ready) {world : World S Action (Action alphabet)}
    (gates : world.GatesBelow world.nextTicket) :
    CompleteAlike dispatch options world (enclosing before inner after sequence batch)
        (spliced before inner after sequence batch) ∧
      CompleteAlike (.noting reply effect) options world
        ((enclosing before inner after sequence batch).announced
          (Site.spliced before.length inner.length))
        ((spliced before inner after sequence batch).announced id) := by
  refine ⟨completeAlike_enclosing sequence batch answers options ready gates, ?_⟩
  rw [announced_enclosing, announced_spliced]
  apply completeAlike_enclosing sequence batch answers.noting options _ gates
  rw [List.forall_mem_append, List.forall_mem_append] at ready ⊢
  exact ⟨⟨ready_announcedFrom ready.1.1, ready_announcedFrom ready.1.2⟩, ready_announcedFrom ready.2⟩

end Cmd

/-! ### A recording host -/

/-- What is answered according to a plan without a gate. -/
def Plan.reply (plan : Plan) : Except CmdFailure Unit :=
  match plan.failure with
  | some cause => .error cause
  | none => .ok ()

/-- A recording host answers at once if its plans name no gate. -/
theorem Host.recording_answersAtOnce (options : Options) {plan : Action alphabet → Plan}
    (ungated : ∀ action, (plan action).gate = none) :
    Dispatcher.AnswersAtOnce (Host.dispatch (recording options plan : Host S Action alphabet))
      (fun action => (plan action).reply) fun action => Run.emit (.dispatched action) where
  unaware action := .emit _
  affords action := fun _ => nofun
  answers := by
    refine ⟨1, fun depth le action => ?_⟩
    obtain ⟨depth, rfl⟩ : ∃ smaller, depth = smaller + 1 := ⟨depth - 1, by omega⟩
    have answered : ((plan action).pending : Settling S Action (Action alphabet)) =
        .done (plan action).reply := by
      rw [Plan.pending, ungated action]
      rfl
    rw [← answered]
    rfl

namespace Cmd

/-- A command that sends a number. -/
def sending (number : Nat) : Cmd Nat (fun _ : Unit => Nat) () := .action number

/-- A RUN that fails when it is called. -/
def failing : Cmd Nat (fun _ : Unit => Nat) () :=
  .run
    { func := fun _ => .done (.ready (.error (.failed .null)))
      args := []
      onSuccess := Option.none
      onFail := Option.none
      forceSync := false }

/-- The plans of a host that refuses the second action. -/
def refusals (action : Nat) : Plan :=
  ⟨Option.none, if action = 2 then some .storeClosed else Option.none⟩

/-- A host that records, and refuses the second action. -/
def refusing : Host Nat (fun _ : Unit => Nat) () := .recording .default refusals

/-- What the host does for an action. -/
def recordOf (action : Nat) : Run Nat (fun _ : Unit => Nat) Nat Unit := Run.emit (.dispatched action)

/-- A list in order, in which the second action is refused, completes alike in either form. -/
theorem refused_flatten :
    Dispatcher.AnswersAtOnce refusing.dispatch (fun action => (refusals action).reply) recordOf ∧
      (∀ cmd ∈ [sending 1] ++ [sending 2, failing] ++ [sending 3], cmd.Ready) ∧
      idle.GatesBelow idle.nextTicket ∧
      CompleteAlike refusing.dispatch .default idle
        (enclosing [sending 1] [sending 2, failing] [sending 3] true false)
        (spliced [sending 1] [sending 2, failing] [sending 3] true false) ∧
      CompleteAlike (.noting (fun action => (refusals action).reply) recordOf) .default idle
        ((enclosing [sending 1] [sending 2, failing] [sending 3] true false).announced (Site.spliced 1 2))
        ((spliced [sending 1] [sending 2, failing] [sending 3] true false).announced id) := by
  have answers : Dispatcher.AnswersAtOnce refusing.dispatch (fun action => (refusals action).reply)
      recordOf := Host.recording_answersAtOnce .default fun _ => rfl
  have ready : ∀ cmd ∈ [sending 1] ++ [sending 2, failing] ++ [sending 3], cmd.Ready := by
    simp only [List.cons_append, List.nil_append, List.forall_mem_cons]
    exact ⟨trivial, trivial, ⟨_, rfl⟩, trivial, nofun⟩
  have gates : idle.GatesBelow idle.nextTicket := World.gatesBelow_initial _ _ _
  exact ⟨answers, ready, gates, flatten_completes answers .default true false ready gates⟩

end Cmd

end EffectLoop
