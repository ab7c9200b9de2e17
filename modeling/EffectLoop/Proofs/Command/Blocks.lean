import EffectLoop.Proofs.Command.Siblings
import EffectLoop.Proofs.World.Preservation

/-!
# Blocks of dispatched actions

Without `batch`, a parallel list dispatches the actions of each of its commands as soon as it learns
them.  If nothing else dispatches meanwhile, the record of what was dispatched consists of whole blocks,
one for each command that has given actions, in the order in which the list has learnt of them
(`Cmd.parallel_dispatches_blocks`).

The record is that of a context which records: it notes each action that is dispatched, and answers with
any future that does not dispatch by itself.
-/

namespace EffectLoop

variable {S ι : Type} {Action : ι → Type} {A : Type} {answer : Answer ι} {alphabet : ι} {count : Nat}

/-! ## The record -/

/-- The action of a record entry. -/
def Event.recorded? : Event S A → Option A
  | .dispatched action => some action
  | _ => none

/-- The actions that were recorded, the first one first. -/
def World.record (world : World S Action A) : List A := world.trace.reverse.filterMap Event.recorded?

/-- Nothing was recorded in between. -/
abbrev World.SameRecording (before after : World S Action A) : Prop := after.record = before.record

namespace World

theorem record_emit (world : World S Action A) (event : Event S A) :
    (world.emit event).record = world.record ++ event.recorded?.toList := by
  cases recorded : event.recorded? <;> simp [record, emit, recorded]

theorem tolerant_sameRecording :
    Tolerant (SameRecording : World S Action A → World S Action A → Prop) where
  refl _ := rfl
  trans first second := second.trans first
  sameFront same := by rw [SameRecording, record, record, same.2.1]
  note world value := by simp [SameRecording, record_emit, Event.recorded?]
  log world entry := by simp [SameRecording, record_emit, Event.recorded?]

theorem Booked.sameRecording {before after : World S Action A} (books : Booked before after) :
    SameRecording before after := by
  induction books with
  | refl => rfl
  | tail _ booking ih =>
      cases booking with
      | rallies => exact ih
      | woken => exact ih

end World

/-! ## Computations that do not dispatch -/

namespace Pending

/-- However the computation is driven, and in whatever worlds, no poll of it dispatches anything. -/
structure Reticent (dispatch : Dispatcher S Action A) (program : Pending S Action A answer) : Prop where
  polled : ∀ {world now later : World S Action A} {left rest : Pending S Action A answer} {depth waiter},
    Driven dispatch (fun _ _ => True) (program, world) (left, now) →
    left.poll (.ofDispatch dispatch depth) waiter now = (.ok rest, later) → now.SameRecording later

namespace Reticent

variable {dispatch : Dispatcher S Action A} {program : Pending S Action A answer}

/-- What a poll leaves does not dispatch either. -/
theorem poll (reticent : program.Reticent dispatch) (world : World S Action A) (depth : Nat)
    (waiter : Waiter) :
    (program.poll (.ofDispatch dispatch depth) waiter).Leads world fun left later =>
      left.Reticent dispatch ∧ world.SameRecording later := by
  constructor
  intro left later answered
  constructor
  · constructor
    intro start now later left rest depth waiter driven polled
    exact reticent.polled (.head (.poll _ _ answered) (.head (.meanwhile _ trivial) driven)) polled
  · exact reticent.polled .refl answered

/-- A computation does not dispatch if no poll of it does and, unless it waits on, what a poll leaves does
not dispatch. -/
theorem of_poll
    (polled : ∀ world depth waiter, (program.poll (.ofDispatch dispatch depth) waiter).Leads world
      fun left later => (left = program ∨ left.Reticent dispatch) ∧ world.SameRecording later) :
    program.Reticent dispatch := by
  have every (left world depth waiter) (now : left = program ∨ left.Reticent dispatch) :
      (left.poll (.ofDispatch dispatch depth) waiter).Leads world fun rest later =>
        (rest = program ∨ rest.Reticent dispatch) ∧ world.SameRecording later := by
    rcases now with rfl | reticent
    · exact polled world depth waiter
    · exact (reticent.poll world depth waiter).mono fun _ _ ends => ⟨.inr ends.1, ends.2⟩
  constructor
  intro world now later left rest depth waiter driven answered
  let good (left : Pending S Action A answer) (_ : World S Action A) : Prop :=
    left = program ∨ left.Reticent dispatch
  have holds : good left now := by
    apply driven.invariant _ _ (.inl rfl)
    · intro left world depth waiter now
      exact (every left world depth waiter now).mono fun _ _ ends => ends.1
    · exact fun _ _ _ _ now => now
  exact ((every left now depth waiter holds).holds _ _ answered).2

theorem done (value : answer.Value Action) :
    (Pending.done value : Pending S Action A answer).Reticent dispatch :=
  of_poll fun _ _ _ => .pure ⟨.inl rfl, rfl⟩

theorem call {effect : Primitive} {next : effect.Reply S → Pending S Action A answer}
    (nextReticent : ∀ reply, (next reply).Reticent dispatch) :
    (Pending.call effect next).Reticent dispatch := by
  apply of_poll
  intro world depth waiter
  apply (Run.Leads.self _ world).bind
  intro reply middle performed
  have same := Run.perform_keeps World.tolerant_sameRecording effect world
  rw [performed] at same
  apply ((nextReticent reply).poll middle depth waiter).mono
  intro left later ends
  exact ⟨.inr ends.1, ends.2.trans same⟩

theorem wait {gate : String} {next : Pending S Action A answer} (nextReticent : next.Reticent dispatch) :
    (Pending.wait gate next).Reticent dispatch := by
  apply of_poll
  intro world depth waiter
  apply Run.Leads.look
  split
  · exact (nextReticent.poll world depth waiter).mono fun _ _ ends => ⟨.inr ends.1, ends.2⟩
  · apply Run.Leads.update
    exact .pure ⟨.inl rfl, rfl⟩

end Reticent

end Pending

/-! ## Contexts that record -/

/-- Each dispatch that is answered has recorded its action, and nothing else then or later. -/
structure Records (dispatch : Dispatcher S Action A) : Prop where
  dispatched : ∀ {depth action world caused later},
    dispatch (.ofDispatch dispatch depth) action world = (.ok caused, later) →
      later.record = world.record ++ [action] ∧ caused.Reticent dispatch

/-- A recording host records, whatever its plans are. -/
theorem Host.records_recording (options : Options) (plan : Action alphabet → Plan) :
    Records (Host.recording options plan : Host S Action alphabet).dispatch := by
  constructor
  intro depth action world caused later answered
  cases answered
  constructor
  · exact world.record_emit (.dispatched action)
  · rw [Plan.pending]
    cases (plan action).gate with
    | none => exact .done _
    | some gate => exact .wait (.call fun _ => .done _)

namespace Records

variable {dispatch : Dispatcher S Action A} (records : Records dispatch)
include records

theorem start (action : Noted A) (world : World S Action A) (depth : Nat) :
    ((Engine.ofDispatch dispatch depth).start action).Leads world fun caused later =>
      later.record = world.record ++ [action.value] ∧ caused.Reticent dispatch := by
  apply (Run.Leads.self _ world).bind
  intro value middle adopted
  have same := Run.Keeps.adopt World.tolerant_sameRecording action world
  rw [adopted] at same
  cases adopted
  cases depth with
  | zero => exact .throw .exhausted
  | succ depth =>
      constructor
      intro caused later answered
      have recorded := records.dispatched answered
      rwa [same] at recorded

/-- All actions are recorded, in order, whatever the dispatches come to. -/
theorem mapM_start (actions : List (Noted A)) (world : World S Action A) (depth : Nat) :
    (actions.mapM (Engine.ofDispatch dispatch depth).start).Leads world fun caused later =>
      later.record = world.record ++ actions.map (·.value) ∧
        ∀ future ∈ caused, Pending.Reticent dispatch future := by
  induction actions generalizing world with
  | nil => exact .pure (by simp)
  | cons action rest ih =>
      rw [List.mapM_cons]
      apply (records.start action world depth).bind
      intro future middle first
      apply (ih middle).bind
      intro others later following
      apply Run.Leads.pure
      constructor
      · simp [following.1, first.1]
      · exact List.forall_mem_cons.2 ⟨first.2, following.2⟩

end Records

/-! ## What is recorded for a list -/

variable {dispatch : Dispatcher S Action A} {tag : Action alphabet → Noted A}
variable {env : World S Action A → World S Action A → Prop}

/-- The record of the given actions. -/
def recorded {B : Type} (tag : B → Noted A) (actions : List B) : List A :=
  actions.map fun action => (tag action).value

namespace Phase

/-- What the command still waits for does not dispatch. -/
def Reticent (dispatch : Dispatcher S Action A) : Phase S Action A alphabet → Prop
  | awaited follow => Pending.Reticent dispatch follow
  | settling _ caused => ∀ index, (caused index).Reticent dispatch
  | final _ => True

/-- The blocks of actions that were dispatched for a command by the time it stands at a phase. -/
inductive HasSent : Phase S Action A alphabet → List (List (Action alphabet)) → Prop where
  | waits (follow) : HasSent (awaited follow) []
  | settles (actions) {count : Nat} (caused : Fin count → Settling S Action A) :
      HasSent (settling actions caused) [actions]
  | succeeds (actions) : HasSent (final (.ok actions)) [actions]
  /-- Its future has failed. -/
  | fails (cause) : HasSent (final (.error cause)) []
  /-- A dispatch of its actions has failed, or what that has caused. -/
  | breaks (actions) (cause) : HasSent (final (.error cause)) [actions]
  /-- There is nothing to wait for. -/
  | skips : HasSent (final (.ok [])) []

variable {phase left : Phase S Action A alphabet} {world later : World S Action A}
variable {blocks more : List (List (Action alphabet))}

theorem Step.hasSent (step : Step dispatch tag false (phase, world) more (left, later))
    (before : phase.HasSent blocks) : left.HasSent (blocks ++ more) := by
  cases step with
  | waits =>
      cases before
      exact .waits _
  | fails =>
      cases before
      exact .fails _
  | collects depth waiter collecting => cases collecting
  | dispatches =>
      cases before
      exact .settles _ _
  | settles =>
      cases before
      exact .settles _ _
  | @ends actions count caused replies =>
      cases before
      cases firstFailure replies with
      | error cause => exact .breaks _ _
      | ok => exact .succeeds _

/-- A step records just the actions that it dispatches. -/
theorem Step.records (records : Records dispatch)
    (step : Step dispatch tag false (phase, world) blocks (left, later))
    (reticent : phase.Reticent dispatch) :
    left.Reticent dispatch ∧ later.record = world.record ++ blocks.flatMap (recorded tag) := by
  cases step with
  | waits depth waiter polled =>
      have ends := (reticent.poll world depth waiter).holds _ _ polled
      exact ⟨ends.1, by simpa using ends.2⟩
  | fails depth waiter polled =>
      have ends := (reticent.poll world depth waiter).holds _ _ polled
      exact ⟨trivial, by simpa using ends.2⟩
  | collects depth waiter collecting => cases collecting
  | @dispatches follow actions caused world middle later depth inner waiter _ polled started =>
      have ends := (reticent.poll world depth waiter).holds _ _ polled
      have sent := (records.mapM_start (actions.map tag) middle inner).holds _ _ started
      constructor
      · intro index
        exact sent.2 _ (List.get_mem caused index)
      · rw [sent.1, ends.2]
        simp [recorded]
  | @settles actions count caused last _ _ depth waiter index polled =>
      have ends := ((reticent index).poll world depth waiter).holds _ _ polled
      constructor
      · intro other
        by_cases same : other = index
        · subst same
          rw [Function.update_self]
          exact ends.1
        · rw [Function.update_of_ne same]
          exact reticent other
      · simpa using ends.2
  | ends => exact ⟨trivial, by simp⟩

end Phase

namespace Siblings

variable {phases lefts : Fin count → Phase S Action A alphabet}
variable {known more : List (Fin count × List (Action alphabet))} {opened world later : World S Action A}

/-- The blocks that were dispatched for a command. -/
def blocksOf {B : Type} (index : Fin count) (known : List (Fin count × List B)) : List (List B) :=
  (known.filter (·.1 = index)).map (·.2)

/-- What was recorded since the list was started are the given blocks, and each command has sent those
that belong to it. -/
structure Accounts (dispatch : Dispatcher S Action A) (tag : Action alphabet → Noted A)
    (opened : World S Action A) (known : List (Fin count × List (Action alphabet)))
    (phases : Fin count → Phase S Action A alphabet) (world : World S Action A) : Prop where
  reticent : ∀ index, (phases index).Reticent dispatch
  sent : ∀ index, (phases index).HasSent (blocksOf index known)
  record : world.record = opened.record ++ known.flatMap fun block => recorded tag block.2

theorem blocksOf_append_map (index member : Fin count) (blocks : List (List (Action alphabet))) :
    blocksOf index (known ++ blocks.map (member, ·)) =
      blocksOf index known ++ if member = index then blocks else [] := by
  have own : blocksOf index (blocks.map (member, ·)) = if member = index then blocks else [] := by
    by_cases same : member = index <;> simp [blocksOf, List.filter_map, Function.comp_def, same]
  rw [← own]
  simp [blocksOf]

theorem Accounts.step (records : Records dispatch)
    (accounts : Accounts dispatch tag opened known phases world)
    (step : Step dispatch tag false (phases, world) more (lefts, later)) :
    Accounts dispatch tag opened (known ++ more) lefts later := by
  cases step with
  | @one _ left _ blocks _ member taken =>
      have recorded := taken.records records (accounts.reticent member)
      have sent := taken.hasSent (accounts.sent member)
      constructor
      · intro index
        by_cases same : index = member
        · subst same
          rw [Function.update_self]
          exact recorded.1
        · rw [Function.update_of_ne same]
          exact accounts.reticent index
      · intro index
        rw [blocksOf_append_map]
        by_cases same : index = member
        · subst same
          rw [Function.update_self, if_pos rfl]
          exact sent
        · rw [Function.update_of_ne same, if_neg (Ne.symm same), List.append_nil]
          exact accounts.sent index
      · rw [recorded.2, accounts.record, List.append_assoc, List.flatMap_append, List.flatMap_map]

/-- Whatever becomes of the commands, the account goes on. -/
theorem Attends.accounts (records : Records dispatch)
    (quiet : ∀ before after, env before after → before.SameRecording after)
    (attends : Attends dispatch tag false env (phases, opened) known (lefts, later))
    (start : Accounts dispatch tag opened [] phases opened) :
    Accounts dispatch tag opened known lefts later := by
  generalize last : (lefts, later) = now at attends
  induction attends generalizing lefts later with
  | rest =>
      cases last
      exact start
  | @step middle _ _ _ _ taken ih =>
      cases middle
      cases last
      exact (ih rfl).step records taken
  | aside _ changes ih =>
      cases last
      have before := ih rfl
      refine ⟨before.reticent, before.sent, ?_⟩
      rw [← before.record]
      cases changes with
      | acts acts => exact quiet _ _ acts
      | books booking => exact World.Booked.sameRecording (.single booking)

/-- The account of a list whose commands were just started. -/
theorem Accounts.fresh {verdicts : Fin count → Verdict S Action (Action alphabet) alphabet}
    (silent : ∀ index follow, verdicts index = .ok (some follow) →
      (Pending.retag tag follow).Reticent dispatch) (world : World S Action A) :
    Accounts dispatch tag world [] (fun index => .ofVerdict tag (verdicts index)) world := by
  constructor
  · intro index
    rcases verdict : verdicts index with cause | _ | follow
    · exact .done _
    · trivial
    · exact silent index follow verdict
  · intro index
    rcases verdicts index with cause | _ | follow
    · exact .waits _
    · exact .skips
    · exact .waits _
  · exact (List.append_nil _).symm

end Siblings

namespace Cmd

/-- A parallel list that does not batch dispatches in whole blocks.  In a context that records, and if
neither its commands nor the environment dispatch, what is recorded from the call on is one block after
the other, in the order in which the list has learnt the results of its commands.  A command whose future
has given actions has exactly one block, which consists of just these actions; it was dispatched in the
step in which they became known, and as a whole, whatever the dispatches came to.  No command waits for
another one.  A poll of the list visits every command that is still awaited if the list has at most thirty
futures, and at least the one that was woken first if it has more; and a command that is visited takes a
step in this poll wherever the others stand, so it has its block then if its future gives actions. -/
theorem parallel_dispatches_blocks {dispatch : Dispatcher S Action A} (records : Records dispatch)
    (tag : Action alphabet → Noted A) {env : World S Action A → World S Action A → Prop}
    (quiet : ∀ before after, env before after → before.SameRecording after) (options : Options)
    (cmds : Fin count → Cmd S Action alphabet) {depth : Nat} {world opened : World S Action A}
    {verdicts : Fin count → Verdict S Action (Action alphabet) alphabet}
    (started : Siblings.Started dispatch tag depth (List.ofFn fun index => (cmds index).execute options)
      world (List.ofFn verdicts) opened)
    (silent : ∀ index follow, verdicts index = .ok (some follow) →
      (Pending.retag tag follow).Reticent dispatch)
    {follow : FollowUp S Action (Action alphabet) alphabet}
    (called : (Prompt.retag tag ((Cmd.list cmds false false).execute options)).run
      (.ofDispatch dispatch depth) world = (.ok (.ok (some follow)), opened))
    {program left : FollowUp S Action A alphabet} {now later : World S Action A}
    (driven : Driven dispatch env (Pending.retag tag follow, opened) (program, now)) {inner : Nat}
    {waiter : Waiter}
    (polled : program.poll (.ofDispatch dispatch inner) waiter now = (.ok left, later)) :
    ∃ known phases,
      Siblings.Polled dispatch tag false env verdicts
        (fun index => .ofVerdict tag (verdicts index), opened) program now known phases left.result?
        later ∧
      (∀ index, (phases index).HasSent (Siblings.blocksOf index known)) ∧
      later.record = opened.record ++ known.flatMap fun block => recorded tag block.2 := by
  have same : follow = .all (siblings false (List.ofFn verdicts)) := by
    rw [execute_parallel started false] at called
    cases found : siblings false (List.ofFn verdicts) with
    | nil =>
        rw [found] at called
        cases called
    | cons first rest =>
        rw [found] at called
        cases called
        rfl
  subst same
  have tended := Siblings.Tended.driven driven (Siblings.Tended.opened verdicts opened)
  obtain ⟨-, known, phases, account⟩ := (tended.polled inner waiter).holds _ _ polled
  have accounts := account.account.1.accounts records quiet (Siblings.Accounts.fresh silent opened)
  exact ⟨known, phases, account, accounts.sent, accounts.record⟩

theorem opens_quietly (before after : World Nat (fun _ : Unit => Nat) Nat) (opens : Opens before after) :
    before.SameRecording after := by
  rw [opens]
  exact Run.perform_keeps World.tolerant_sameRecording (.setGate "left" true) before

theorem errands_silent (index : Fin 2) (follow : FollowUp Nat (fun _ : Unit => Nat) Nat ())
    (verdict : errandVerdicts index = .ok (some follow)) :
    (Pending.retag pure follow).Reticent recorder.dispatch := by
  match index with
  | 0 =>
      cases verdict
      exact .wait (.done _)
  | 1 =>
      cases verdict
      exact .done _

/-- The first poll of the future of the two commands. -/
def errandsPolled : Except Halt (FollowUp Nat (fun _ : Unit => Nat) Nat ()) ×
    World Nat (fun _ : Unit => Nat) Nat :=
  (Pending.retag pure (FollowUp.all (siblings false (List.ofFn errandVerdicts)))).poll
    (.ofDispatch recorder.dispatch 2) ⟨0, []⟩ idle

/-- In the first poll the second command has its block, although the first one waits for the gate. -/
theorem errands_dispatch_blocks :
    Records recorder.dispatch ∧
      Siblings.Started recorder.dispatch pure 2 (List.ofFn fun index => (errands index).execute .default)
        idle (List.ofFn errandVerdicts) idle ∧
      errandsPolled.2.record = [2] ∧
      ∃ known phases,
        Siblings.Polled recorder.dispatch pure false Opens errandVerdicts
          (fun index => .ofVerdict pure (errandVerdicts index), idle)
          (Pending.retag pure (FollowUp.all (siblings false (List.ofFn errandVerdicts)))) idle known phases
          Option.none errandsPolled.2 ∧
        (∀ index, (phases index).HasSent (Siblings.blocksOf index known)) ∧
        known.flatMap (fun block => recorded (pure : Nat → Noted Nat) block.2) = [2] := by
  have records : Records recorder.dispatch := Host.records_recording _ _
  have record : errandsPolled.2.record = [2] := by decide +kernel
  have waits : (errandsPolled.1.toOption.any fun left => left.result?.isNone) = true := by decide +kernel
  refine ⟨records, errands_started, record, ?_⟩
  rcases answered : errandsPolled with ⟨halt | left, later⟩
  · rw [answered] at waits
    cases waits
  · rw [answered] at waits record
    rcases parallel_dispatches_blocks records pure opens_quietly .default errands errands_started
      errands_silent rfl .refl answered with ⟨known, phases, account, sent, whole⟩
    rw [Option.isNone_iff_eq_none.1 waits] at account
    exact ⟨known, phases, account, sent, whole.symm.trans record⟩

end Cmd

end EffectLoop
