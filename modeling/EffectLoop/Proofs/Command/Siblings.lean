import Mathlib.Data.List.FinRange
import EffectLoop.Proofs.Command.Distribution
import EffectLoop.Proofs.Command.Sequence

/-!
# Parallel lists

All commands of a parallel list are started in the call, in order.  From then on each of them goes its
own way, and `Siblings.Attends` is an account of what becomes of all of them, in the order in which it
happens.  The list is over when all of its commands are; what it answers then depends on where they
stand and not on the order in which they got there (`Siblings.Gathers`).

Whatever a list is driven through, there is such an account of it (`Cmd.parallel_isolated`).  With every
poll it goes on, and no command has to wait for another one: those that the poll calls on take a step
wherever the others stand (`Siblings.Polled`).
-/

namespace EffectLoop

variable {S ι : Type} {Action : ι → Type} {A : Type} {alphabet : ι} {count : Nat}

/-- Where a command of a parallel list stands when it is started.  A command without a follow-up is over
at once. -/
def Phase.ofVerdict (tag : Action alphabet → Noted A) :
    Verdict S Action (Action alphabet) alphabet → Phase S Action A alphabet
  | .ok none => .final (.ok [])
  | .ok (some follow) => .awaited (Pending.retag tag follow)
  | .error cause => .awaited (.failed cause)

/-- Does the command have a future? -/
def Verdict.isPending : Verdict S Action A alphabet → Bool
  | .ok none => false
  | _ => true

theorem Phase.ofVerdict_of_isPending {tag : Action alphabet → Noted A}
    {verdict : Verdict S Action (Action alphabet) alphabet} (absent : verdict.isPending = false) :
    Phase.ofVerdict tag verdict = .final (.ok []) := by
  rcases verdict with cause | _ | follow
  · cases absent
  · rfl
  · cases absent

namespace Siblings

section Accounts

variable (dispatch : Dispatcher S Action A) (tag : Action alphabet → Noted A) (batch : Bool)
variable (env : World S Action A → World S Action A → Prop)

/-- The commands are started one after the other in one call, whatever the verdicts are. -/
inductive Started (depth : Nat) : List (Start S Action alphabet) → World S Action A →
    List (Verdict S Action (Action alphabet) alphabet) → World S Action A → Prop where
  | nil (world) : Started depth [] world [] world
  | cons {start rest world verdict middle verdicts opened} :
      (Prompt.retag tag start).run (.ofDispatch dispatch depth) world = (.ok verdict, middle) →
      Started depth rest middle verdicts opened →
      Started depth (start :: rest) world (verdict :: verdicts) opened

/-- One of the commands takes a step.  The actions that are dispatched in it are noted with the command
that has produced them. -/
inductive Step : (Fin count → Phase S Action A alphabet) × World S Action A →
    List (Fin count × List (Action alphabet)) →
    (Fin count → Phase S Action A alphabet) × World S Action A → Prop where
  | one {phases left world blocks later} (index : Fin count) :
      Phase.Step dispatch tag batch (phases index, world) blocks (left, later) →
      Step (phases, world) (blocks.map (index, ·)) (Function.update phases index left, later)

/-- What becomes of the commands of a parallel list. -/
abbrev Attends :
    (Fin count → Phase S Action A alphabet) × World S Action A →
    List (Fin count × List (Action alphabet)) →
    (Fin count → Phase S Action A alphabet) × World S Action A → Prop :=
  Runs env (Step dispatch tag batch)

/-- What a parallel list answers when its commands stand as they do. -/
inductive Gathers (phases : Fin count → Phase S Action A alphabet) :
    Option (Except CmdFailure (List (Action alphabet))) → Prop where
  /-- A command is not over. -/
  | waits (index) : (∀ result, phases index ≠ .final result) → Gathers phases none
  /-- All commands are over, and this is the first of those that have failed. -/
  | fails {cause} (index) : (∀ sibling, ∃ result, phases sibling = .final result) →
      phases index = .final (.error cause) →
      (∀ earlier < index, ∃ actions, phases earlier = .final (.ok actions)) →
      Gathers phases (some (.error cause))
  /-- All commands are over, and none has failed. -/
  | succeeds (actions) : (∀ index, phases index = .final (.ok (actions index))) →
      Gathers phases (some (.ok (kept batch (List.ofFn actions))))

end Accounts

variable {dispatch : Dispatcher S Action A} {tag : Action alphabet → Noted A} {batch : Bool}
variable {env : World S Action A → World S Action A → Prop}

/-! ## What the list answers -/

section Results

theorem flatten_mapM_cons (first : Except CmdFailure (List (Action alphabet)))
    (rest : List (Except CmdFailure (List (Action alphabet)))) :
    List.flatten <$> (first :: rest).mapM id =
      first >>= fun actions => (actions ++ ·) <$> (List.flatten <$> rest.mapM id) := by
  rw [List.mapM_cons]
  cases first with
  | error cause => rfl
  | ok actions => cases rest.mapM id <;> rfl

/-- The results are collected up to the first failure. -/
theorem collect_cases (results : Fin count → Except CmdFailure (List (Action alphabet))) :
    (∃ index cause, results index = .error cause ∧
      (∀ earlier < index, ∃ actions, results earlier = .ok actions) ∧
      FollowUp.collect results = .error cause) ∨
    ∃ actions, (∀ index, results index = .ok (actions index)) ∧
      FollowUp.collect results = .ok (List.ofFn actions).flatten := by
  induction count with
  | zero => exact .inr ⟨fun _ => [], fun index => index.elim0, rfl⟩
  | succ count ih =>
      rw [FollowUp.collect, List.ofFn_succ, flatten_mapM_cons]
      change (∃ index cause, _ ∧ _ ∧
        (results 0 >>= fun actions =>
          (actions ++ ·) <$> FollowUp.collect fun index => results index.succ) =
          .error cause) ∨ ∃ actions, _ ∧
        (results 0 >>= fun actions =>
          (actions ++ ·) <$> FollowUp.collect fun index => results index.succ) =
          .ok (List.ofFn actions).flatten
      cases head : results 0 with
      | error cause =>
          left
          refine ⟨0, cause, head, ?_, rfl⟩
          intro earlier before
          exact absurd before (Fin.not_lt_zero earlier)
      | ok first =>
          rcases ih fun index => results index.succ with
            ⟨index, cause, failed, before, collected⟩ | ⟨actions, succeeded, collected⟩
          · left
            refine ⟨index.succ, cause, failed, ?_, by rw [collected]; rfl⟩
            intro earlier smaller
            cases earlier using Fin.cases with
            | zero => exact ⟨first, head⟩
            | succ earlier => exact before earlier (Fin.succ_lt_succ_iff.1 smaller)
          · right
            refine ⟨Fin.cons first actions, ?_, by rw [collected, List.ofFn_succ]; rfl⟩
            intro index
            cases index using Fin.cases with
            | zero => exact head
            | succ index => exact succeeded index

/-- Those who are over without having produced anything may be left out. -/
theorem collect_filter {present : Fin count → Bool}
    {results : Fin count → Except CmdFailure (List (Action alphabet))}
    (absent : ∀ index, present index = false → results index = .ok []) (members : List (Fin count)) :
    List.flatten <$> ((members.filter present).map results).mapM id =
      List.flatten <$> (members.map results).mapM id := by
  induction members with
  | nil => rfl
  | cons member rest ih =>
      rw [List.map_cons, flatten_mapM_cons, ← ih]
      cases here : present member with
      | true => rw [List.filter_cons_of_pos here, List.map_cons, flatten_mapM_cons]
      | false =>
          rw [List.filter_cons_of_neg (by simp [here]), absent member here]
          exact (id_map _).symm

end Results

/-! ## The program of a list under way -/

section Programs

variable (tag) (batch)

/-- The program of a sibling.  Its actions are kept for the result of the list, or left out if they were
dispatched. -/
def sibling (ticket : Option Nat) (phase : Phase S Action A alphabet) : FollowUp S Action A alphabet :=
  phase.program tag batch (fun actions => .now (if batch then actions else [])) ticket

theorem andThen_now (first : FollowUp S Action A alphabet) :
    first.andThen (fun actions => .now actions) = first := by
  rw [FollowUp.andThen]
  conv_rhs => rw [← Pending.bind_done first]
  congr 1
  funext result
  cases result <;> rfl

theorem retag_siblings_cons (verdict : Verdict S Action (Action alphabet) alphabet)
    (verdicts : List (Verdict S Action (Action alphabet) alphabet)) :
    (siblings batch (verdict :: verdicts)).map (Pending.retag tag) =
      if verdict.isPending then
        sibling tag batch none (.ofVerdict tag verdict) :: (siblings batch verdicts).map (Pending.retag tag)
      else (siblings batch verdicts).map (Pending.retag tag) := by
  rcases verdict with cause | _ | follow
  · rfl
  · rfl
  · simp only [siblings, List.filterMap_cons, List.map_cons, Verdict.isPending, if_true]
    congr 1
    cases batch with
    | true => exact (andThen_now _).symm
    | false =>
        simp only [Bool.false_eq_true, if_false, FollowUp.dispatched, FollowUp.retag_andThen]
        simp only [sibling, Phase.ofVerdict, Phase.program]
        congr 1
        funext actions
        simp only [Phase.arrived, Bool.false_eq_true, if_false, Pending.retag, List.map_map,
          Function.comp_def, pure_bind]
        congr 1
        funext reply
        cases reply <;> rfl

/-- The futures of the siblings are their programs; a sibling without one is left out. -/
theorem retag_siblings (verdicts : Fin count → Verdict S Action (Action alphabet) alphabet)
    (members : List (Fin count)) :
    (siblings batch (members.map verdicts)).map (Pending.retag tag) =
      (members.filter fun member => (verdicts member).isPending).map fun member =>
        sibling tag batch none (.ofVerdict tag (verdicts member)) := by
  induction members with
  | nil => rfl
  | cons member rest ih =>
      rw [List.map_cons, retag_siblings_cons, ih, List.filter_cons]
      split <;> rfl

/-- The program of a list whose siblings at the given places have futures. -/
def joined (places : List (Fin count)) (ticket : Option Nat) (tickets : Fin places.length → Option Nat)
    (phases : Fin count → Phase S Action A alphabet) : FollowUp S Action A alphabet :=
  .join ticket (fun place => sibling tag batch (tickets place) (phases (places.get place)))
    fun results => .done (FollowUp.collect results)

/-- The places of the siblings that have futures. -/
def places (verdicts : Fin count → Verdict S Action (Action alphabet) alphabet) : List (Fin count) :=
  (List.finRange count).filter fun index => (verdicts index).isPending

theorem retag_all_siblings (verdicts : Fin count → Verdict S Action (Action alphabet) alphabet) :
    Pending.retag tag (FollowUp.all (siblings batch (List.ofFn verdicts))) =
      joined tag batch (places verdicts) none (fun _ => none)
        fun index => .ofVerdict tag (verdicts index) := by
  rw [FollowUp.retag_all, List.ofFn_eq_map, retag_siblings]
  exact FollowUp.all_map _ (places verdicts)

end Programs

/-! ## Following a list -/

section Following

variable {phases lefts : Fin count → Phase S Action A alphabet} {world later : World S Action A}

/-- What becomes of one command becomes of it among its siblings. -/
theorem Attends.of_goes (index : Fin count) {left : Phase S Action A alphabet}
    {blocks : List (List (Action alphabet))}
    (goes : Phase.Goes dispatch tag batch env (phases index, world) blocks (left, later)) :
    Attends dispatch tag batch env (phases, world) (blocks.map (index, ·))
      (Function.update phases index left, later) := by
  generalize last : (left, later) = now at goes
  induction goes generalizing left later with
  | rest =>
      cases last
      rw [Function.update_eq_self]
      exact .rest _
  | @step middle now blocks more _ taken ih =>
      cases middle with
      | mk phase between =>
      cases last
      have before : (Function.update phases index phase) index = phase := Function.update_self ..
      have again : Function.update (Function.update phases index phase) index left =
          Function.update phases index left := Function.update_idem ..
      rw [← before] at taken
      rw [List.map_append, ← again]
      exact (ih rfl).step (.one index taken)
  | aside _ changes ih =>
      cases last
      exact (ih rfl).aside changes

/-- Each of the commands goes somewhere while the world stands still. -/
theorem Attends.of_each
    (each : ∀ index, ∃ blocks, Phase.Goes dispatch tag batch env (phases index, world) blocks
      (lefts index, world)) :
    ∃ known, Attends dispatch tag batch env (phases, world) known (lefts, world) := by
  let reached (now : Fin count → Phase S Action A alphabet) : Prop :=
    ∃ known, Attends dispatch tag batch env (phases, world) known (now, world)
  have start : reached phases := ⟨[], .rest _⟩
  apply of_update_each start
  rintro now index ⟨known, attends⟩ stands
  have goes : ∃ blocks, Phase.Goes dispatch tag batch env (now index, world) blocks
      (lefts index, world) := by
    rcases stands with same | same
    · rw [same]
      exact each index
    · rw [same]
      exact ⟨[], .rest _⟩
  rcases goes with ⟨blocks, goes⟩
  exact ⟨_, attends.trans (Attends.of_goes index goes)⟩

variable {depth : Nat} {waiter : Waiter}

/-- When the program of a sibling was polled, it is its program at another phase. -/
theorem sibling_of_polled {now : Phase S Action A alphabet × World S Action A}
    {left : FollowUp S Action A alphabet}
    (polled : Phase.Polled dispatch tag batch env (fun actions => .now (if batch then actions else []))
      depth waiter now left later) :
    ∃ ticket phase blocks, Phase.Goes dispatch tag batch env now blocks (phase, later) ∧
      left = sibling tag batch ticket phase := by
  cases polled with
  | waits phase ticket goes _ => exact ⟨ticket, phase, _, goes, rfl⟩
  | @fails cause _ _ goes => exact ⟨none, .final (.error cause), _, goes, rfl⟩
  | @passes actions _ _ _ _ _ _ goes answered =>
      cases answered
      exact ⟨none, .final (.ok actions), _, goes, rfl⟩

variable (env) in
/-- A poll of a sibling's program takes steps of the sibling, and the first one right away if the sibling
is still awaited. -/
theorem sibling_leads (ticket : Option Nat) (phase : Phase S Action A alphabet) :
    ((sibling tag batch ticket phase).poll (.ofDispatch dispatch depth) waiter).Leads world
      fun left later => ∃ ticket phase' blocks,
        Phase.Goes dispatch tag batch env (phase, world) blocks (phase', later) ∧
          left = sibling tag batch ticket phase' ∧
          ∀ follow, phase = .awaited follow → ∃ first now more, blocks = first ++ more ∧
            Phase.Step dispatch tag batch (phase, world) first now ∧
            Phase.Goes dispatch tag batch env now more (phase', later) := by
  cases phase with
  | awaited follow =>
      apply (Phase.poll_awaited follow ticket world).mono
      rintro left later ⟨first, now, step, polled⟩
      obtain ⟨ticket, phase, more, goes, same⟩ := sibling_of_polled polled
      exact ⟨ticket, phase, _, (Runs.single step).trans goes, same,
        fun _ _ => ⟨first, now, more, rfl, step, goes⟩⟩
  | settling | final =>
      apply (Phase.poll_program _ ticket (.rest _)).mono
      intro left later polled
      obtain ⟨ticket, phase, blocks, goes, same⟩ := sibling_of_polled polled
      exact ⟨ticket, phase, blocks, goes, same, nofun⟩

/-- What a sibling that is over gives to the list. -/
def given (batch : Bool) (result : Except CmdFailure (List (Action alphabet))) :
    Except CmdFailure (List (Action alphabet)) :=
  result.map fun actions => if batch then actions else []

/-- A sibling whose program is over is over without another poll. -/
theorem final_of_sibling {ticket : Option Nat} {phase : Phase S Action A alphabet}
    {value : Except CmdFailure (List (Action alphabet))}
    (done : sibling tag batch ticket phase = .done value) :
    ∃ result, (∃ blocks, Phase.Goes dispatch tag batch env (phase, world) blocks (.final result, world)) ∧
      value = given batch result := by
  have polled : (sibling tag batch ticket phase).poll (.ofDispatch dispatch 0) ⟨0, []⟩ world =
      (.ok (.done value), world) := by
    rw [done]
    rfl
  have ended : Phase.Polled dispatch tag batch env _ 0 ⟨0, []⟩ (phase, world) (.done value) world :=
    (Phase.poll_program phase ticket (.rest _)).holds _ _ polled
  generalize left : (Pending.done value : FollowUp S Action A alphabet) = program at ended
  cases ended with
  | waits phase ticket _ waits =>
      have notOver : (sibling tag batch ticket phase).result? = none :=
        Phase.result?_program waits _ ticket
      rw [sibling, ← left] at notOver
      cases notOver
  | fails goes =>
      cases left
      exact ⟨_, ⟨_, goes⟩, rfl⟩
  | passes _ goes answered =>
      cases answered
      cases left
      exact ⟨_, ⟨_, goes⟩, rfl⟩

end Following

/-- What a list whose commands are all over answers. -/
theorem gathers_of_final (results : Fin count → Except CmdFailure (List (Action alphabet))) :
    Gathers batch (fun index => (.final (results index) : Phase S Action A alphabet))
      (some (FollowUp.collect fun index => given batch (results index))) := by
  have failed {index cause} (fails : given batch (results index) = .error cause) :
      results index = .error cause := by
    cases result : results index <;> simp_all [given, Except.map]
  have succeeded {index actions} (succeeds : given batch (results index) = .ok actions) :
      ∃ produced, results index = .ok produced ∧ actions = if batch then produced else [] := by
    cases result : results index <;> simp_all [given, Except.map]
  rcases collect_cases fun index => given batch (results index) with
    ⟨index, cause, fails, before, collected⟩ | ⟨actions, succeeds, collected⟩
  · rw [collected]
    apply Gathers.fails index
    · exact fun sibling => ⟨_, rfl⟩
    · rw [failed fails]
    · intro earlier smaller
      rcases before earlier smaller with ⟨actions, succeeds⟩
      rcases succeeded succeeds with ⟨produced, result, _⟩
      exact ⟨produced, congrArg Phase.final result⟩
  · rw [collected]
    choose produced result same using fun index => succeeded (succeeds index)
    have whole : (List.ofFn actions).flatten = kept batch (List.ofFn produced) := by
      rw [funext same]
      cases batch with
      | true => rfl
      | false => simp [kept, List.ofFn_const]
    rw [whole]
    exact .succeeds produced fun index => congrArg Phase.final (result index)

/-! ## Whom a poll visits -/

section Visits

/-- An account of the commands in which this one takes a step from where it stood at first, whatever has
become of the others by then. -/
inductive Visits (dispatch : Dispatcher S Action A) (tag : Action alphabet → Noted A) (batch : Bool)
    (env : World S Action A → World S Action A → Prop) (index : Fin count)
    (start : (Fin count → Phase S Action A alphabet) × World S Action A) :
    List (Fin count × List (Action alphabet)) →
    (Fin count → Phase S Action A alphabet) × World S Action A → Prop where
  | intro {early phases world blocks left later late now} :
      Attends dispatch tag batch env start early (phases, world) → phases index = start.1 index →
      Phase.Step dispatch tag batch (start.1 index, world) blocks (left, later) →
      Attends dispatch tag batch env (Function.update phases index left, later) late now →
      Visits dispatch tag batch env index start (early ++ blocks.map (index, ·) ++ late) now

variable {start now last : (Fin count → Phase S Action A alphabet) × World S Action A}
variable {known more : List (Fin count × List (Action alphabet))} {index : Fin count}

theorem Visits.trans (visits : Visits dispatch tag batch env index start known now)
    (attends : Attends dispatch tag batch env now more last) :
    Visits dispatch tag batch env index start (known ++ more) last := by
  cases visits with
  | intro before same step after =>
      rw [List.append_assoc]
      exact .intro before same step (after.trans attends)

/-- The command takes a step and goes on. -/
theorem Visits.of_goes {phases : Fin count → Phase S Action A alphabet} {world later : World S Action A}
    {left : Phase S Action A alphabet} {middle : Phase S Action A alphabet × World S Action A}
    {first rest : List (List (Action alphabet))}
    (attends : Attends dispatch tag batch env start known (phases, world))
    (same : phases index = start.1 index)
    (step : Phase.Step dispatch tag batch (phases index, world) first middle)
    (goes : Phase.Goes dispatch tag batch env middle rest (left, later)) :
    Visits dispatch tag batch env index start (known ++ (first ++ rest).map (index, ·))
      (Function.update phases index left, later) := by
  rw [same] at step
  obtain ⟨phase, between⟩ := middle
  have stands : Function.update phases index phase index = phase := Function.update_self ..
  rw [← stands] at goes
  have after := Attends.of_goes index goes
  rw [Function.update_idem] at after
  rw [List.map_append, ← List.append_assoc]
  exact .intro attends same step after

end Visits

section Families

variable {verdicts : Fin count → Verdict S Action (Action alphabet) alphabet}

theorem places_injective : Function.Injective (places verdicts).get :=
  List.nodup_iff_injective_get.1 ((List.nodup_finRange count).filter _)

theorem isPending_get (place : Fin (places verdicts).length) :
    (verdicts ((places verdicts).get place)).isPending = true :=
  (List.mem_filter.1 (List.get_mem (places verdicts) place)).2

/-- The commands without futures are over. -/
def Absent (verdicts : Fin count → Verdict S Action (Action alphabet) alphabet)
    (phases : Fin count → Phase S Action A alphabet) : Prop :=
  ∀ index, (verdicts index).isPending = false → phases index = .final (.ok [])

/-- The futures that a list waits for are the programs of its commands.  In the round that has begun at
`start`, each command at one of the visited places has taken a step if it was awaited. -/
inductive Attended (dispatch : Dispatcher S Action A) (tag : Action alphabet → Noted A) (batch : Bool)
    (env : World S Action A → World S Action A → Prop)
    (verdicts : Fin count → Verdict S Action (Action alphabet) alphabet)
    (start : (Fin count → Phase S Action A alphabet) × World S Action A)
    (visited : Set (Fin (places verdicts).length)) :
    (Fin (places verdicts).length → FollowUp S Action A alphabet) → World S Action A → Prop where
  | attended {known phases world} (tickets : Fin (places verdicts).length → Option Nat) :
      Attends dispatch tag batch env start known (phases, world) → Absent verdicts phases →
      (∀ place, (∀ follow, start.1 ((places verdicts).get place) = .awaited follow →
          Visits dispatch tag batch env ((places verdicts).get place) start known (phases, world)) ∨
        phases ((places verdicts).get place) = start.1 ((places verdicts).get place) ∧
          place ∉ visited) →
      Attended dispatch tag batch env verdicts start visited
        (fun place => sibling tag batch (tickets place) (phases ((places verdicts).get place))) world

namespace Attended

variable {start : (Fin count → Phase S Action A alphabet) × World S Action A}
variable {visited : Set (Fin (places verdicts).length)}
variable {now : Fin (places verdicts).length → FollowUp S Action A alphabet}
variable {world later : World S Action A}

/-- A round begins. -/
theorem begins {phases : Fin count → Phase S Action A alphabet} (absent : Absent verdicts phases)
    (tickets : Fin (places verdicts).length → Option Nat) (world : World S Action A) :
    Attended dispatch tag batch env verdicts (phases, world) ∅
      (fun place => sibling tag batch (tickets place) (phases ((places verdicts).get place))) world :=
  .attended tickets (.rest _) absent fun place => .inr ⟨rfl, Set.notMem_empty place⟩

theorem booked (visited : Set (Fin (places verdicts).length))
    (now : Fin (places verdicts).length → FollowUp S Action A alphabet)
    (before after : World S Action A) (books : World.Booked before after)
    (attended : Attended dispatch tag batch env verdicts start visited now before) :
    Attended dispatch tag batch env verdicts start visited now after := by
  cases attended with
  | @attended known phases _ tickets attends absent heeds =>
      refine .attended tickets (attends.booked books) absent fun place => ?_
      refine (heeds place).imp_left fun visits follow awaited => ?_
      have aside : Attends dispatch tag batch env (phases, before) [] (phases, after) :=
        (Runs.rest _).booked books
      rw [← List.append_nil known]
      exact (visits follow awaited).trans aside

/-- A poll of one of the futures. -/
theorem polled (attended : Attended dispatch tag batch env verdicts start visited now world)
    (place : Fin (places verdicts).length) (depth : Nat) (waiter : Waiter) :
    ((now place).poll (.ofDispatch dispatch depth) waiter).Leads world fun left later =>
      Attended dispatch tag batch env verdicts start (insert place visited)
        (Function.update now place left) later := by
  cases attended with
  | @attended known phases _ tickets attends absent heeds =>
  apply (sibling_leads env (tickets place) _).mono
  rintro left later ⟨ticket, phase, blocks, goes, rfl, starts⟩
  let after := Function.update phases ((places verdicts).get place) phase
  have family : Function.update
        (fun place => sibling tag batch (tickets place) (phases ((places verdicts).get place))) place
        (sibling tag batch ticket phase) =
      fun other => sibling tag batch (Function.update tickets place ticket other)
        (after ((places verdicts).get other)) := by
    funext other
    by_cases same : other = place
    · subst same
      simp [after]
    · have apart := places_injective.ne same
      simp only [after, Function.update_of_ne same, Function.update_of_ne apart]
  rw [family]
  have goesOn := Attends.of_goes ((places verdicts).get place) goes
  apply Attended.attended (Function.update tickets place ticket) (attends.trans goesOn)
  · intro index missing
    have apart : index ≠ (places verdicts).get place := by
      rintro rfl
      rw [isPending_get] at missing
      cases missing
    exact (Function.update_of_ne apart ..).trans (absent index missing)
  · intro other
    rcases heeds other with visits | ⟨still, unvisited⟩
    · exact .inl fun follow awaited => (visits follow awaited).trans goesOn
    by_cases same : other = place
    · -- A command that has not been visited yet stands where it stood, so this poll begins with its step.
      subst same
      refine .inl fun follow awaited => ?_
      obtain ⟨first, middle, rest, rfl, step, goes⟩ := starts follow (still.trans awaited)
      exact .of_goes attends still step goes
    · have apart := places_injective.ne same
      refine .inr ⟨(Function.update_of_ne apart ..).trans still, ?_⟩
      exact fun within => (Set.mem_insert_iff.1 within).elim same unvisited

theorem engine_polled (visited : Set (Fin (places verdicts).length))
    (now : Fin (places verdicts).length → FollowUp S Action A alphabet) (world : World S Action A)
    (place : Fin (places verdicts).length) (depth : Nat) (waiter : Waiter)
    (attended : Attended dispatch tag batch env verdicts start visited now world) :
    ((Engine.ofDispatch dispatch depth).poll waiter (now place)).Leads world fun left later =>
      Attended dispatch tag batch env verdicts start (insert place visited)
        (Function.update now place left) later := by
  cases depth with
  | zero => exact .throw .exhausted
  | succ depth => exact attended.polled place depth waiter

end Attended

/-- When all futures are over, all commands are, and their results are put together in order. -/
theorem gathers_of_done {phases : Fin count → Phase S Action A alphabet} {world : World S Action A}
    {tickets : Fin (places verdicts).length → Option Nat} (absent : Absent verdicts phases)
    {results : Fin (places verdicts).length → Except CmdFailure (List (Action alphabet))}
    (complete : ∀ place,
      sibling tag batch (tickets place) (phases ((places verdicts).get place)) = .done (results place)) :
    ∃ more ended, Attends dispatch tag batch env (phases, world) more (ended, world) ∧
      Gathers batch ended (some (FollowUp.collect results)) := by
  have each (index) : ∃ result,
      (∃ blocks, Phase.Goes dispatch tag batch env (phases index, world) blocks (.final result, world)) ∧
      ((verdicts index).isPending = false → given batch result = .ok []) ∧
      ∀ place, (places verdicts).get place = index → results place = given batch result := by
    by_cases pending : index ∈ places verdicts
    · rcases List.get_of_mem pending with ⟨place, rfl⟩
      rcases final_of_sibling (complete place) with ⟨result, goes, same⟩
      refine ⟨result, goes, ?_, ?_⟩
      · intro missing
        rw [isPending_get] at missing
        cases missing
      · intro other equal
        rw [places_injective equal]
        exact same
    · have missing : (verdicts index).isPending = false := by
        simpa [places] using pending
      refine ⟨.ok [], ⟨[], ?_⟩, fun _ => ?_, ?_⟩
      · rw [absent index missing]
        exact .rest _
      · cases batch <;> rfl
      · intro place same
        exact absurd (same ▸ List.get_mem (places verdicts) place) pending
  choose result goes missing same using each
  rcases Attends.of_each goes with ⟨more, ended⟩
  refine ⟨more, _, ended, ?_⟩
  have collected :
      FollowUp.collect results = FollowUp.collect fun index => given batch (result index) := by
    have listed : List.ofFn results = (places verdicts).map fun index => given batch (result index) := by
      rw [funext fun place => same _ place rfl, map_eq_ofFn_get]
    rw [FollowUp.collect, FollowUp.collect, listed, List.ofFn_eq_map]
    exact collect_filter missing (List.finRange count)
  rw [collected]
  exact gathers_of_final result

/-- If a list has answered, all of its commands are over. -/
theorem Gathers.isFinal {phases : Fin count → Phase S Action A alphabet}
    {result : Except CmdFailure (List (Action alphabet))} (gathers : Gathers batch phases (some result))
    (index : Fin count) : ∃ result, phases index = .final result := by
  cases gathers with
  | fails _ final _ _ => exact final index
  | succeeds actions all => exact ⟨_, all index⟩

/-- What a poll of a list does: the account of its commands goes on, with a step of each one that is still
awaited and is called on by the poll.  What the list answers follows from where they stand then. -/
inductive Polled (dispatch : Dispatcher S Action A) (tag : Action alphabet → Noted A) (batch : Bool)
    (env : World S Action A → World S Action A → Prop)
    (verdicts : Fin count → Verdict S Action (Action alphabet) alphabet)
    (start : (Fin count → Phase S Action A alphabet) × World S Action A)
    (program : FollowUp S Action A alphabet) (world : World S Action A) :
    List (Fin count × List (Action alphabet)) → (Fin count → Phase S Action A alphabet) →
    Option (Except CmdFailure (List (Action alphabet))) → World S Action A → Prop where
  | intro {earlier before known phases result later} :
      Attends dispatch tag batch env start earlier (before, world) →
      Attends dispatch tag batch env (before, world) known (phases, later) →
      (∀ place follow, before ((places verdicts).get place) = .awaited follow →
        Rally.Calls world (Pending.ticket? program) place →
        Visits dispatch tag batch env ((places verdicts).get place) (before, world) known
          (phases, later)) →
      Gathers batch phases result →
      Polled dispatch tag batch env verdicts start program world (earlier ++ known) phases result later

theorem Polled.account {start : (Fin count → Phase S Action A alphabet) × World S Action A}
    {program : FollowUp S Action A alphabet} {world later : World S Action A}
    {known : List (Fin count × List (Action alphabet))} {phases : Fin count → Phase S Action A alphabet}
    {result : Option (Except CmdFailure (List (Action alphabet)))}
    (polled : Polled dispatch tag batch env verdicts start program world known phases result later) :
    Attends dispatch tag batch env start known (phases, later) ∧ Gathers batch phases result := by
  cases polled with
  | intro soFar attends _ gathers => exact ⟨soFar.trans attends, gathers⟩

/-- The future of a list waits for those of its commands, or it is over and they were. -/
inductive Tended (dispatch : Dispatcher S Action A) (tag : Action alphabet → Noted A) (batch : Bool)
    (env : World S Action A → World S Action A → Prop)
    (verdicts : Fin count → Verdict S Action (Action alphabet) alphabet)
    (start : (Fin count → Phase S Action A alphabet) × World S Action A) :
    FollowUp S Action A alphabet → World S Action A → Prop where
  | joins {known phases world} (ticket : Option Nat)
      (tickets : Fin (places verdicts).length → Option Nat) :
      Attends dispatch tag batch env start known (phases, world) → Absent verdicts phases →
      Tended dispatch tag batch env verdicts start
        (joined tag batch (places verdicts) ticket tickets phases) world
  | final {known phases world result} :
      Attends dispatch tag batch env start known (phases, world) → Gathers batch phases (some result) →
      Tended dispatch tag batch env verdicts start (.done result) world

namespace Tended

variable {start : (Fin count → Phase S Action A alphabet) × World S Action A}
variable {program : FollowUp S Action A alphabet} {world later : World S Action A}

theorem acts (tended : Tended dispatch tag batch env verdicts start program world)
    (acts : env world later) : Tended dispatch tag batch env verdicts start program later := by
  cases tended with
  | joins ticket tickets attends absent =>
      exact .joins ticket tickets (attends.aside (.acts acts)) absent
  | final attends gathers => exact .final (attends.aside (.acts acts)) gathers

/-- A poll of the future. -/
theorem polled (tended : Tended dispatch tag batch env verdicts start program world) (depth : Nat)
    (waiter : Waiter) :
    (Pending.poll (.ofDispatch dispatch depth) waiter program).Leads world fun left later =>
      Tended dispatch tag batch env verdicts start left later ∧
      ∃ known phases, Polled dispatch tag batch env verdicts start program world known phases
        (Pending.result? left) later := by
  cases tended with
  | @joins earlier before _ ticket tickets soFar absent =>
      simp only [joined, Pending.poll]
      apply (Engine.pollJoin_visits Attended.booked (fun visited now world place waiter =>
        Attended.engine_polled visited now world place depth waiter) waiter ticket
        (fun visited now world place attended same => same ▸ attended.polled place depth waiter)
        (Attended.begins absent tickets world)).bind
      rintro ⟨ticket, lefts⟩ later ⟨visited, all, attended⟩
      dsimp only
      split
      next results complete =>
          have done := done_of_results? complete
          generalize lefts.get = now at attended done
          cases attended with
          | @attended known phases _ tickets attends absent heeds =>
          rcases gathers_of_done absent done with ⟨more, ended, goesOn, gathers⟩
          apply Run.Leads.pure
          refine ⟨.final (soFar.trans (attends.trans goesOn)) gathers, _, _,
            .intro soFar (attends.trans goesOn) ?_ gathers⟩
          intro place follow awaited calls
          rcases heeds place with visits | ⟨-, unvisited⟩
          · exact (visits follow awaited).trans goesOn
          · exact absurd (all place calls) unvisited
      next incomplete =>
          rcases exists_of_results?_eq_none incomplete with ⟨waiting, notOver⟩
          generalize lefts.get = now at attended notOver
          cases attended with
          | @attended known phases _ tickets attends absent heeds =>
          apply Run.Leads.pure
          refine ⟨.joins ticket tickets (soFar.trans attends) absent, _, _,
            .intro soFar attends ?_ (.waits ((places verdicts).get waiting) ?_)⟩
          · intro place follow awaited calls
            rcases heeds place with visits | ⟨-, unvisited⟩
            · exact visits follow awaited
            · exact absurd (all place calls) unvisited
          · intro result final
            dsimp only at notOver
            rw [final] at notOver
            cases result <;> cases notOver
  | final attends gathers =>
      refine .pure ⟨.final attends gathers, _, _, .intro attends (.rest _) ?_ gathers⟩
      intro place follow awaited
      obtain ⟨result, final⟩ := gathers.isFinal ((places verdicts).get place)
      rw [final] at awaited
      cases awaited

/-- However a list is driven, its commands are attended to. -/
theorem driven {left : FollowUp S Action A alphabet} {now : World S Action A}
    (driven : Driven dispatch env (program, world) (left, now))
    (tended : Tended dispatch tag batch env verdicts start program world) :
    Tended dispatch tag batch env verdicts start left now := by
  apply driven.invariant _ _ tended
  · intro program now depth waiter tended
    exact (tended.polled depth waiter).mono fun _ _ ends => ends.1
  · intro program now later acts tended
    exact tended.acts acts

end Tended

/-- The call of a list whose commands were started. -/
theorem Started.run {starts : List (Start S Action alphabet)} {world opened : World S Action A}
    {found : List (Verdict S Action (Action alphabet) alphabet)} {depth : Nat}
    (started : Started dispatch tag depth starts world found opened) :
    ((starts.map (Prompt.retag tag)).mapM id).run (.ofDispatch dispatch depth) world =
      (.ok found, opened) := by
  induction started with
  | nil => rfl
  | cons first _ ih =>
      simp only [List.map_cons, List.mapM_cons, Prompt.run_bind, id]
      rw [Run.bind_of_ok first, Run.bind_of_ok ih]
      rfl

theorem siblings_eq_nil_iff (batch : Bool)
    (found : List (Verdict S Action (Action alphabet) alphabet)) :
    siblings batch found = [] ↔ ∀ verdict ∈ found, verdict = .ok none := by
  rw [siblings, List.filterMap_eq_nil_iff]
  apply forall₂_congr
  rintro (cause | _ | follow) _ <;> simp

/-- The future of a list whose commands were just started. -/
theorem Tended.opened (verdicts : Fin count → Verdict S Action (Action alphabet) alphabet)
    (world : World S Action A) :
    Tended dispatch tag batch env verdicts (fun index => .ofVerdict tag (verdicts index), world)
      (Pending.retag tag (FollowUp.all (siblings batch (List.ofFn verdicts)))) world := by
  rw [retag_all_siblings]
  apply Tended.joins none (fun _ => none) (.rest _)
  intro index absent
  exact Phase.ofVerdict_of_isPending absent

end Families

end Siblings

namespace Cmd

/-- The call of a parallel list whose commands were started. -/
theorem execute_parallel {dispatch : Dispatcher S Action A} {tag : Action alphabet → Noted A}
    {options : Options} {cmds : Fin count → Cmd S Action alphabet} {depth : Nat}
    {world opened : World S Action A} {verdicts : List (Verdict S Action (Action alphabet) alphabet)}
    (started : Siblings.Started dispatch tag depth (List.ofFn fun index => (cmds index).execute options)
      world verdicts opened) (batch : Bool) :
    (Prompt.retag tag ((Cmd.list cmds false batch).execute options)).run (.ofDispatch dispatch depth)
      world = (.ok (.gathered (siblings batch verdicts)), opened) := by
  rw [execute, startTogether_eq, map_eq_pure_bind, Prompt.retag_bind, Prompt.retag_mapM, Prompt.run_bind,
    Run.bind_of_ok started.run]
  rfl

/-- A parallel list starts all of its commands in the call, in order, whatever comes of the starts, and
answers no error: it answers nothing if nothing came of any of them, and a future otherwise.  However
that is driven, in whatever context and with whatever happening in between, after a poll of it its
commands have got somewhere, each on its own, and the list has answered what follows from where they
stand. -/
theorem parallel_isolated (dispatch : Dispatcher S Action A) (tag : Action alphabet → Noted A)
    (env : World S Action A → World S Action A → Prop) (options : Options)
    (cmds : Fin count → Cmd S Action alphabet) (batch : Bool) {depth : Nat}
    {world opened : World S Action A}
    {verdicts : Fin count → Verdict S Action (Action alphabet) alphabet}
    (started : Siblings.Started dispatch tag depth (List.ofFn fun index => (cmds index).execute options)
      world (List.ofFn verdicts) opened) :
    ∃ found : Option (FollowUp S Action (Action alphabet) alphabet),
      (Prompt.retag tag ((Cmd.list cmds false batch).execute options)).run (.ofDispatch dispatch depth)
        world = (.ok (.ok found), opened) ∧
      (found = Option.none ↔ ∀ index, verdicts index = .ok Option.none) ∧
      ∀ follow, found = some follow →
        ∀ program now, Driven dispatch env (Pending.retag tag follow, opened) (program, now) →
          ∀ depth waiter left later,
            program.poll (.ofDispatch dispatch depth) waiter now = (.ok left, later) →
            ∃ ended known phases, Relation.ReflTransGen env ended later ∧
              Siblings.Attends dispatch tag batch env
                (fun index => .ofVerdict tag (verdicts index), opened) known (phases, ended) ∧
              Siblings.Gathers batch phases left.result? := by
  have called := execute_parallel started batch
  have members := Siblings.siblings_eq_nil_iff batch (List.ofFn verdicts)
  rw [List.forall_mem_ofFn_iff] at members
  rw [called, ← members]
  cases found : siblings batch (List.ofFn verdicts) with
  | nil => exact ⟨Option.none, rfl, by simp, fun _ absent => by cases absent⟩
  | cons first rest =>
      rw [← found]
      refine ⟨some (.all (siblings batch (List.ofFn verdicts))), by simp [found, Verdict.gathered],
        by simp [found], ?_⟩
      intro follow same program now driven depth waiter left later polled
      cases same
      have tended := Siblings.Tended.driven driven (Siblings.Tended.opened verdicts opened)
      obtain ⟨-, known, phases, account⟩ := (tended.polled depth waiter).holds _ _ polled
      exact ⟨later, known, phases, .refl, account.account⟩

/-- The verdicts of the two commands. -/
def errandVerdicts : Fin 2 → Verdict Nat (fun _ : Unit => Nat) Nat () :=
  ![errand, .ok (some (FollowUp.now [2]))]

theorem errands_started : Siblings.Started recorder.dispatch pure 2
    (List.ofFn fun index => (errands index).execute .default) idle (List.ofFn errandVerdicts) idle :=
  .cons rfl (.cons rfl (.nil idle))

/-- Together, the two commands give their actions in order, although the second is over first. -/
theorem errands_isolated :
    Siblings.Started recorder.dispatch pure 2 (List.ofFn fun index => (errands index).execute .default)
        idle (List.ofFn errandVerdicts) idle ∧
      ∃ known phases ended, Siblings.Attends recorder.dispatch pure true Opens
          (fun index => .ofVerdict pure (errandVerdicts index), idle) known (phases, ended) ∧
        Siblings.Gathers true phases (some (.ok [1, 2])) := by
  rcases parallel_isolated recorder.dispatch pure Opens .default errands true errands_started with
    ⟨found, called, -, account⟩
  cases called
  have given : givenTwice (Pending.retag pure (FollowUp.all (siblings true (List.ofFn errandVerdicts)))) =
      some [1, 2] := by decide +kernel
  rcases exists_of_givenTwice given with ⟨left, world, later, driven, polled⟩
  rcases account _ rfl left world driven 2 _ _ _ polled with ⟨ended, known, phases, -, attends, gathers⟩
  exact ⟨errands_started, known, phases, ended, attends, gathers⟩

end Cmd

end EffectLoop
