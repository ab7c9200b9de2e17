import EffectLoop.Proofs.Command.Conduct
import EffectLoop.Proofs.Command.Immediate
import EffectLoop.Proofs.Store.Finishing

/-!
# Immediate commands on a store

An immediate command on a store whose reducer answers with bare states is over after one poll.  What its
lists do not dispatch themselves they hand on, and in the end the store dispatches it; but lists that all
carry the same flags keep the order.  Whatever the flags are, the actions are reduced that the simulation
of the outcomes gives, in that order.
-/

namespace EffectLoop

variable {S ι : Type} {Action : ι → Type} {A α : Type} {alphabet child grandchild : ι}

/-- Where commands are executed: on which store, in which context, and with which flags of lists.  The
functions are those that may be called. -/
structure Stage (S : Type) {ι : Type} (Action : ι → Type) (alphabet child : ι) where
  store : Store S Action alphabet
  functions : Callee S Action (Action alphabet) → Prop
  tag : Action child → Noted (Action alphabet)
  sequence : Bool
  batch : Bool

namespace Stage

variable (stage : Stage S Action alphabet child)

/-- The action that is reduced for an action of the command. -/
def image (action : Action child) : Action alphabet := (stage.tag action).value

/-- Calls that a command may come to, and the actions that it gives for them. -/
abbrev Course (S : Type) {ι : Type} (Action : ι → Type) (alphabet child : ι) :=
  List (Call S Action (Action alphabet)) → List (Action child) → Prop

/-- What commands give one after the other. -/
def Course.concat (courses : List (Course S Action alphabet child)) : Course S Action alphabet child :=
  fun calls all => ∃ given, Portioned courses calls given ∧ all = given.flatten

/-- What a follow-up has come to.  What was reduced for it and what it has produced together are what the
command gives.  If nothing is in sequence it calls no more functions, and if all is batched nothing was
reduced. -/
inductive Settled (course : Course S Action alphabet child) :
    List (Call S Action (Action alphabet)) → List (Action alphabet) → Produced Action child → Prop where
  | intro {calls actions produced all} : course calls all →
      actions ++ produced.map stage.image = all.map stage.image →
      (stage.sequence = false → calls = []) → (stage.batch = true → actions = []) →
      Settled course calls actions (.ok produced)

/-- A poll takes the follow-up to its end, if there may be `need` dispatches in each other. -/
def Follows (need : Nat) (course : Course S Action alphabet child)
    (follow : FollowUp S Action (Action child) child) : Prop :=
  ∀ depth, need ≤ depth →
    stage.store.Finishes stage.functions depth (Pending.retag stage.tag follow) (stage.Settled course)

/-- The verdict after some calls: nothing, or a follow-up. -/
def Answers (need : Nat) (course : Course S Action alphabet child)
    (calls : List (Call S Action (Action alphabet))) :
    Verdict S Action (Action child) child → Prop
  | .error _ => False
  | .ok none => course calls []
  | .ok (some follow) => stage.Follows need (fun more => course (calls ++ more)) follow

/-- The start reduces nothing. -/
def Starts (need : Nat) (course : Course S Action alphabet child) (start : Start S Action child) : Prop :=
  ∀ depth, stage.store.Does stage.functions
    ((Prompt.retag stage.tag start).run ((Host.store stage.store).engine depth))
    fun calls actions verdict => actions = [] ∧ stage.Answers need course calls verdict

variable {stage} {need more : Nat} {course weaker : Course S Action alphabet child}
variable {calls : List (Call S Action (Action alphabet))}

theorem follows_now {actions : List (Action child)} (holds : course [] actions) :
    stage.Follows need course (.now actions) :=
  fun _ _ => .done (.intro holds rfl (fun _ => rfl) fun _ => rfl)

theorem Follows.mono {follow : FollowUp S Action (Action child) child}
    (follows : stage.Follows need course follow) (le : need ≤ more)
    (implies : ∀ calls all, course calls all → weaker calls all) : stage.Follows more weaker follow := by
  intro depth enough
  apply (follows depth (le.trans enough)).mono
  intro calls actions result holds
  rcases holds with ⟨given, whole, silent, batched⟩
  exact .intro (implies _ _ given) whole silent batched

theorem Answers.mono {verdict : Verdict S Action (Action child) child}
    (answers : stage.Answers need course calls verdict) (le : need ≤ more)
    (implies : ∀ calls all, course calls all → weaker calls all) :
    stage.Answers more weaker calls verdict := by
  rcases verdict with cause | _ | follow
  · exact answers
  · exact implies _ _ answers
  · exact Follows.mono answers le fun later => implies (calls ++ later)

theorem Starts.mono {start : Start S Action child} (starts : stage.Starts need course start)
    (le : need ≤ more) (implies : ∀ calls all, course calls all → weaker calls all) :
    stage.Starts more weaker start := by
  intro depth
  apply (starts depth).mono
  intro calls actions verdict holds
  exact ⟨holds.1, holds.2.mono le implies⟩

/-! ## RUNs -/

theorem does_ofAction {found : Noted (Option (Action child))} (holds : course calls found.value.toList)
    (engine : Engine S Action (Action alphabet)) :
    stage.store.Does stage.functions ((Prompt.retag stage.tag (Verdict.ofAction found)).run engine)
      fun more actions verdict => more = [] ∧ actions = [] ∧ stage.Answers need course calls verdict := by
  rw [Verdict.ofAction, Prompt.retag_bind, Prompt.retag_ofNoted, Prompt.run_bind]
  apply (Store.does_ofNoted found).bind
  intro more actions action holds
  rcases holds with ⟨rfl, rfl, rfl⟩
  cases value : found.value with
  | none =>
      rw [value] at holds
      exact .pure ⟨rfl, rfl, holds⟩
  | some action =>
      rw [value] at holds
      refine .pure ⟨rfl, rfl, follows_now ?_⟩
      rw [List.append_nil]
      exact holds

theorem does_reportHandled (options : Options) (cause : RunFailure)
    (engine : Engine S Action (Action alphabet)) :
    stage.store.Does stage.functions
      ((Prompt.retag stage.tag (Prompt.perform (options.reportHandled cause))).run engine)
      fun calls actions _ => calls = [] ∧ actions = [] := by
  rcases options with ⟨silenceHandled⟩
  cases silenceHandled with
  | true => exact .idle (fun _ => []) (fun _ => rfl) (fun _ => rfl) ⟨rfl, rfl⟩
  | false =>
      exact .idle (fun _ => [.log (.handledFailure cause)]) (fun _ => rfl) (fun _ => rfl) ⟨rfl, rfl⟩

/-- The verdict for an outcome that is known in the call. -/
theorem does_executeReady {spec : RunSpec S Action (Action child)} {outcome : Except RunFailure Json}
    (options : Options) (handles : spec.Handles outcome)
    (holds : ∀ leaf, Simulation.ofOutcome? outcome = some leaf →
      course calls (spec.simulate (some leaf)).value.toList)
    (engine : Engine S Action (Action alphabet)) :
    stage.store.Does stage.functions
      ((Prompt.retag stage.tag (spec.executeReady options outcome)).run engine)
      fun more actions verdict => more = [] ∧ actions = [] ∧ stage.Answers need course calls verdict := by
  rcases Option.isSome_iff_exists.1 handles.1 with ⟨leaf, isLeaf⟩
  have gives := holds leaf isLeaf
  rcases outcome with (cause | payload) | value
  · cases isLeaf
  · cases isLeaf
    rw [RunSpec.simulate, Noted.map_value, Simulated.toList_ofOption] at gives
    rcases Option.isSome_iff_exists.1 (handles.2 _ rfl) with ⟨creator, given⟩
    have handled : spec.executeReady options (.error (.failed payload)) = (do
        let _ ← Prompt.perform (options.reportHandled (.failed payload))
        Verdict.ofAction (spec.failureAction (.failed payload))) := by
      rw [RunSpec.executeReady, given]
    rw [handled, Prompt.retag_bind, Prompt.run_bind]
    apply (does_reportHandled options (.failed payload) engine).bind
    intro earlier actions reply holds
    rcases holds with ⟨rfl, rfl⟩
    exact does_ofAction gives engine
  · cases isLeaf
    rw [RunSpec.simulate, Noted.map_value, Simulated.toList_ofOption] at gives
    exact does_ofAction gives engine

/-- A RUN calls its function when it is started. -/
theorem starts_run {spec : RunSpec S Action (Action child)} (options : Options)
    (immediate : spec.Immediate) (listed : stage.functions (spec.callee stage.tag)) (need : Nat) :
    stage.Starts need ((Cmd.run spec).Gives stage.tag) (spec.execute options) := by
  intro depth
  rw [RunSpec.execute, Prompt.retag_bind, Prompt.run_bind]
  apply (immediate.does listed _).bind
  intro calls actions output holds
  rcases holds with ⟨outcome, journal, rfl, rfl, rfl, handles, ends⟩
  apply (does_executeReady options handles _ _).mono
  · intro more actions verdict holds
    rcases holds with ⟨rfl, rfl, answers⟩
    exact ⟨rfl, answers⟩
  · intro leaf isLeaf
    exact ⟨leaf, .run ends isLeaf, rfl⟩

/-! ## What a list does with the actions of its commands -/

variable (stage) in
/-- What was reduced and what was produced together are what was given.  A batched list reduces nothing
itself, any other list produces nothing. -/
structure Shares (actions : List (Action alphabet)) (produced all : List (Action child)) : Prop where
  whole : actions ++ produced.map stage.image = all.map stage.image
  side : if stage.batch then actions = [] else produced = []

namespace Shares

variable {actions others : List (Action alphabet)} {produced further all rest : List (Action child)}

theorem nil : stage.Shares [] [] [] := ⟨rfl, by simp⟩

theorem append (first : stage.Shares actions produced all)
    (second : stage.Shares others further rest) :
    stage.Shares (actions ++ others) (produced ++ further) (all ++ rest) := by
  have whole := first.whole
  have wholeAgain := second.whole
  have side := first.side
  have sideAgain := second.side
  split at side
  next batched =>
      rw [if_pos batched] at sideAgain
      subst side sideAgain
      refine ⟨?_, by rw [if_pos batched]; rfl⟩
      rw [List.map_append, List.map_append, ← whole, ← wholeAgain]
      rfl
  next unbatched =>
      rw [if_neg unbatched] at sideAgain
      subst side sideAgain
      refine ⟨?_, by rw [if_neg unbatched]; rfl⟩
      simp only [List.map_nil, List.append_nil] at whole wholeAgain
      simp [whole, wholeAgain]

end Shares

variable (stage) in
/-- The reducer answers all actions that the command may give with bare states. -/
def Bare (course : Course S Action alphabet child) : Prop :=
  ∀ calls all, course calls all → ∀ action ∈ all, stage.store.Bare (stage.image action)

/-- Actions that were produced are among those that were given; they are reduced, and it goes on. -/
theorem finishes_sendProduced {depth : Nat} {answer : Answer ι}
    {next : Except CmdFailure Unit → Pending S Action (Action alphabet) answer}
    {post : List (Call S Action (Action alphabet)) → List (Action alphabet) → answer.Value Action → Prop}
    {actions : List (Action alphabet)} {produced all : List (Action child)}
    (bare : ∀ action ∈ all, stage.store.Bare (stage.image action))
    (whole : actions ++ produced.map stage.image = all.map stage.image)
    (finishes : stage.store.Finishes stage.functions (depth + 1) (next (.ok ())) fun calls others =>
      post calls (produced.map stage.image ++ others)) :
    stage.store.Finishes stage.functions (depth + 1)
      (.sendAll ((produced.map pure).map (· >>= stage.tag)) next) post := by
  have sent : ((produced.map pure).map (· >>= stage.tag)).map (·.value) =
      produced.map stage.image := by
    rw [List.map_map, List.map_map]
    rfl
  apply Store.Finishes.sendAll
  · intro action listed
    have inside : action.value ∈ all.map stage.image := by
      rw [← whole, ← sent]
      exact List.mem_append_right _ (List.mem_map_of_mem listed)
    rcases List.mem_map.1 inside with ⟨source, among, same⟩
    rw [← same]
    exact bare source among
  · rw [sent]
    exact finishes

/-! ## Sequential lists -/

variable (stage) in
/-- What a list adds to what it has collected so far, when the commands that are left come to their ends
after some calls. -/
def Adds (courses : List (Course S Action alphabet child))
    (before : List (Call S Action (Action alphabet))) (collected : List (Action child))
    (calls : List (Call S Action (Action alphabet))) (actions : List (Action alphabet))
    (result : Produced Action child) : Prop :=
  ∃ produced given, result = .ok (collected ++ produced) ∧ Portioned courses (before ++ calls) given ∧
    stage.Shares actions produced given.flatten

section Sequential

variable {rest : List (Start S Action child)} {courses : List (Course S Action alphabet child)}
variable {depth : Nat}

theorem Adds.cons {calls more : List (Call S Action (Action alphabet))}
    {actions others : List (Action alphabet)} {collected produced all : List (Action child)}
    {result : Produced Action child} (given : course calls all) (shares : stage.Shares actions produced all)
    (adds : stage.Adds courses [] (collected ++ produced) more others result) :
    stage.Adds (course :: courses) calls collected more (actions ++ others) result := by
  rcases adds with ⟨further, lists, rfl, portioned, rest⟩
  refine ⟨produced ++ further, all :: lists, ?_, .cons given portioned, shares.append rest⟩
  rw [List.append_assoc]

/-- The actions of a command arrive, and the list goes on. -/
theorem finishes_arrive
    (goesOn : ∀ collected, stage.store.Finishes stage.functions (depth + 1)
      (Pending.retag stage.tag (onward stage.batch rest collected)) (stage.Adds courses [] collected))
    {calls : List (Call S Action (Action alphabet))} {actions : List (Action alphabet)}
    {collected produced all : List (Action child)} (given : course calls all)
    (bare : ∀ action ∈ all, stage.store.Bare (stage.image action))
    (whole : actions ++ produced.map stage.image = all.map stage.image)
    (batched : stage.batch = true → actions = []) :
    stage.store.Finishes stage.functions (depth + 1)
      (Pending.retag stage.tag (arrive stage.batch (onward stage.batch rest) collected produced))
      fun more others => stage.Adds (course :: courses) calls collected more (actions ++ others) := by
  rw [arrive]
  split
  next batch =>
      apply (goesOn (collected ++ produced)).mono
      intro more others result adds
      exact adds.cons given ⟨whole, by rw [if_pos batch, batched batch]⟩
  next unbatched =>
      apply finishes_sendProduced bare whole
      apply (goesOn collected).mono
      intro more others result adds
      have shares : stage.Shares (actions ++ produced.map stage.image) [] all :=
        ⟨by rw [List.map_nil, List.append_nil, whole], by rw [if_neg unbatched]⟩
      rw [← List.append_assoc]
      rw [← List.append_nil collected] at adds
      exact adds.cons given shares

/-- A command has given its verdict; its actions arrive, and the list goes on. -/
theorem finishes_walk (enough : need ≤ depth + 1)
    (goesOn : ∀ collected, stage.store.Finishes stage.functions (depth + 1)
      (Pending.retag stage.tag (onward stage.batch rest collected)) (stage.Adds courses [] collected))
    {calls : List (Call S Action (Action alphabet))} (bare : stage.Bare course)
    {verdict : Verdict S Action (Action child) child} (answers : stage.Answers need course calls verdict)
    (collected : List (Action child)) :
    stage.store.Finishes stage.functions (depth + 1)
      (Pending.retag stage.tag (walk stage.batch rest collected verdict))
      (stage.Adds (course :: courses) calls collected) := by
  rw [walk_eq]
  rcases verdict with cause | _ | follow
  · exact answers.elim
  · exact finishes_arrive goesOn answers (bare _ _ answers) rfl fun _ => rfl
  · dsimp only
    rw [FollowUp.retag_andThen]
    apply (answers (depth + 1) enough).bind
    intro more actions result holds
    rcases holds with ⟨given, whole, -, batched⟩
    apply (finishes_arrive goesOn given (bare _ _ given) whole batched).mono
    intro later others result holds
    rcases holds with ⟨produced, lists, rfl, portioned, shares⟩
    rw [List.append_assoc] at portioned
    exact ⟨produced, lists, rfl, portioned, shares⟩

/-- The commands that are left are started one after the other. -/
theorem finishes_onward (enough : need ≤ depth + 1)
    (starts : List.Forall₂ (fun start course => stage.Starts need course start) rest courses)
    (bare : ∀ course ∈ courses, stage.Bare course) (collected : List (Action child)) :
    stage.store.Finishes stage.functions (depth + 1)
      (Pending.retag stage.tag (onward stage.batch rest collected))
      (stage.Adds courses [] collected) := by
  induction starts generalizing collected with
  | nil => exact .done ⟨[], [], by rw [List.append_nil], .nil, .nil⟩
  | cons first _ ih =>
      rw [List.forall_mem_cons] at bare
      rw [onward, Prompt.retag_thenPending]
      apply Store.Finishes.thenPending (first (depth + 1))
      intro calls actions verdict holds
      rcases holds with ⟨rfl, answers⟩
      exact finishes_walk enough (ih bare.2) bare.1 answers collected

/-- A sequential list starts its first command in the call. -/
theorem starts_inOrder (positive : 0 < need)
    (starts : List.Forall₂ (fun start course => stage.Starts need course start) rest courses)
    (bare : ∀ course ∈ courses, stage.Bare course) (inOrder : stage.sequence = true) :
    stage.Starts need (.concat courses) (startInOrder stage.batch rest) := by
  intro depth
  cases starts with
  | nil => exact .pure ⟨rfl, [], .nil, rfl⟩
  | @cons head course rest courses first others =>
      rw [List.forall_mem_cons] at bare
      rw [startInOrder, Prompt.retag_bind, Prompt.run_bind]
      apply (first depth).bind
      intro calls actions verdict holds
      rcases holds with ⟨rfl, answers⟩
      refine .pure ⟨rfl, ?_⟩
      intro depth enough
      obtain ⟨depth, rfl⟩ : ∃ smaller, depth = smaller + 1 := ⟨depth - 1, by omega⟩
      apply (finishes_walk enough (finishes_onward enough others bare.2) bare.1 answers []).mono
      intro more actions result holds
      rcases holds with ⟨produced, given, rfl, portioned, shares⟩
      rw [List.append_nil]
      refine .intro ⟨given, portioned, rfl⟩ shares.whole ?_ ?_
      · intro parallel
        rw [inOrder] at parallel
        cases parallel
      · intro batched
        simpa [batched] using shares.side

end Sequential

/-! ## Parallel lists -/

section Parallel

variable {starts : List (Start S Action child)} {courses : List (Course S Action alphabet child)}
variable {depth : Nat}

/-- All commands are started, one after the other. -/
theorem does_mapM
    (each : List.Forall₂ (fun start course => stage.Starts need course start) starts courses)
    (depth : Nat) :
    stage.store.Does stage.functions
      (((starts.map (Prompt.retag stage.tag)).mapM id).run ((Host.store stage.store).engine depth))
      fun calls actions verdicts =>
        actions = [] ∧ Portioned (courses.map fun course => stage.Answers need course) calls verdicts := by
  induction each with
  | nil => exact .pure ⟨rfl, .nil⟩
  | cons first _ ih =>
      rw [List.map_cons, List.mapM_cons, Prompt.run_bind]
      apply (first depth).bind
      intro calls actions verdict holds
      rcases holds with ⟨rfl, answers⟩
      rw [Prompt.run_bind]
      apply ih.bind
      intro more actions verdicts holds
      rcases holds with ⟨rfl, others⟩
      apply Store.Does.pure
      rw [List.append_nil more]
      exact ⟨rfl, .cons answers others⟩

variable (stage) in
/-- What a sibling has come to: it has kept its actions for the list, or they were reduced. -/
def Kept (course : Course S Action alphabet child) (actions : List (Action alphabet))
    (result : Produced Action child) : Prop :=
  ∃ produced all, result = .ok produced ∧ course [] all ∧ stage.Shares actions produced all

/-- The actions of a sibling are kept or dispatched. -/
theorem finishes_sibling (positive : 0 < depth) (enough : need ≤ depth) (bare : stage.Bare course)
    (parallel : stage.sequence = false) {follow : FollowUp S Action (Action child) child}
    (follows : stage.Follows need course follow) :
    stage.store.Finishes stage.functions depth
      (Pending.retag stage.tag (if stage.batch then follow else follow.dispatched))
      fun calls actions result => calls = [] ∧ stage.Kept course actions result := by
  split
  next batch =>
      apply (follows depth enough).mono
      intro calls actions result holds
      rcases holds with ⟨given, whole, silent, batched⟩
      cases silent parallel
      exact ⟨rfl, _, _, rfl, given, whole, by rw [if_pos batch, batched batch]⟩
  next unbatched =>
      obtain ⟨depth, rfl⟩ : ∃ smaller, depth = smaller + 1 := ⟨depth - 1, by omega⟩
      rw [FollowUp.dispatched, FollowUp.retag_andThen]
      apply (follows (depth + 1) enough).bind
      intro calls actions result holds
      rcases holds with ⟨given, whole, silent, -⟩
      cases silent parallel
      apply finishes_sendProduced (bare _ _ given) whole
      refine .done ⟨rfl, [], _, rfl, given, ?_, by rw [if_neg unbatched]⟩
      rw [← whole, List.map_nil, List.append_nil, List.append_nil]

variable (stage) in
/-- Whatever the siblings keep and reduce, the list comes to what its commands give. -/
def Collects (courses : List (Course S Action alphabet child))
    (calls : List (Call S Action (Action alphabet)))
    (posts : List (List (Action alphabet) → Produced Action child → Prop)) : Prop :=
  ∀ actions results, Portioned posts actions results →
    ∃ produced given : List (List (Action child)), results = produced.map .ok ∧
      Portioned courses calls given ∧ stage.Shares actions produced.flatten given.flatten

namespace Collects

variable {early late : List (Call S Action (Action alphabet))}
variable {posts : List (List (Action alphabet) → Produced Action child → Prop)}

theorem nil : stage.Collects [] [] [] := by
  intro actions results portioned
  cases portioned
  exact ⟨[], [], rfl, .nil, .nil⟩

/-- A command that gives nothing. -/
theorem skip (collects : stage.Collects courses late posts) (given : course early []) :
    stage.Collects (course :: courses) (early ++ late) posts := by
  intro actions results portioned
  rcases collects actions results portioned with ⟨produced, lists, rfl, parts, shares⟩
  exact ⟨produced, [] :: lists, rfl, .cons given parts, shares⟩

theorem cons (collects : stage.Collects courses late posts) :
    stage.Collects (course :: courses) (early ++ late)
      (stage.Kept (fun more => course (early ++ more)) :: posts) := by
  intro actions results portioned
  cases portioned with
  | @cons _ reduced result _ rest results holds others =>
  rcases holds with ⟨produced, all, rfl, given, shares⟩
  rcases collects rest results others with ⟨further, lists, rfl, parts, more⟩
  rw [List.append_nil] at given
  exact ⟨produced :: further, all :: lists, rfl, .cons given parts, shares.append more⟩

end Collects

/-- Siblings without a follow-up give nothing; the others come to their ends when they are polled. -/
theorem exists_siblings (positive : 0 < need) (parallel : stage.sequence = false)
    (bare : ∀ course ∈ courses, stage.Bare course) {calls : List (Call S Action (Action alphabet))}
    {verdicts : List (Verdict S Action (Action child) child)}
    (answers : Portioned (courses.map fun course => stage.Answers need course) calls verdicts) :
    ∃ posts, List.Forall₂ (fun follow post => ∀ depth, need ≤ depth →
        stage.store.Finishes stage.functions depth (Pending.retag stage.tag follow)
          fun calls actions result => calls = [] ∧ post actions result)
        (siblings stage.batch verdicts) posts ∧
      stage.Collects courses calls posts := by
  induction courses generalizing calls verdicts with
  | nil =>
      cases answers
      exact ⟨[], .nil, .nil⟩
  | cons course courses ih =>
      rw [List.forall_mem_cons] at bare
      cases answers with
      | @cons _ early verdict _ late verdicts first others =>
      rcases ih bare.2 others with ⟨posts, finish, collects⟩
      rcases verdict with cause | _ | follow
      · exact first.elim
      · exact ⟨posts, finish, collects.skip first⟩
      · have bareLater : stage.Bare fun more => course (early ++ more) :=
          fun more all given => bare.1 _ all given
        have finishes (depth) (enough : need ≤ depth) :=
          finishes_sibling (positive.trans_le enough) enough bareLater parallel first
        exact ⟨_ :: posts, .cons finishes finish, collects.cons⟩

/-- Once all siblings are over, the list is over. -/
theorem follows_all {calls : List (Call S Action (Action alphabet))}
    {posts : List (List (Action alphabet) → Produced Action child → Prop)}
    {follows : List (FollowUp S Action (Action child) child)}
    (finish : List.Forall₂ (fun follow post => ∀ depth, need ≤ depth →
      stage.store.Finishes stage.functions depth (Pending.retag stage.tag follow)
        fun calls actions result => calls = [] ∧ post actions result) follows posts)
    (collects : stage.Collects courses calls posts) :
    stage.Follows (need + 1) (fun more => Course.concat courses (calls ++ more)) (.all follows) := by
  intro depth enough
  obtain ⟨depth, rfl⟩ : ∃ smaller, depth = smaller + 1 := ⟨depth - 1, by omega⟩
  rw [← List.ofFn_get follows] at finish
  rcases exists_ofFn_of_forall₂ finish with ⟨family, rfl, each⟩
  apply Store.Finishes.join (fun index near le => each index near (by omega))
  intro actions results portioned
  rcases collects actions _ portioned with ⟨produced, given, same, parts, shares⟩
  change stage.store.Finishes _ _
    (.done (FollowUp.collect results) : FollowUp S Action (Action alphabet) child) _
  rw [FollowUp.collect_of_ofFn same]
  rw [← List.append_nil calls] at parts
  refine .done (.intro ⟨given, parts, rfl⟩ ?_ (fun _ => rfl) ?_)
  · rw [List.append_nil]
    exact shares.whole
  · intro batched
    simpa [batched] using shares.side

/-- A parallel list starts all of its commands in the call. -/
theorem starts_together (positive : 0 < need)
    (each : List.Forall₂ (fun start course => stage.Starts need course start) starts courses)
    (bare : ∀ course ∈ courses, stage.Bare course) (parallel : stage.sequence = false) :
    stage.Starts (need + 1) (.concat courses) (startTogether stage.batch starts) := by
  intro depth
  rw [startTogether, Prompt.retag_bind, Prompt.retag_mapM, Prompt.run_bind]
  apply (does_mapM each depth).bind
  intro calls actions verdicts holds
  rcases holds with ⟨rfl, answers⟩
  rcases exists_siblings positive parallel bare answers with ⟨posts, finish, collects⟩
  split
  next nothing =>
      rw [nothing] at finish
      cases finish
      rcases collects [] [] .nil with ⟨produced, given, same, portioned, shares⟩
      have none : given.flatten = [] := by
        have whole := shares.whole
        rw [List.map_eq_nil_iff.1 same.symm] at whole
        exact List.map_eq_nil_iff.1 whole.symm
      rw [← List.append_nil calls] at portioned
      exact .pure ⟨rfl, given, portioned, none.symm⟩
  next found some =>
      rw [← List.append_nil calls] at collects
      exact .pure ⟨rfl, follows_all finish collects⟩

end Parallel

/-! ## Tagged commands -/

section Tagged

variable (stage) in
/-- The stage of a command whose actions are tagged first. -/
def tagged (tagger : Action grandchild → Noted (Action child)) : Stage S Action alphabet grandchild :=
  ⟨stage.store, stage.functions, fun action => tagger action >>= stage.tag, stage.sequence,
    stage.batch⟩

variable {tagger : Action grandchild → Noted (Action child)}
variable {inner : Course S Action alphabet grandchild}

/-- What a tagged command gives. -/
def Course.tagged (inner : Course S Action alphabet grandchild)
    (tagger : Action grandchild → Noted (Action child)) : Course S Action alphabet child :=
  fun calls all => ∃ found, inner calls found ∧ all = found.map fun action => (tagger action).value

theorem Follows.tagged {follow : FollowUp S Action (Action grandchild) grandchild}
    (follows : (stage.tagged tagger).Follows need inner follow) :
    stage.Follows need (inner.tagged tagger) (follow.tagged tagger) := by
  intro depth enough
  rw [FollowUp.tagged, FollowUp.retag_andThen, Pending.retag_retag]
  apply (follows depth enough).bind
  intro calls actions result holds
  rcases holds with ⟨given, whole, silent, batched⟩
  change stage.store.Finishes _ _ (Pending.retag stage.tag (.withNoted _ FollowUp.now)) _
  rw [Pending.retag_withNoted]
  apply Store.Finishes.withNoted
  rw [Noted.mapM_value]
  have gives : inner.tagged tagger calls _ := ⟨_, given, rfl⟩
  apply Store.Finishes.done
  rw [List.append_nil, List.append_nil]
  refine .intro gives ?_ silent batched
  rw [List.map_map, List.map_map]
  exact whole

/-- A tagged command sends tagged actions, and its verdict is tagged. -/
theorem Starts.tagged {start : Start S Action grandchild}
    (starts : (stage.tagged tagger).Starts need inner start) :
    stage.Starts need (inner.tagged tagger) (Verdict.tagged tagger <$> Prompt.retag tagger start) := by
  intro depth
  rw [Prompt.retag_map, Prompt.retag_retag, map_eq_pure_bind, Prompt.run_bind]
  apply (starts depth).bind
  intro calls actions verdict holds
  rcases holds with ⟨rfl, answers⟩
  refine .pure ⟨rfl, ?_⟩
  rw [List.append_nil]
  rcases verdict with cause | _ | follow
  · exact answers
  · exact ⟨[], answers, rfl⟩
  · exact Follows.tagged answers

end Tagged

end Stage

end EffectLoop
