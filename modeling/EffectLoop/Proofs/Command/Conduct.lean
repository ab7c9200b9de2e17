import EffectLoop.Proofs.Command.Outcome

/-!
# The conduct of modest commands

Starting a modest command, and what follows, meets its terms.  It never fails, as long as what it
sends comes to a good end; if all of its lists are batched it sends nothing, and if its RUNs come to an
end so does the command.
-/

namespace EffectLoop

variable {S ι : Type} {Action : ι → Type} {A : Type} {alphabet child : ι}

/-- Terms of a command that relies on a good end of what it sends. -/
def Terms.modest (sends endless : Prop) : Terms S Action A :=
  .fresh sends endless fun reply => reply = .ok ()

theorem Terms.quiet_le_modest (sends endless : Prop) :
    Terms.Le (.quiet endless : Terms S Action A) (.modest sends endless) :=
  ⟨False.elim, id, fun _ _ => trivial, fun _ => False.elim⟩

/-- The follow-up meets the terms, and it produces actions. -/
def FollowUp.Proper (sends endless : Prop) (follow : FollowUp S Action A alphabet) : Prop :=
  Pending.Meets (.modest sends endless)
    (fun result : Except CmdFailure (List (Action alphabet)) => ∃ actions, result = .ok actions) follow

/-- The verdict is no error, and what follows is proper. -/
def Verdict.Proper (sends endless : Prop) : Verdict S Action A alphabet → Prop
  | .error _ => False
  | .ok none => True
  | .ok (some follow) => follow.Proper sends endless

/-- Starting meets the terms, with a proper verdict. -/
def Start.Proper (sends endless : Prop) (start : Start S Action alphabet) : Prop :=
  start.Meets (.modest sends endless) (Verdict.Proper sends endless)

variable {sends endless : Prop}

namespace FollowUp

theorem proper_now (actions : List (Action alphabet)) :
    (now actions : FollowUp S Action A alphabet).Proper sends endless :=
  ⟨actions, rfl⟩

theorem Proper.andThen {first : FollowUp S Action A child}
    {after : List (Action child) → FollowUp S Action A alphabet} (proper : first.Proper sends endless)
    (afterProper : ∀ actions, (after actions).Proper sends endless) :
    (first.andThen after).Proper sends endless := by
  apply Pending.Meets.bind proper
  rintro result ⟨actions, rfl⟩
  exact afterProper actions

theorem Proper.retag {tagger : Action child → Noted (Action alphabet)} {grandchild : ι}
    {first : FollowUp S Action (Action child) grandchild} (proper : first.Proper sends endless) :
    FollowUp.Proper sends endless (Pending.retag tagger first) :=
  Pending.Meets.retag tagger proper

theorem Proper.tagged {tagger : Action child → Noted (Action alphabet)}
    {first : FollowUp S Action (Action child) child} (proper : first.Proper sends endless) :
    (first.tagged tagger).Proper sends endless :=
  proper.retag.andThen fun _ => Pending.Meets.withNoted (proper_now _)

theorem proper_sendAll {actions : List (Noted A)}
    {next : Except CmdFailure Unit → FollowUp S Action A alphabet} (may : sends)
    (nextProper : (next (.ok ())).Proper sends endless) :
    FollowUp.Proper sends endless (Pending.sendAll actions next) := by
  refine ⟨may, ?_⟩
  rintro reply rfl
  exact nextProper

theorem Proper.dispatched {first : FollowUp S Action (Action alphabet) alphabet} (may : sends)
    (proper : first.Proper sends endless) : first.dispatched.Proper sends endless :=
  proper.andThen fun _ => proper_sendAll may (proper_now [])

theorem collect_of_ofFn {count : Nat} {results : Fin count → Produced Action alphabet}
    {lists : List (List (Action alphabet))} (same : List.ofFn results = lists.map .ok) :
    collect results = .ok lists.flatten := by
  have every (lists : List (List (Action alphabet))) :
      (lists.map (Except.ok : _ → Produced Action alphabet)).mapM id = .ok lists := by
    induction lists with
    | nil => rfl
    | cons first rest ih =>
        rw [List.map_cons, List.mapM_cons, ih]
        rfl
  rw [collect, same, every]
  rfl

theorem collect_ok {count : Nat} (actions : Fin count → List (Action alphabet)) :
    collect (fun index => .ok (actions index)) = .ok (List.ofFn actions).flatten := by
  apply collect_of_ofFn
  rw [List.map_ofFn]
  rfl

/-- Waiting for proper siblings is proper. -/
theorem proper_all {found : List (FollowUp S Action A alphabet)}
    (each : ∀ sibling ∈ found, sibling.Proper sends endless) : (all found).Proper sends endless := by
  refine ⟨fun _ result => ∃ actions, result = .ok actions, ?_, ?_⟩
  · intro index
    exact each _ (List.get_mem ..)
  · intro results produced
    choose actions same using produced
    rw [funext same]
    exact ⟨_, collect_ok actions⟩

end FollowUp

/-! ## Running a function -/

namespace RunSpec

variable {options : Options} {spec : RunSpec S Action (Action alphabet)}

theorem proper_ofAction (found : Noted (Option (Action alphabet))) :
    Start.Proper sends endless (Verdict.ofAction found : Start S Action alphabet) := by
  have noted : (Prompt.ofNoted found : Prompt S Action (Action alphabet) _).Meets
      (.modest sends endless) fun _ => True := Prompt.Meets.ofNoted trivial
  apply Prompt.Meets.bind noted
  intro value _
  cases value with
  | none => exact trivial
  | some action => exact FollowUp.proper_now [action]

theorem proper_handledLog {cause : RunFailure}
    {next : FollowUp S Action (Action alphabet) alphabet} (proper : next.Proper sends endless) :
    FollowUp.Proper sends endless (handledLog options cause next) :=
  fun _ => proper

theorem proper_settle (outcome : Except RunFailure Json) :
    FollowUp.Proper sends endless (spec.settle options outcome) := by
  rcases outcome with cause | value
  · rw [settle]
    cases spec.onFail with
    | none => exact fun _ => FollowUp.proper_now []
    | some creator => exact proper_handledLog (Pending.Meets.withNoted (FollowUp.proper_now _))
  · rw [settle]
    exact Pending.Meets.withNoted (FollowUp.proper_now _)

theorem proper_executeReady {outcome : Except RunFailure Json}
    (creators : ∀ cause, outcome = .error cause → spec.onFail.isSome) :
    Start.Proper sends endless (spec.executeReady options outcome) := by
  rcases outcome with cause | value
  · rcases Option.isSome_iff_exists.1 (creators cause rfl) with ⟨creator, found⟩
    rw [executeReady, found]
    exact fun _ => proper_ofAction _
  · exact proper_ofAction _

theorem quiet_detached {later : Pending S Action (Action alphabet) .outcome} (quiet : later.Quiet) :
    (detached later).Quiet := by
  apply Pending.Meets.bind quiet
  intro outcome _
  exact fun _ => trivial

theorem proper_executeDeferred {later : Pending S Action (Action alphabet) .outcome}
    (expected : spec.Expects endless (.deferred later)) :
    Start.Proper sends endless (spec.executeDeferred options later) := by
  unfold executeDeferred
  rw [Expects] at expected
  cases forced : spec.forceSync with
  | true =>
      rw [forced, if_pos rfl] at expected
      exact ⟨quiet_detached expected, proper_ofAction _⟩
  | false =>
      rw [forced, if_neg Bool.false_ne_true] at expected
      apply Pending.Meets.bind (expected.mono (Terms.quiet_le_modest sends endless) fun _ => id)
      intro outcome _
      exact proper_settle outcome

/-- Executing a modest RUN is proper, and it sends nothing. -/
theorem Modest.proper (modest : spec.Modest endless) :
    Start.Proper sends endless (spec.execute options) := by
  have meets := Prompt.Meets.mono modest (Terms.quiet_le_modest sends endless) fun _ => id
  apply Prompt.Meets.bind meets
  intro output expected
  cases output with
  | ready outcome => exact proper_executeReady expected.2
  | deferred later => exact proper_executeDeferred expected

end RunSpec

/-! ## Lists -/

section Lists

variable {batch : Bool} {starts : List (Start S Action alphabet)}
variable (may : batch = false → sends)
include may

theorem proper_siblings {verdicts : List (Verdict S Action (Action alphabet) alphabet)}
    (each : ∀ verdict ∈ verdicts, Verdict.Proper sends endless verdict) :
    ∀ sibling ∈ siblings batch verdicts, FollowUp.Proper sends endless sibling := by
  intro sibling listed
  rcases List.mem_filterMap.1 listed with ⟨verdict, among, found⟩
  have proper := each verdict among
  rcases verdict with cause | _ | follow
  · exact proper.elim
  · cases found
  · cases found
    cases batch with
    | true => exact proper
    | false => exact FollowUp.Proper.dispatched (may rfl) proper

theorem proper_startTogether (each : ∀ start ∈ starts, Start.Proper sends endless start) :
    Start.Proper sends endless (startTogether batch starts) := by
  have opened : (starts.mapM id).Meets (.modest sends endless) fun verdicts =>
      ∀ verdict ∈ verdicts, Verdict.Proper sends endless verdict := by
    induction starts with
    | nil => exact fun _ within => absurd within List.not_mem_nil
    | cons start rest ih =>
        rw [List.mapM_cons]
        apply Prompt.Meets.bind (each start (List.mem_cons_self ..))
        intro verdict proper
        apply Prompt.Meets.bind (ih fun other within => each other (List.mem_cons_of_mem _ within))
        intro others proper' other within
        rcases List.mem_cons.1 within with rfl | within
        · exact proper
        · exact proper' other within
  apply Prompt.Meets.bind opened
  intro verdicts proper
  have siblingsProper := proper_siblings may proper
  cases found : siblings batch verdicts with
  | nil => exact trivial
  | cons sibling rest =>
      rw [found] at siblingsProper
      exact FollowUp.proper_all siblingsProper

theorem proper_arrive
    {onward : List (Action alphabet) → FollowUp S Action (Action alphabet) alphabet}
    (onwardProper : ∀ collected, (onward collected).Proper sends endless)
    (collected actions : List (Action alphabet)) :
    FollowUp.Proper sends endless (arrive batch onward collected actions) := by
  cases batch with
  | true => exact onwardProper _
  | false => exact FollowUp.proper_sendAll (may rfl) (onwardProper collected)

theorem proper_walk_of_onward {rest : List (Start S Action alphabet)}
    (onwardProper : ∀ collected, (onward batch rest collected).Proper sends endless)
    (collected : List (Action alphabet)) {verdict : Verdict S Action (Action alphabet) alphabet}
    (proper : Verdict.Proper sends endless verdict) :
    FollowUp.Proper sends endless (walk batch rest collected verdict) := by
  rw [walk_eq]
  rcases verdict with cause | _ | follow
  · exact proper.elim
  · exact proper_arrive may onwardProper collected []
  · exact FollowUp.Proper.andThen proper (proper_arrive may onwardProper collected)

theorem proper_onward {rest : List (Start S Action alphabet)}
    (each : ∀ start ∈ rest, Start.Proper sends endless start) (collected : List (Action alphabet)) :
    FollowUp.Proper sends endless (onward batch rest collected) := by
  induction rest generalizing collected with
  | nil => exact FollowUp.proper_now collected
  | cons next later ih =>
      apply Prompt.Meets.thenPending (each next (List.mem_cons_self ..))
      intro verdict proper
      have goesOn := ih fun other within => each other (List.mem_cons_of_mem _ within)
      exact proper_walk_of_onward may goesOn collected proper

theorem proper_startInOrder (each : ∀ start ∈ starts, Start.Proper sends endless start) :
    Start.Proper sends endless (startInOrder batch starts) := by
  cases starts with
  | nil => exact trivial
  | cons head rest =>
      apply Prompt.Meets.bind (each head (List.mem_cons_self ..))
      intro verdict proper
      have goesOn := proper_onward may fun other within => each other (List.mem_cons_of_mem _ within)
      exact proper_walk_of_onward may goesOn [] proper

end Lists

/-! ## Commands -/

theorem Verdict.Proper.tagged {tagger : Action child → Noted (Action alphabet)}
    {verdict : Verdict S Action (Action child) child} (proper : Verdict.Proper sends endless verdict) :
    Verdict.Proper sends endless (Verdict.tagged tagger verdict) := by
  rcases verdict with cause | _ | follow
  · exact proper.elim
  · exact trivial
  · exact FollowUp.Proper.tagged proper

/-- Executing a modest command is proper.  It may send only if one of its lists is not batched. -/
theorem Cmd.Modest.proper {batches : Bool → Prop} {options : Options} {cmd : Cmd S Action alphabet}
    (modest : cmd.Modest endless batches) (may : batches false → sends) :
    Start.Proper sends endless (cmd.execute options) := by
  induction cmd with
  | none => exact trivial
  | action sent => exact FollowUp.proper_now [sent]
  | run spec => exact RunSpec.Modest.proper modest
  | list cmds sequence batch ih =>
      have each : ∀ start ∈ List.ofFn fun index => (cmds index).execute options,
          Start.Proper sends endless start := by
        intro start listed
        rcases List.mem_ofFn.1 listed with ⟨index, rfl⟩
        exact ih index (modest.2 index)
      have flag (unbatched : batch = false) : sends := may (unbatched ▸ modest.1)
      cases sequence with
      | false => exact proper_startTogether flag each
      | true => exact proper_startInOrder flag each
  | map nested tagger args ih =>
      rw [execute_map, map_eq_pure_bind]
      apply Prompt.Meets.bind ((ih modest).retag (tagger args))
      intro verdict proper
      exact Verdict.Proper.tagged proper
  | scheduled => exact modest.elim

end EffectLoop
