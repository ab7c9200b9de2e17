import EffectLoop.Proofs.Command.Completion
import EffectLoop.Proofs.Command.Readiness

/-!
# Flattening lists

A list within a list with the same flags can be replaced by its elements.  In a context that answers
dispatches at once, and if all outcomes are known in the calls, nothing tells the difference: the same
functions are called in the same order, the same actions are dispatched in the same order, and the
outcome is the same, be it the actions that are produced or the first failure.

An element of a list *contributes* what it produces, or a failure; without `batch` its actions are
dispatched instead, and nothing is left of them.  A sequential list is a fold of these contributions, and
a parallel one collects them after all starts.  Either way, what an inner list contributes is what its
elements contribute.
-/

namespace EffectLoop

variable {S ι : Type} {Action : ι → Type} {alphabet : ι}
variable (reply : Action alphabet → Except CmdFailure Unit) (batch : Bool)

/-! ## What an element contributes -/

/-- What becomes of the actions of an element: they are kept, or they are dispatched and none is left. -/
def Produced.delivered :
    Produced Action alphabet → Prompt S Action (Action alphabet) (Produced Action alphabet)
  | .error cause => pure (.error cause)
  | .ok actions =>
      if batch then pure (.ok actions)
      else do
        Prompt.sendEach (actions.map pure)
        pure ((fun _ => []) <$> Pending.replied reply (actions.map pure))

/-- Nothing is left of the actions, unless they are kept. -/
def Produced.Settled (produced : Produced Action alphabet) : Prop :=
  batch = false → ∀ actions, produced = .ok actions → actions = []

/-- What an element contributes, when it has given its verdict. -/
def Verdict.contribution (verdict : Verdict S Action (Action alphabet) alphabet) :
    Prompt S Action (Action alphabet) (Produced Action alphabet) :=
  Pending.straight reply verdict.followUp >>= Produced.delivered reply batch

/-- What an element contributes. -/
def Start.contribution (start : Start S Action alphabet) :
    Prompt S Action (Action alphabet) (Produced Action alphabet) :=
  start.straight reply >>= Produced.delivered reply batch

theorem Start.contribution_eq (start : Start S Action alphabet) :
    start.contribution reply batch = start >>= Verdict.contribution reply batch :=
  Prompt.bind_assoc ..

/-- The actions of both, or the first failure. -/
def Produced.append (first second : Produced Action alphabet) : Produced Action alphabet := do
  pure ((← first) ++ (← second))

namespace Produced

theorem append_assoc (first second third : Produced Action alphabet) :
    (first.append second).append third = first.append (second.append third) := by
  cases first with
  | error cause => rfl
  | ok actions =>
      cases second with
      | error cause => rfl
      | ok others =>
          cases third with
          | error cause => rfl
          | ok more => exact congrArg Except.ok (List.append_assoc actions others more)

theorem nil_append (produced : Produced Action alphabet) : append (.ok []) produced = produced := by
  cases produced <;> rfl

/-- Everything that was contributed, or the first failure. -/
def all (contributed : List (Produced Action alphabet)) : Produced Action alphabet :=
  List.flatten <$> contributed.mapM id

theorem all_cons (first : Produced Action alphabet) (rest : List (Produced Action alphabet)) :
    all (first :: rest) = first.append (all rest) := by
  rw [all, all, List.mapM_cons]
  cases first with
  | error cause => rfl
  | ok actions => cases rest.mapM id <;> rfl

theorem all_append (first second : List (Produced Action alphabet)) :
    all (first ++ second) = (all first).append (all second) := by
  induction first with
  | nil => exact (nil_append _).symm
  | cons one rest ih => rw [List.cons_append, all_cons, ih, all_cons, append_assoc]

/-! ### Delivery -/

variable {batch}

theorem Settled.append {first second : Produced Action alphabet} (settled : first.Settled batch)
    (others : second.Settled batch) : (first.append second).Settled batch := by
  intro dispatched found same
  cases first with
  | error cause => cases same
  | ok actions =>
      cases second with
      | error cause => cases same
      | ok more =>
          cases same
          rw [settled dispatched actions rfl, others dispatched more rfl]
          rfl

theorem settled_nil : Settled batch (.ok [] : Produced Action alphabet) := by
  intro _ actions same
  cases same
  rfl

theorem Settled.all {contributed : List (Produced Action alphabet)}
    (settled : ∀ produced ∈ contributed, produced.Settled batch) :
    (Produced.all contributed).Settled batch := by
  induction contributed with
  | nil => exact settled_nil
  | cons first rest ih =>
      rw [List.forall_mem_cons] at settled
      rw [all_cons]
      exact settled.1.append (ih settled.2)

theorem within_delivered (produced : Produced Action alphabet) :
    (delivered reply batch produced : Prompt S Action (Action alphabet) _).Within .lax
      (Settled batch) := by
  cases produced with
  | error cause => exact fun _ => nofun
  | ok actions =>
      cases batch with
      | true => exact fun kept => nomatch kept
      | false =>
          apply (Prompt.within_lax (Prompt.sendEach (actions.map pure))).bind
          intro _ _
          change Settled false (_ <$> Pending.replied reply (actions.map pure))
          cases Pending.replied reply (actions.map pure) with
          | error cause => exact fun _ => nofun
          | ok => exact settled_nil

/-- What was delivered has nothing left to deliver. -/
theorem Settled.delivered_eq {produced : Produced Action alphabet} (settled : produced.Settled batch) :
    (delivered reply batch produced : Prompt S Action (Action alphabet) _) = pure produced := by
  cases produced with
  | error cause => rfl
  | ok actions =>
      cases batch with
      | true => rfl
      | false =>
          rw [settled rfl actions rfl]
          rfl

end Produced

/-! ## Sequential lists -/

/-- Go on after the actions, unless there is a failure. -/
def Produced.followedBy (next : Prompt S Action (Action alphabet) (Produced Action alphabet)) :
    Produced Action alphabet → Prompt S Action (Action alphabet) (Produced Action alphabet)
  | .error cause => pure (.error cause)
  | .ok actions => (Produced.append (.ok actions) ·) <$> next

theorem Produced.followedBy_bind
    {first next : Prompt S Action (Action alphabet) (Produced Action alphabet)}
    (produced : Produced Action alphabet) :
    produced.followedBy first >>= followedBy next = produced.followedBy (first >>= followedBy next) := by
  cases produced with
  | error cause => rfl
  | ok actions =>
      change ((append (.ok actions) ·) <$> first) >>= followedBy next =
        (append (.ok actions) ·) <$> (first >>= followedBy next)
      rw [map_eq_pure_bind, map_eq_pure_bind, bind_assoc, bind_assoc]
      congr 1
      funext others
      rw [pure_bind, ← map_eq_pure_bind]
      cases others with
      | error cause => rfl
      | ok more =>
          change (append (.ok (actions ++ more)) ·) <$> next = _ <$> (append (.ok more) ·) <$> next
          rw [Functor.map_map]
          congr 1
          funext third
          exact append_assoc (.ok actions) (.ok more) third

/-- The commands contribute one after the other, and none does after the first failure. -/
def Start.inOrder : List (Start S Action alphabet) →
    Prompt S Action (Action alphabet) (Produced Action alphabet)
  | [] => pure (.ok [])
  | start :: rest => start.contribution reply batch >>= Produced.followedBy (inOrder rest)

namespace Start

variable {batch}

theorem inOrder_append (first second : List (Start S Action alphabet)) :
    inOrder reply batch (first ++ second) =
      inOrder reply batch first >>= Produced.followedBy (inOrder reply batch second) := by
  induction first with
  | nil =>
      change _ = (Produced.append (.ok []) ·) <$> inOrder reply batch second
      simp only [Produced.nil_append, id_map']
      rfl
  | cons start rest ih =>
      rw [List.cons_append, inOrder, ih, inOrder, bind_assoc]
      simp only [Produced.followedBy_bind]

theorem within_inOrder (starts : List (Start S Action alphabet)) :
    (inOrder reply batch starts).Within .lax (Produced.Settled batch) := by
  induction starts with
  | nil => exact Produced.settled_nil
  | cons start rest ih =>
      have first : (start.contribution reply batch).Within .lax (Produced.Settled batch) := by
        apply (Prompt.within_lax (start.straight reply)).bind
        intro produced _
        exact Produced.within_delivered reply produced
      apply first.bind
      intro produced settled
      cases produced with
      | error cause => exact fun _ => nofun
      | ok actions => exact ih.map fun others settledOthers => settled.append settledOthers

/-- An inner list contributes what its elements contribute. -/
theorem contribution_of_inOrder {start : Start S Action alphabet}
    {starts : List (Start S Action alphabet)}
    (straight : start.straight reply = inOrder reply batch starts) :
    start.contribution reply batch = inOrder reply batch starts := by
  rw [contribution, straight,
    (within_inOrder reply starts).bind_congr fun _ settled => settled.delivered_eq reply]
  exact bind_pure _

/-- The actions of a command arrive, and the list goes on. -/
theorem straight_arrive {later : List (Start S Action alphabet)}
    (onwards : ∀ collected, Pending.straight reply (onward batch later collected) =
      (Produced.append (.ok collected) ·) <$> inOrder reply batch later)
    (collected actions : List (Action alphabet)) :
    Pending.straight reply (arrive batch (onward batch later) collected actions) =
      Produced.delivered reply batch (.ok actions) >>= fun left =>
        (Produced.append (.ok collected) ·) <$> left.followedBy (inOrder reply batch later) := by
  have kept (actions : List (Action alphabet)) :
      Pending.straight reply (onward batch later (collected ++ actions)) =
        (Produced.append (.ok collected) ·) <$>
          Produced.followedBy (inOrder reply batch later) (.ok actions) := by
    rw [onwards, Produced.followedBy, Functor.map_map]
    congr 1
    funext others
    exact Produced.append_assoc (.ok collected) (.ok actions) others
  cases batch with
  | true => exact kept actions
  | false =>
      change (Prompt.sendEach _ >>= fun _ => _) = (Prompt.sendEach _ >>= fun _ => _) >>= _
      rw [bind_assoc]
      congr 1
      funext _
      rw [pure_bind]
      cases Pending.replied reply (actions.map pure) with
      | error cause => rfl
      | ok =>
          have nothing := kept []
          rw [List.append_nil] at nothing
          exact nothing

/-- What is left of a sequential list, when the commands before have produced the collected actions. -/
theorem straight_onward {starts : List (Start S Action alphabet)}
    (each : ∀ start ∈ starts, start.Within .lax Verdict.Unhindered) (collected : List (Action alphabet)) :
    Pending.straight reply (onward batch starts collected) =
      (Produced.append (.ok collected) ·) <$> inOrder reply batch starts := by
  induction starts generalizing collected with
  | nil =>
      exact congrArg (fun actions => Prompt.done (Except.ok actions)) (List.append_nil collected).symm
  | cons next later ih =>
      rw [List.forall_mem_cons] at each
      -- The future of the next command is awaited first; only then does the rest of the list go on.
      have walked (verdict : Verdict S Action (Action alphabet) alphabet)
          (unhindered : verdict.Unhindered) :
          Pending.straight reply (walk batch later collected verdict) =
            verdict.contribution reply batch >>= fun left =>
              (Produced.append (.ok collected) ·) <$> left.followedBy (inOrder reply batch later) := by
        rw [walk_eq_andThen, FollowUp.andThen, Pending.straight_bind reply unhindered.followUp,
          Verdict.contribution, bind_assoc]
        congr 1
        funext produced
        cases produced with
        | error cause => rfl
        | ok actions => exact straight_arrive reply (ih each.2) collected actions
      change Pending.straight reply (next.thenPending (walk batch later collected)) = _
      rw [Pending.straight_thenPending, each.1.bind_congr walked, inOrder, map_bind, contribution_eq,
        bind_assoc]

/-- A sequential list is the fold of what its commands contribute. -/
theorem straight_startInOrder {starts : List (Start S Action alphabet)}
    (each : ∀ start ∈ starts, start.Within .lax Verdict.Unhindered) :
    (startInOrder batch starts).straight reply = inOrder reply batch starts := by
  have onwards : Pending.straight reply (onward batch starts []) = inOrder reply batch starts := by
    rw [straight_onward reply each]
    simp only [Produced.nil_append, id_map']
  rw [← onwards]
  cases starts with
  | nil => rfl
  | cons head rest =>
      change _ = Pending.straight reply (head.thenPending (walk batch rest []))
      rw [Pending.straight_thenPending]
      exact Prompt.bind_assoc ..

/-- A sequential list within a sequential list. -/
theorem inOrder_flatten {before inner after : List (Start S Action alphabet)}
    (each : ∀ start ∈ inner, start.Within .lax Verdict.Unhindered) :
    inOrder reply batch (before ++ startInOrder batch inner :: after) =
      inOrder reply batch (before ++ inner ++ after) := by
  rw [inOrder_append, inOrder, contribution_of_inOrder reply (straight_startInOrder reply each),
    ← inOrder_append, ← inOrder_append, List.append_assoc]

end Start

/-! ## Parallel lists -/

namespace Start

variable {batch}

/-- The commands are started together, and then they contribute one after the other. -/
def together (batch : Bool) (starts : List (Start S Action alphabet)) :
    Prompt S Action (Action alphabet) (Produced Action alphabet) := do
  let verdicts ← starts.mapM id
  Produced.all <$> verdicts.mapM (Verdict.contribution reply batch)

section Gathering

variable {α : Type} (each : α → Prompt S Action (Action alphabet) (Produced Action alphabet))

theorem mapM_all_append (first second : List α) :
    Produced.all <$> (first ++ second).mapM each =
      (Produced.all <$> first.mapM each) >>= fun produced =>
        produced.append <$> Produced.all <$> second.mapM each := by
  simp only [List.mapM_append, map_eq_pure_bind, bind_assoc, pure_bind, Produced.all_append]

theorem mapM_all_cons (value : α) (rest : List α) :
    Produced.all <$> (value :: rest).mapM each =
      each value >>= fun first => first.append <$> Produced.all <$> rest.mapM each := by
  rw [List.mapM_cons, map_bind]
  congr 1
  funext first
  rw [map_bind, Functor.map_map, map_eq_pure_bind]
  congr 1
  funext others
  rw [map_pure, Produced.all_cons]

end Gathering

theorem straight_all (found : List (FollowUp S Action (Action alphabet) alphabet)) :
    Pending.straight reply (FollowUp.all found) =
      Produced.all <$> found.mapM (Pending.straight reply) := by
  have results {count : Nat} (values : Vector (Produced Action alphabet) count) :
      FollowUp.collect values.get = Produced.all values.toList := by
    rw [FollowUp.collect, ofFn_get_eq_toList]
    rfl
  have whole : Pending.straight reply (FollowUp.all found) =
      (fun values => FollowUp.collect values.get) <$>
        Vector.ofFnM fun index => Pending.straight reply (found.get index) := rfl
  have members : found.mapM (Pending.straight reply) =
      List.ofFnM fun index => Pending.straight reply (found.get index) := by
    rw [List.ofFnM_eq_mapM, List.ofFn_get]
  simp only [whole, results]
  rw [members, ← Vector.toList_ofFnM, Functor.map_map]

theorem straight_sibling {follow : FollowUp S Action (Action alphabet) alphabet}
    (unhindered : Pending.Unhindered follow) :
    Pending.straight reply (if batch then follow else follow.dispatched) =
      Pending.straight reply follow >>= Produced.delivered reply batch := by
  cases batch with
  | true =>
      have kept : (Produced.delivered reply true : _ → Prompt S Action (Action alphabet) _) = pure := by
        funext produced
        cases produced <;> rfl
      rw [kept]
      exact (bind_pure _).symm
  | false =>
      change Pending.straight reply follow.dispatched = _
      rw [FollowUp.dispatched, FollowUp.andThen, Pending.straight_bind reply unhindered]
      congr 1
      funext produced
      cases produced with
      | error cause => rfl
      | ok actions =>
          change (Prompt.sendEach _ >>= fun _ => _) = Prompt.sendEach _ >>= fun _ => _
          congr 1
          funext _
          cases Pending.replied reply (actions.map pure) <;> rfl

/-- Siblings do what their verdicts contribute. -/
theorem straight_siblings {verdicts : List (Verdict S Action (Action alphabet) alphabet)}
    (each : ∀ verdict ∈ verdicts, verdict.Unhindered) :
    Produced.all <$> (siblings batch verdicts).mapM (Pending.straight reply) =
      Produced.all <$> verdicts.mapM (Verdict.contribution reply batch) := by
  induction verdicts with
  | nil => rfl
  | cons verdict rest ih =>
      rw [List.forall_mem_cons] at each
      have goesOn := ih each.2
      rw [mapM_all_cons, ← goesOn]
      rcases verdict with cause | _ | follow
      · exact mapM_all_cons (Pending.straight reply) (FollowUp.failed cause) (siblings batch rest)
      · have nothing : (Verdict.contribution reply batch (.ok none) : Prompt S Action _ _) =
            pure (.ok []) := Produced.settled_nil.delivered_eq reply
        rw [nothing, pure_bind, funext Produced.nil_append, id_map']
        rfl
      · rw [Verdict.contribution, Verdict.followUp, ← straight_sibling reply (each.1 follow rfl)]
        exact mapM_all_cons (Pending.straight reply) _ (siblings batch rest)

theorem straight_gathered {verdicts : List (Verdict S Action (Action alphabet) alphabet)}
    (each : ∀ verdict ∈ verdicts, verdict.Unhindered) :
    Pending.straight reply (Verdict.gathered (siblings batch verdicts)).followUp =
      Produced.all <$> verdicts.mapM (Verdict.contribution reply batch) := by
  rw [← straight_siblings reply each]
  cases siblings batch verdicts with
  | nil => rfl
  | cons first rest => exact straight_all reply (first :: rest)

/-- A parallel list collects what its commands contribute. -/
theorem straight_startTogether {starts : List (Start S Action alphabet)}
    (each : ∀ start ∈ starts, start.Within .lax Verdict.Unhindered) :
    (startTogether batch starts).straight reply = together reply batch starts := by
  rw [together, ← (Prompt.Within.mapM each).bind_congr fun _ => straight_gathered reply, startTogether_eq,
    map_eq_pure_bind]
  exact Prompt.bind_assoc ..

theorem within_contribution (verdict : Verdict S Action (Action alphabet) alphabet) :
    (verdict.contribution reply batch).Within .lax (Produced.Settled batch) := by
  apply (Prompt.within_lax (Pending.straight reply verdict.followUp)).bind
  intro produced _
  exact Produced.within_delivered reply produced

/-- An inner list contributes what its elements contribute. -/
theorem contribution_gathered {verdicts : List (Verdict S Action (Action alphabet) alphabet)}
    (each : ∀ verdict ∈ verdicts, verdict.Unhindered) :
    (Verdict.gathered (siblings batch verdicts)).contribution reply batch =
      Produced.all <$> verdicts.mapM (Verdict.contribution reply batch) := by
  have settled : (Produced.all <$> verdicts.mapM (Verdict.contribution reply batch)).Within .lax
      (Produced.Settled batch) := by
    have members : ∀ program ∈ verdicts.map (Verdict.contribution reply batch),
        program.Within .lax (Produced.Settled batch) := by
      intro program among
      obtain ⟨verdict, -, rfl⟩ := List.mem_map.1 among
      exact within_contribution reply verdict
    have together := (Prompt.Within.mapM members).map fun _ => Produced.Settled.all
    rw [List.mapM_map] at together
    exact together
  rw [Verdict.contribution, straight_gathered reply each,
    settled.bind_congr fun _ settled => settled.delivered_eq reply]
  exact bind_pure _

/-- A parallel list within a parallel list. -/
theorem together_flatten {before inner after : List (Start S Action alphabet)}
    (each : ∀ start ∈ inner, start.Within .lax Verdict.Unhindered) :
    together reply batch (before ++ startTogether batch inner :: after) =
      together reply batch (before ++ inner ++ after) := by
  -- All starts come first either way, so only what the verdicts contribute has to be regrouped.
  have flat (first last : List (Verdict S Action (Action alphabet) alphabet))
      (verdicts : List (Verdict S Action (Action alphabet) alphabet))
      (unhindered : ∀ verdict ∈ verdicts, verdict.Unhindered) :
      Produced.all <$> (first ++ Verdict.gathered (siblings batch verdicts) :: last).mapM
          (Verdict.contribution reply batch) =
        Produced.all <$> (first ++ verdicts ++ last).mapM (Verdict.contribution reply batch) := by
    rw [mapM_all_append, mapM_all_cons, contribution_gathered reply unhindered, ← mapM_all_append,
      ← mapM_all_append, List.append_assoc]
  simp only [together, List.mapM_append, List.mapM_cons, startTogether_eq, map_eq_pure_bind, bind_assoc,
    pure_bind, id]
  congr 1
  funext first
  apply (Prompt.Within.mapM each).bind_congr
  intro verdicts unhindered
  congr 1
  funext last
  have same := flat first last verdicts unhindered
  simp only [List.mapM_append, List.mapM_cons, map_eq_pure_bind, bind_assoc, pure_bind] at same
  exact same

end Start

end EffectLoop
