import EffectLoop.Proofs.Command.Distribution
import EffectLoop.Proofs.Command.Sequence
import EffectLoop.Proofs.World.Instant

/-!
# Ready commands

A command is *ready* if every RUN of it hands back an outcome that is known in the call.  Then no part of
it ever waits for anything but dispatched actions.  In a context that answers dispatches at once it is
over after one poll, and all that is done is what `Start.straight` does.
-/

namespace EffectLoop

variable {S ι : Type} {Action : ι → Type} {A α : Type} {alphabet child : ι}

/-! ## No part waits -/

/-- What is pending, if anything is, never waits for anything but dispatched actions. -/
def Verdict.Unhindered (verdict : Verdict S Action A alphabet) : Prop :=
  ∀ follow, verdict = .ok (some follow) → Pending.Unhindered follow

namespace Verdict.Unhindered

theorem failed (cause : CmdFailure) :
    Verdict.Unhindered (.error cause : Verdict S Action A alphabet) := nofun

theorem nothing : Verdict.Unhindered (.ok none : Verdict S Action A alphabet) := nofun

theorem pending {follow : FollowUp S Action A alphabet} (unhindered : Pending.Unhindered follow) :
    Verdict.Unhindered (.ok (some follow)) := by
  intro found same
  cases same
  exact unhindered

theorem now (actions : List (Action alphabet)) :
    Verdict.Unhindered (.ok (some (.now actions)) : Verdict S Action A alphabet) :=
  pending True.intro

theorem followUp {verdict : Verdict S Action A alphabet} (unhindered : verdict.Unhindered) :
    verdict.followUp.Unhindered := by
  rcases verdict with cause | _ | follow
  · trivial
  · trivial
  · exact unhindered follow rfl

theorem ofAction (found : Noted (Option (Action alphabet))) :
    (Verdict.ofAction found : Prompt S Action A _).Within .lax Unhindered := by
  apply (Prompt.within_lax (Prompt.ofNoted found)).bind
  intro action _
  cases action with
  | none => exact nothing
  | some action => exact now [action]

end Verdict.Unhindered

namespace FollowUp

theorem unhindered_andThen {first : FollowUp S Action A child} (unhindered : Pending.Unhindered first)
    {after : List (Action child) → FollowUp S Action A alphabet}
    (afterwards : ∀ actions, Pending.Unhindered (after actions)) :
    Pending.Unhindered (first.andThen after) := by
  apply unhindered.bind
  intro result
  cases result with
  | error cause => trivial
  | ok actions => exact afterwards actions

theorem unhindered_dispatched {first : FollowUp S Action (Action alphabet) alphabet}
    (unhindered : Pending.Unhindered first) : Pending.Unhindered first.dispatched := by
  apply unhindered_andThen unhindered
  intro actions reply
  cases reply <;> trivial

theorem unhindered_all {found : List (FollowUp S Action A alphabet)}
    (each : ∀ follow ∈ found, Pending.Unhindered follow) : Pending.Unhindered (all found) :=
  ⟨rfl, fun index => each _ (List.get_mem found index), fun _ => trivial⟩

end FollowUp

theorem unhindered_siblings (batch : Bool) {verdicts : List (Verdict S Action (Action alphabet) alphabet)}
    (each : ∀ verdict ∈ verdicts, verdict.Unhindered) :
    ∀ follow ∈ siblings batch verdicts, Pending.Unhindered follow := by
  intro follow among
  obtain ⟨verdict, listed, same⟩ := List.mem_filterMap.1 among
  rcases verdict with cause | _ | pending
  · cases same
    trivial
  · cases same
  · cases same
    have unhindered := each _ listed pending rfl
    cases batch with
    | true => exact unhindered
    | false => exact FollowUp.unhindered_dispatched unhindered

/-- What is left of a sequential list goes on with the future of the command before. -/
theorem walk_eq_andThen (batch : Bool) (rest : List (Start S Action alphabet))
    (collected : List (Action alphabet)) (verdict : Verdict S Action (Action alphabet) alphabet) :
    walk batch rest collected verdict =
      verdict.followUp.andThen (arrive batch (onward batch rest) collected) := by
  rw [walk_eq]
  rcases verdict with cause | _ | follow <;> rfl

theorem unhindered_arrive (batch : Bool)
    {onward : List (Action alphabet) → FollowUp S Action (Action alphabet) alphabet}
    (afterwards : ∀ collected, Pending.Unhindered (onward collected))
    (collected actions : List (Action alphabet)) :
    Pending.Unhindered (arrive batch onward collected actions) := by
  cases batch with
  | true => exact afterwards _
  | false =>
      intro reply
      cases reply with
      | error cause => trivial
      | ok => exact afterwards _

theorem unhindered_onward (batch : Bool) {rest : List (Start S Action alphabet)}
    (each : ∀ start ∈ rest, start.Within .lax Verdict.Unhindered) (collected : List (Action alphabet)) :
    Pending.Unhindered (onward batch rest collected) := by
  induction rest generalizing collected with
  | nil => trivial
  | cons next later ih =>
      rw [List.forall_mem_cons] at each
      apply Pending.Unhindered.thenPending each.1
      intro verdict unhindered
      rw [walk_eq_andThen]
      exact FollowUp.unhindered_andThen unhindered.followUp (unhindered_arrive batch (ih each.2) _)

theorem within_startTogether (batch : Bool) {starts : List (Start S Action alphabet)}
    (each : ∀ start ∈ starts, start.Within .lax Verdict.Unhindered) :
    (startTogether batch starts).Within .lax Verdict.Unhindered := by
  rw [startTogether_eq]
  apply (Prompt.Within.mapM each).map
  intro verdicts unhindered
  have members := unhindered_siblings batch unhindered
  rw [Verdict.gathered]
  split
  · exact .nothing
  · exact .pending (FollowUp.unhindered_all members)

theorem within_startInOrder (batch : Bool) {starts : List (Start S Action alphabet)}
    (each : ∀ start ∈ starts, start.Within .lax Verdict.Unhindered) :
    (startInOrder batch starts).Within .lax Verdict.Unhindered := by
  cases starts with
  | nil => exact Verdict.Unhindered.nothing
  | cons head rest =>
      rw [List.forall_mem_cons] at each
      apply each.1.bind
      intro verdict unhindered
      apply Verdict.Unhindered.pending
      rw [walk_eq_andThen]
      exact FollowUp.unhindered_andThen unhindered.followUp
        (unhindered_arrive batch (unhindered_onward batch each.2) _)

theorem RunSpec.within_executeReady (options : Options) (spec : RunSpec S Action (Action alphabet))
    (outcome : Except RunFailure Json) :
    (spec.executeReady options outcome).Within .lax Verdict.Unhindered := by
  cases outcome with
  | error cause =>
      rw [executeReady]
      cases spec.onFail with
      | none => exact ⟨trivial, fun _ => Verdict.Unhindered.failed _⟩
      | some creator => exact ⟨trivial, fun _ => Verdict.Unhindered.ofAction _⟩
  | ok value => exact Verdict.Unhindered.ofAction _

namespace Cmd

/-- Every RUN hands back an outcome that is known in the call, but for those that a schedule executes
later. -/
def Ready : {alphabet : ι} → Cmd S Action alphabet → Prop
  | _, .none => True
  | _, .action _ => True
  | _, .run spec => (spec.func spec.args).Within .lax fun output => ∃ outcome, output = .ready outcome
  | _, .list cmds _ _ => ∀ index, (cmds index).Ready
  | _, .map nested _ _ => nested.Ready
  | _, .scheduled _ _ _ _ => True

theorem Ready.within_execute (options : Options) {cmd : Cmd S Action alphabet} (ready : cmd.Ready) :
    (cmd.execute options).Within .lax Verdict.Unhindered := by
  induction cmd with
  | none => exact Verdict.Unhindered.nothing
  | action sent => exact Verdict.Unhindered.now [sent]
  | run spec =>
      apply ready.bind
      rintro _ ⟨outcome, rfl⟩
      exact spec.within_executeReady options outcome
  | list cmds sequence batch ih =>
      have each : ∀ start ∈ List.ofFn fun index => (cmds index).execute options,
          start.Within .lax Verdict.Unhindered := by
        intro start among
        obtain ⟨index, rfl⟩ := List.mem_ofFn.1 among
        exact ih index (ready index)
      rw [execute_list]
      split
      · exact within_startInOrder batch each
      · exact within_startTogether batch each
  | map nested tagger args ih =>
      apply ((ih ready).retag (tagger args) fun _ => id).bind
      rintro (cause | _ | follow) unhindered
      · exact Verdict.Unhindered.failed cause
      · exact Verdict.Unhindered.nothing
      · apply Verdict.Unhindered.pending
        apply FollowUp.unhindered_andThen ((unhindered follow rfl).retag _)
        intro actions
        exact .withNoted _ trivial
  | scheduled nested delay repeating onScheduled =>
      refine ⟨Pending.within_lax _, fun handle => ⟨trivial, fun _ => ?_⟩⟩
      cases onScheduled with
      | none => exact Verdict.Unhindered.nothing
      | some creator => exact Verdict.Unhindered.ofAction _

end Cmd

/-! ## Driving a command to completion -/

/-- Start a command and go on with its future, where dispatches are answered at once. -/
def Start.straight (reply : Action alphabet → Except CmdFailure Unit) (start : Start S Action alphabet) :
    Prompt S Action (Action alphabet) (Except CmdFailure (List (Action alphabet))) :=
  start.bind fun verdict => Pending.straight reply verdict.followUp

namespace Cmd

variable (dispatch : Dispatcher S Action (Action alphabet)) (options : Options)

/-- Execute a command in a context, and poll its future once.  The answer is the outcome of the future,
if it is over.  No actions are the same as no follow-up. -/
def drive (depth : Nat) (waiter : Waiter) (cmd : Cmd S Action alphabet) :
    Run S Action (Action alphabet) (Option (Except CmdFailure (List (Action alphabet)))) := do
  let verdict ← (cmd.execute options).run (.ofDispatch dispatch depth)
  let left ← Pending.poll (.ofDispatch dispatch depth) waiter verdict.followUp
  pure left.result?

/-- Driven from this world, with enough allowance, the command is over with this result: its outcome, or
the panic that has halted it.  This is the world that it leaves, but for the books of large joins. -/
def Completes (world : World S Action (Action alphabet)) (cmd : Cmd S Action alphabet)
    (result : Except Halt (Except CmdFailure (List (Action alphabet))))
    (after : World S Action (Action alphabet)) : Prop :=
  result ≠ .error .exhausted ∧ ∃ enough, ∀ depth ≥ enough, ∀ waiter,
    (cmd.drive dispatch options depth waiter world).1 = result.map some ∧
      (cmd.drive dispatch options depth waiter world).2.withoutJoins = after.withoutJoins

variable {dispatch} {reply : Action alphabet → Except CmdFailure Unit}
variable {effect : Action alphabet → Run S Action (Action alphabet) Unit}

/-- A ready command is over after one poll, and does what its straight form does. -/
theorem Ready.completes (answers : dispatch.AnswersAtOnce reply effect) {cmd : Cmd S Action alphabet}
    (ready : cmd.Ready) {world : World S Action (Action alphabet)}
    (gates : world.GatesBelow world.nextTicket) :
    cmd.Completes dispatch options world
      ((Start.straight reply (cmd.execute options)).run (.instant reply effect) world).1
      ((Start.straight reply (cmd.execute options)).run (.instant reply effect) world).2 := by
  have driven : Run.Matches world.nextTicket world (fun outcome found => found = some outcome)
      ((Start.straight reply (cmd.execute options)).run (.instant reply effect))
      fun depth waiter => cmd.drive dispatch options depth waiter := by
    have ran : (Start.straight reply (cmd.execute options)).run (.instant reply effect) =
        (cmd.execute options).run (.instant reply effect) >>= fun verdict =>
          (Pending.straight reply verdict.followUp).run (.instant reply effect) := Prompt.run_bind ..
    rw [ran]
    apply (Prompt.run_matches answers (cmd.execute options) world).bind
    intro verdict middle called
    have unhindered := ((ready.within_execute options).run_leads _ world).holds verdict middle called
    refine ⟨_, by rintro depth waiter _ rfl; rfl, ?_⟩
    obtain ⟨enough, polled⟩ := Pending.poll_matches answers unhindered.followUp middle
    refine ⟨enough, fun depth le waiter far beside => ?_⟩
    apply Run.Matched.imageOther
    apply (polled depth le waiter far beside).mono
    rintro outcome _ rfl
    rfl
  have afforded (action) : ((Engine.instant reply effect).dispatch action).Afforded :=
    (answers.affords action).bind fun _ => .pure _
  obtain ⟨enough, matched⟩ := driven
  refine ⟨Prompt.run_afforded afforded _ world, enough, fun depth le waiter => ?_⟩
  have ended := matched depth le waiter world (.refl gates le_rfl)
  dsimp only at ended
  generalize (Start.straight reply (cmd.execute options)).run (.instant reply effect) world = one
    at ended ⊢
  generalize cmd.drive dispatch options depth waiter world = other at ended ⊢
  cases ended with
  | answered same beside kept => exact ⟨by rw [same]; rfl, beside.same⟩
  | halted halt beside => exact ⟨rfl, beside.same⟩

end Cmd

end EffectLoop
