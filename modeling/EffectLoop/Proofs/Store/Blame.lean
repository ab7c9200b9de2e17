import EffectLoop.Proofs.Store.Failures
import EffectLoop.Proofs.Store.Replay

/-!
# Failed dispatches

A dispatch to a store that stays open fails if and only if a RUN has failed at once without a fail
creator, in the command of the action or in those of the actions that it has caused in turn; and it ends
with the failure of such a RUN (`Store.dispatch_fails_iff_blamed`).

The RUNs to *blame* are those that the store's audits tell of while the dispatch is driven
(`Store.Blames`).  What a schedule does when it fires, what has been handed over to run by itself, and
what a RUN dispatches itself is not part of the dispatch.
-/

namespace EffectLoop

variable {S ι : Type} {Action : ι → Type} {alphabet : ι}

/-- The work that a dispatch leaves carries the failures that the audit of its command tells. -/
theorem Audit.Fair.reply {dispatch : Dispatcher S Action (Action alphabet)}
    {audit : Audit S Action (Action alphabet) alphabet} (fair : audit.Fair dispatch) :
    audit.reply.Bears dispatch audit.culprits := by
  rcases audit with ⟨culprits, cause | _ | work⟩
  · have carries (failure : CmdFailure) :
        (Work.final (.error cause) : Work S Action (Action alphabet) .settled).Carries failure ↔
          (Work.final (.error cause) : Work S Action (Action alphabet) (.actions alphabet)).Carries
            failure := by
      rw [Work.carries_error, Work.Carries, Answer.Fails, Except.error.injEq]
    exact ⟨trivial, fair.inherits.congr (fun _ => Iff.rfl) carries⟩
  · refine ⟨trivial, fair.inherits.congr (fun _ => Iff.rfl) fun failure => ?_⟩
    constructor
    · intro carries
      cases carries
    · intro carries
      cases carries
  · exact ⟨fair.sound, fair.inherits⟩

namespace Store

variable (store : Store S Action alphabet)

/-- The dispatch of `action` in `world` has come to a result, while whatever else happens is as `env`
says.  The list holds the failures of all RUNs that have failed at once in it without a fail creator. -/
inductive Blames (env : World S Action (Action alphabet) → World S Action (Action alphabet) → Prop)
    (depth : Nat) (action : Action alphabet) (world : World S Action (Action alphabet)) :
    List RunFailure → Except CmdFailure Unit × World S Action (Action alphabet) → Prop where
  | mk {first later : List RunFailure} {work opened result now} :
      store.audit (.ofDispatch (Host.store store).dispatch depth) action world =
        (.ok (first, work), opened) →
      Work.Shadows store.options (Host.store store).dispatch store.audit env (work, opened) later
        (.final result, now) →
      Blames env depth action world (first ++ later) (result, now)

/-- The store is open. -/
abbrev Open (world : World S Action (Action alphabet)) : Prop := world.isOpen = true

/-! ## Audits of an open store -/

section Audits

variable {dispatch : Dispatcher S Action (Action alphabet)}
variable {engine : Engine S Action (Action alphabet)}
variable (keeps : engine.Keeps (World.Stays Open))
include keeps

theorem ensures_fair (cmd : Cmd S Action alphabet) :
    Run.Ensures Open (Audit.Fair dispatch) ((cmd.audit store.options pure).run engine) := by
  constructor
  intro world audit after isOpen started
  have stays := Prompt.run_keeps World.lasting_open.tolerant keeps
    (cmd.audit store.options pure) world isOpen
  rw [started] at stays
  exact ⟨stays, ((cmd.audit_fair store.options pure).run_leads engine world).holds _ _ started⟩

theorem auditLaunch_bears (cmd : Cmd S Action alphabet) :
    Run.Ensures Open (fun caused => caused.2.Bears dispatch caused.1)
      (store.auditLaunch engine cmd) := by
  unfold auditLaunch
  split
  · exact .pure (.of_carries_nothing trivial fun _ => nofun)
  · apply Run.Ensures.after (store.observe_stays World.lasting_open _)
    rintro ⟨⟩
    apply (store.ensures_fair keeps cmd).bind
    intro audit fair
    exact .pure fair.reply

theorem audit_bears (action : Action alphabet) :
    Run.Ensures Open (fun caused => caused.2.Bears dispatch caused.1) (store.audit engine action) := by
  have reduced : Run.Ensures Open (fun caused => caused.2.Bears dispatch caused.1) (do
      store.observe (.dispatch action)
      let loop ← store.reduce action
      commit loop.lift.1
      store.auditLaunch engine loop.lift.2) := by
    apply Run.Ensures.after (store.observe_stays World.lasting_open _)
    rintro ⟨⟩
    apply Run.Ensures.after (store.reduce_stays World.lasting_open action)
    intro loop
    apply Run.Ensures.after (commit_stays World.lasting_open _)
    rintro ⟨⟩
    exact store.auditLaunch_bears keeps _
  constructor
  intro world caused after isOpen answered
  rw [audit, Run.get_bind, if_pos isOpen] at answered
  exact reduced.holds world caused after isOpen answered

omit keeps in
/-- The audits of a store are fair as long as it is open. -/
theorem audit_fair : store.audit.Fair Open (Host.store store).dispatch := by
  have keeps (depth : Nat) :
      (Engine.ofDispatch (Host.store store).dispatch depth).Keeps (World.Stays Open) := by
    rw [← Host.engine_eq_ofDispatch]
    exact Host.engine_stays World.lasting_open _ depth
  exact ⟨World.lasting_open.tolerant, keeps, fun depth action => store.audit_bears (keeps depth) action⟩

end Audits

/-! ## Who is to blame -/

variable {env : World S Action (Action alphabet) → World S Action (Action alphabet) → Prop}
variable {depth : Nat} {action : Action alphabet} {world : World S Action (Action alphabet)}

/-- A dispatch that has come to a result can be followed RUN by RUN. -/
theorem exists_blames {opened now : World S Action (Action alphabet)}
    {program : Settling S Action (Action alphabet)} {result : Except CmdFailure Unit}
    (dispatched : (Host.store store).dispatch (.ofDispatch (Host.store store).dispatch depth) action
      world = (.ok program, opened))
    (driven : Driven (Host.store store).dispatch env (program, opened) (.done result, now)) :
    ∃ blamed, store.Blames env depth action world blamed (result, now) := by
  rw [← store.audits.erases, map_eq_pure_bind] at dispatched
  rcases Run.of_bind_ok dispatched with ⟨⟨first, work⟩, middle, audited, same⟩
  cases same
  rcases Work.Shadows.of_driven_done store.audits driven with ⟨later, shadows⟩
  exact ⟨first ++ later, .mk audited shadows⟩

/-- The result is a failure if there are RUNs to blame, and it is one of theirs. -/
theorem Blames.inherits {blamed : List RunFailure} {result : Except CmdFailure Unit}
    {now : World S Action (Action alphabet)}
    (blames : store.Blames env depth action world blamed (result, now))
    (lasts : ∀ before after, env before after → World.Stays Open before after) (isOpen : Open world) :
    Inherits Faultless blamed fun cause => result = .error cause := by
  cases blames with
  | mk audited shadows =>
      rcases (store.audit_fair.bears depth action).holds _ _ _ isOpen audited with ⟨isOpen, bears⟩
      have kept := Work.Kept.of_shadows store.audit_fair lasts shadows isOpen bears.sound
      exact bears.inherits.trans kept.inherits

/-- Unhandled failures are not swallowed and not made up.  A dispatch that comes to a result, while the
store stays open, can be followed RUN by RUN; and whenever it is, it has failed if and only if a RUN is
to blame, and then with the failure of such a RUN. -/
theorem dispatch_fails_iff_blamed
    (lasts : ∀ before after, env before after → World.Stays Open before after) (isOpen : Open world)
    {opened now : World S Action (Action alphabet)}
    {program : Settling S Action (Action alphabet)} {result : Except CmdFailure Unit}
    (dispatched : (Host.store store).dispatch (.ofDispatch (Host.store store).dispatch depth) action
      world = (.ok program, opened))
    (driven : Driven (Host.store store).dispatch env (program, opened) (.done result, now)) :
    (∃ blamed, store.Blames env depth action world blamed (result, now)) ∧
      ∀ blamed, store.Blames env depth action world blamed (result, now) →
        ((∃ cause, result = .error cause) ↔ blamed ≠ []) ∧
          ∀ cause, result = .error cause → ∃ failure ∈ blamed, cause = .unhandledFailure failure := by
  refine ⟨store.exists_blames dispatched driven, ?_⟩
  intro blamed blames
  have inherits := blames.inherits store lasts isOpen
  have traced (cause : CmdFailure) (failed : result = .error cause) :
      ∃ failure ∈ blamed, cause = .unhandledFailure failure :=
    (inherits.traced cause failed).resolve_left id
  refine ⟨⟨?_, ?_⟩, traced⟩
  · rintro ⟨cause, failed⟩
    rcases traced cause failed with ⟨failure, within, _⟩
    exact List.ne_nil_of_mem within
  · intro some
    exact inherits.left (.inr some)

/-- What a dispatch has come to when what it leaves is polled once. -/
def polledOnce (depth : Nat) (action : Action alphabet) (world : World S Action (Action alphabet)) :
    Option (Except CmdFailure Unit) :=
  let engine := Engine.ofDispatch (Host.store store).dispatch depth
  match (Host.store store).dispatch engine action world with
  | (.ok program, opened) =>
      match program.poll engine ⟨0, []⟩ opened with
      | (.ok left, _) => left.result?
      | _ => none
  | _ => none

theorem driven_of_polledOnce {result : Except CmdFailure Unit}
    (polled : store.polledOnce depth action world = some result) :
    ∃ program opened now,
      (Host.store store).dispatch (.ofDispatch (Host.store store).dispatch depth) action world =
          (.ok program, opened) ∧
        Driven (Host.store store).dispatch (fun _ _ => False) (program, opened) (.done result, now) := by
  unfold polledOnce at polled
  dsimp only at polled
  split at polled
  next program opened dispatched =>
      split at polled
      next left now answered =>
          rw [Pending.result?_eq_some_iff.1 polled] at answered
          exact ⟨program, opened, now, dispatched, .single (.poll depth ⟨0, []⟩ answered)⟩
      next => cases polled
  next => cases polled

/-- The tallying store follows a one with a seven, and the RUN of that is to blame. -/
theorem tallying_fails_by_blame :
    ∃ cause now blamed failure,
      tallying.Blames (fun _ _ => False) 2 1 (.initial 5 (.virtual .initial) (.int 0)) blamed
        (.error cause, now) ∧ failure ∈ blamed ∧ cause = .unhandledFailure failure := by
  let fresh : World Nat (fun _ : Unit => Nat) Nat := .initial 5 (.virtual .initial) (.int 0)
  have failed : (tallying.polledOnce 2 1 fresh).any (!·.toBool) := by decide +kernel
  rcases polled : tallying.polledOnce 2 1 fresh with _ | cause | done
  · rw [polled] at failed
    cases failed
  · rcases tallying.driven_of_polledOnce polled with ⟨program, opened, now, dispatched, driven⟩
    rcases tallying.dispatch_fails_iff_blamed (fun _ _ => False.elim) rfl dispatched driven with
      ⟨⟨blamed, blames⟩, account⟩
    rcases (account blamed blames).2 cause rfl with ⟨failure, within, same⟩
    exact ⟨cause, now, blamed, failure, blames, within, same⟩
  · rw [polled] at failed
    cases failed

end Store

end EffectLoop
