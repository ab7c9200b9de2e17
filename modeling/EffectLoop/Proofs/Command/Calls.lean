import EffectLoop.Proofs.Program.Dues
import EffectLoop.Proofs.Command.Ledger
import EffectLoop.Proofs.Command.Siblings
import EffectLoop.Proofs.Command.Sites

/-!
# The calls of a command

`Cmd.announced` is the command whose functions announce their sites when they are called; nothing else
about it is changed, but for the notes, which are quoted.  What is said of the calls is said of every
history of the announced command, and so of everything that can become of it in any world
(`Prompt.run_ends`, `Pending.does_of_driven`).
-/

namespace EffectLoop

variable {S ι : Type} {Action : ι → Type} {A α β : Type} {alphabet child : ι}

/-- What a RUN function hands back, with its notes quoted. -/
def RunResult.quote : RunResult S Action A → RunResult S Action A
  | .ready outcome => .ready outcome
  | .deferred later => .deferred later.quote

/-- The RUN whose function announces its site, and then does what it did. -/
def RunSpec.announced (site : Site) (spec : RunSpec S Action A) : RunSpec S Action A where
  func args := .call (.note site.announcement) fun _ => (spec.func args).quote RunResult.quote
  args := spec.args
  onSuccess := spec.onSuccess.map fun creator value => (creator value).quote
  onFail := spec.onFail.map fun creator cause => (creator cause).quote
  forceSync := spec.forceSync

namespace Cmd

/-- The command whose functions announce their sites, under the names given to them, when they are
called. -/
def announced : {alphabet : ι} → (Site → Site) → Cmd S Action alphabet → Cmd S Action alphabet
  | _, _, .none => .none
  | _, _, .action sent => .action sent
  | _, name, .run spec => .run (spec.announced (name []))
  | _, name, .list cmds sequence batch =>
      .list (fun index => (cmds index).announced fun site => name (⟨sequence, index⟩ :: site))
        sequence batch
  | _, name, .map nested tagger args =>
      .map (nested.announced name) (fun args action => (tagger args action).quote) args
  | _, name, .scheduled nested delay repeating onScheduled =>
      .scheduled (nested.announced name) delay repeating
        (onScheduled.map fun creator handle => (creator handle).quote)

/-- The task is what a command scheduled in this one registers, at once or when it fires, with the sites of
the command that it executes at each firing and their names. -/
def Fires (options : Options) : {alphabet : ι} → (Site → Site) → Cmd S Action alphabet →
    Pending S Action (Action alphabet) .finished → List Site → (Site → Site) → Prop
  | _, _, .none, _, _, _ => False
  | _, _, .action _, _, _, _ => False
  | _, _, .run _, _, _, _ => False
  | _, name, .list cmds sequence _, task, sites, names =>
      ∃ index, (cmds index).Fires options (fun site => name (⟨sequence, index⟩ :: site)) task sites
        names
  | _, name, .map nested tagger args, task, sites, names =>
      ∃ source, nested.Fires options name source sites names ∧
        task = source.retag fun action => (tagger args action).quote
  | _, name, .scheduled nested _ _ _, task, sites, names =>
      task = firing ((nested.announced name).execute options) ∧ sites = nested.sites ∧ names = name ∨
        nested.Fires options name task sites names

end Cmd

/-! ## What may be due in the end -/

/-- Unless the command has failed, nothing is due any more. -/
def Produced.Paid : Produced Action alphabet → Multiset Site → Prop
  | .ok _, still => still = 0
  | .error _, _ => True

section Debts

variable {allows : Pending S Action A .finished → Prop}

/-- The calls that are due after the call of a command that has this verdict. -/
def Verdict.Owes (allows : Pending S Action A .finished → Prop) (due : Multiset Site) :
    Verdict S Action A alphabet → Prop
  | .error _ => True
  | .ok none => due = 0
  | .ok (some follow) => follow.Owes allows due Produced.Paid

namespace FollowUp

theorem owes_now (actions : List (Action alphabet)) :
    Pending.Owes allows 0 Produced.Paid (now actions : FollowUp S Action A alphabet) := rfl

theorem owes_failed (cause : CmdFailure) (due : Multiset Site) :
    Pending.Owes allows due Produced.Paid (failed cause : FollowUp S Action A alphabet) := trivial

theorem owes_andThen {first : FollowUp S Action A child}
    {after : List (Action child) → FollowUp S Action A alphabet} {due further : Multiset Site}
    (owes : first.Owes allows due Produced.Paid)
    (afterOwes : ∀ actions, (after actions).Owes allows further Produced.Paid) :
    Pending.Owes allows (due + further) Produced.Paid (first.andThen after) := by
  have framed : first.Owes allows (due + further) fun result still =>
      ∃ most, Produced.Paid result most ∧ still = most + further :=
    owes.frame further (fun _ allowed => allowed) fun result still paid => ⟨still, paid, rfl⟩
  apply framed.bind
  intro result still
  cases result with
  | error cause => exact fun _ => trivial
  | ok actions =>
      rintro ⟨most, rfl, rfl⟩
      rw [zero_add]
      exact afterOwes actions

theorem owes_dispatched {allows : Pending S Action (Action alphabet) .finished → Prop}
    {first : FollowUp S Action (Action alphabet) alphabet} {due : Multiset Site}
    (owes : first.Owes allows due Produced.Paid) :
    Pending.Owes allows due Produced.Paid first.dispatched := by
  rw [dispatched, ← add_zero due]
  apply owes_andThen owes
  intro actions reply
  cases reply with
  | ok => exact owes_now []
  | error cause => exact owes_failed cause 0

/-- What is due for siblings is due for all of them. -/
theorem owes_all {found : List (FollowUp S Action A alphabet)} {dues : List (Multiset Site)}
    (each : List.Forall₂ (fun sibling due => sibling.Owes allows due Produced.Paid) found dues) :
    Pending.Owes allows dues.sum Produced.Paid (all found) := by
  rw [← List.ofFn_get found] at each
  rcases exists_ofFn_of_forall₂ each with ⟨parts, rfl, owes⟩
  refine ⟨parts, fun _ => Produced.Paid, 0, by rw [add_zero, List.sum_ofFn], owes, ?_⟩
  intro results still paid
  rcases Siblings.collect_cases results with ⟨-, cause, -, -, failed⟩ | ⟨actions, succeeded, -⟩
  · change Produced.Paid (collect results) _
    rw [failed]
    exact trivial
  · have none (index) : still index = 0 := by
      have holds := paid index
      rw [succeeded index] at holds
      exact holds
    change Produced.Paid (collect results) _
    rw [Finset.sum_eq_zero fun index _ => none index, add_zero]
    cases collect results with
    | ok => rfl
    | error => exact trivial

end FollowUp

/-! ## Starting commands -/

/-- The calls of a command: those that are made when it is started, in order, and those that are due
later. -/
structure Debt where
  prompt : List Site
  later : Multiset Site

namespace Debt

/-- All calls of a command. -/
def total (debt : Debt) : Multiset Site := debt.prompt + debt.later

/-- The calls of RUNs at the given sites, under the names of the sites. -/
def ofSites (sites : List Site) (names : Site → Site) : Debt where
  prompt := (sites.filter Site.isPrompt).map names
  later := (sites.filter fun site => !site.isPrompt).map names

theorem total_ofSites (sites : List Site) (names : Site → Site) :
    (ofSites sites names).total = sites.map names := by
  rw [total, ofSites, Multiset.coe_add, ← List.map_append, Multiset.coe_eq_coe]
  exact (List.filter_append_perm _ _).map names

end Debt

/-- Starting the command makes its prompt calls, and its other calls are due then. -/
def Start.Owes (allows : Pending S Action (Action alphabet) .finished → Prop) (debt : Debt)
    (start : Start S Action alphabet) : Prop :=
  start.Calls allows debt.prompt (Verdict.Owes allows debt.later)

section Starts

variable {allows : Pending S Action (Action alphabet) .finished → Prop} {batch : Bool}
variable {starts : List (Start S Action alphabet)} {debts : List Debt}

/-- All commands are started, one after the other. -/
theorem Start.calls_mapM
    (each : List.Forall₂ (fun start debt => Start.Owes allows debt start) starts debts) :
    (starts.mapM id).Calls allows (debts.flatMap Debt.prompt) fun verdicts =>
      List.Forall₂ (fun verdict due => Verdict.Owes allows due verdict) verdicts
        (debts.map Debt.later) := by
  induction each with
  | nil => exact ⟨rfl, .nil⟩
  | cons first _ ih =>
      rw [List.mapM_cons, List.flatMap_cons]
      apply Prompt.Calls.bind first
      intro verdict owes
      exact ih.map fun others each => .cons owes each

/-- A command that has nothing pending is left out, and nothing is due for it. -/
theorem FollowUp.owes_siblings (batch : Bool)
    {verdicts : List (Verdict S Action (Action alphabet) alphabet)}
    {dues : List (Multiset Site)}
    (each : List.Forall₂ (fun verdict due => Verdict.Owes allows due verdict) verdicts dues) :
    ∃ parts : List (Multiset Site), parts.sum = dues.sum ∧
      List.Forall₂ (fun sibling due => Pending.Owes allows due Produced.Paid sibling)
        (siblings batch verdicts) parts := by
  induction each with
  | nil => exact ⟨[], rfl, .nil⟩
  | @cons verdict due _ _ owes _ ih =>
      rcases ih with ⟨parts, same, others⟩
      rw [siblings, List.filterMap_cons]
      rcases verdict with cause | _ | follow
      · exact ⟨due :: parts, by simp [same], .cons (owes_failed cause due) others⟩
      · exact ⟨parts, by rw [same, List.sum_cons, show due = 0 from owes, zero_add], others⟩
      · refine ⟨due :: parts, by simp [same], .cons ?_ others⟩
        cases batch with
        | true => exact owes
        | false => exact owes_dispatched owes

theorem Start.owes_startTogether (batch : Bool)
    (each : List.Forall₂ (fun start debt => Start.Owes allows debt start) starts debts) :
    Start.Owes allows ⟨debts.flatMap Debt.prompt, (debts.map Debt.later).sum⟩
      (startTogether batch starts) := by
  apply (Start.calls_mapM each).followed
  intro verdicts owes
  rcases FollowUp.owes_siblings batch owes with ⟨parts, same, siblingsOwe⟩
  rw [← same]
  cases found : siblings batch verdicts with
  | nil =>
      rw [found] at siblingsOwe
      cases siblingsOwe
      exact ⟨rfl, rfl⟩
  | cons first rest =>
      rw [found] at siblingsOwe
      exact ⟨rfl, FollowUp.owes_all siblingsOwe⟩

/-- What is due when the actions of a command arrive is due for what comes after. -/
theorem FollowUp.owes_arrive
    {onward : List (Action alphabet) → FollowUp S Action (Action alphabet) alphabet}
    {due : Multiset Site} (owes : ∀ collected, (onward collected).Owes allows due Produced.Paid)
    (collected actions : List (Action alphabet)) :
    Pending.Owes allows due Produced.Paid (arrive batch onward collected actions) := by
  cases batch with
  | true => exact owes _
  | false =>
      intro reply
      cases reply with
      | ok => exact owes _
      | error cause => exact owes_failed cause due

theorem FollowUp.owes_walk {rest : List (Start S Action alphabet)} {due further : Multiset Site}
    {verdict : Verdict S Action (Action alphabet) alphabet} (owes : Verdict.Owes allows due verdict)
    (onwardOwes : ∀ collected, (onward batch rest collected).Owes allows further Produced.Paid)
    (collected : List (Action alphabet)) :
    Pending.Owes allows (due + further) Produced.Paid (walk batch rest collected verdict) := by
  rw [walk_eq]
  rcases verdict with cause | _ | follow
  · exact owes_failed cause _
  · rw [show due = 0 from owes, zero_add]
    exact owes_arrive onwardOwes collected []
  · exact owes_andThen owes fun actions => owes_arrive onwardOwes collected actions

/-- All calls of the commands that a sequential list has not started yet are due. -/
theorem FollowUp.owes_onward
    (each : List.Forall₂ (fun start debt => Start.Owes allows debt start) starts debts)
    (collected : List (Action alphabet)) :
    (onward batch starts collected).Owes allows (debts.map Debt.total).sum Produced.Paid := by
  induction each generalizing collected with
  | nil => exact owes_now collected
  | cons first _ ih =>
      rw [List.map_cons, List.sum_cons, Debt.total, add_assoc]
      exact first.thenPending fun verdict owes => owes_walk owes ih collected

theorem Start.owes_startInOrder (batch : Bool) {start : Start S Action alphabet} {debt : Debt}
    (owes : Start.Owes allows debt start)
    (each : List.Forall₂ (fun start debt => Start.Owes allows debt start) starts debts) :
    Start.Owes allows ⟨debt.prompt, debt.later + (debts.map Debt.total).sum⟩
      (startInOrder batch (start :: starts)) := by
  apply owes.followed
  intro verdict owes
  exact ⟨rfl, FollowUp.owes_walk owes (FollowUp.owes_onward each) []⟩

end Starts

/-! ## Running a function -/

section Functions

variable {allows : Pending S Action (Action alphabet) .finished → Prop} {options : Options}
variable {spec : RunSpec S Action (Action alphabet)}

theorem Start.owes_ofAction {found : Noted (Option (Action alphabet))}
    (unannounced : found.Unannounced) : Start.Owes allows ⟨[], 0⟩ (Verdict.ofAction found) := by
  have noted : (Prompt.ofNoted found : Prompt S Action (Action alphabet) _).Calls allows []
      fun _ => True := Prompt.calls_ofNoted unannounced trivial
  apply noted.followed
  intro action _
  cases action with
  | none => exact ⟨rfl, rfl⟩
  | some action => exact ⟨rfl, FollowUp.owes_now [action]⟩

theorem Options.calls_reportHandled (options : Options) (cause : RunFailure) :
    (options.reportHandled cause).calls = [] := by
  rw [reportHandled]
  split <;> rfl

namespace RunSpec

/-- No creator announces a call. -/
structure Unannounced (spec : RunSpec S Action A) : Prop where
  success : ∀ value, (spec.successAction value).Unannounced
  failure : ∀ cause, (spec.failureAction cause).Unannounced

theorem unannounced_announced (site : Site) (spec : RunSpec S Action A) :
    (spec.announced site).Unannounced := by
  constructor
  · intro value
    cases onSuccess : spec.onSuccess with
    | none =>
        rw [successAction, announced, onSuccess]
        exact fun _ within => absurd within List.not_mem_nil
    | some creator =>
        rw [successAction, announced, onSuccess]
        exact (Noted.unannounced_quote _).map some
  · intro cause
    cases onFail : spec.onFail with
    | none =>
        rw [failureAction, announced, onFail]
        exact fun _ within => absurd within List.not_mem_nil
    | some creator =>
        rw [failureAction, announced, onFail]
        exact (Noted.unannounced_quote _).map some

theorem owes_settle (unannounced : spec.Unannounced) (outcome : Except RunFailure Json) :
    (spec.settle options outcome).Owes allows 0 Produced.Paid := by
  cases outcome with
  | ok value =>
      rw [settle]
      apply Pending.Owes.withNoted (unannounced.success value)
      exact FollowUp.owes_now _
  | error cause =>
      have failure := unannounced.failure cause
      rw [settle]
      rw [failureAction] at failure
      cases onFail : spec.onFail with
      | none => exact ⟨0, rfl, fun _ => FollowUp.owes_now []⟩
      | some creator =>
          rw [onFail] at failure
          have noted : (creator cause).Unannounced := by simpa [Noted.Unannounced, Functor.map] using failure
          refine ⟨0, ?_, fun _ => Pending.Owes.withNoted noted (FollowUp.owes_now _)⟩
          rw [Options.calls_reportHandled]
          rfl

theorem within_detached {later : Pending S Action (Action alphabet) .outcome}
    (within : later.Within .unannounced) : (detached later).Within .unannounced := by
  apply within.bind
  intro outcome
  cases outcome with
  | ok => exact ⟨rfl, fun _ => trivial⟩
  | error cause => exact ⟨rfl, fun _ => trivial⟩

theorem owes_executeReady (unannounced : spec.Unannounced) (outcome : Except RunFailure Json) :
    Start.Owes allows ⟨[], 0⟩ (spec.executeReady options outcome) := by
  cases outcome with
  | ok value => exact Start.owes_ofAction (unannounced.success value)
  | error cause =>
      rw [executeReady]
      cases spec.onFail with
      | none => exact ⟨[], rfl, fun _ => ⟨rfl, trivial⟩⟩
      | some creator =>
          refine ⟨[], ?_, fun _ => Start.owes_ofAction (unannounced.failure cause)⟩
          rw [Options.calls_reportHandled, List.append_nil]

theorem owes_executeDeferred (silent : ∀ task, task.Within .unannounced → allows task)
    (unannounced : spec.Unannounced) {later : Pending S Action (Action alphabet) .outcome}
    (within : later.Within .unannounced) :
    Start.Owes allows ⟨[], 0⟩ (spec.executeDeferred options later) := by
  rw [executeDeferred]
  cases spec.forceSync with
  | true => exact ⟨silent _ (within_detached within), Start.owes_ofAction (unannounced.success .null)⟩
  | false =>
      refine ⟨rfl, (within.owes silent 0).bind ?_⟩
      rintro outcome still rfl
      exact owes_settle unannounced outcome

/-- Executing a RUN calls its function, once and at once. -/
theorem owes_execute (silent : ∀ task, task.Within .unannounced → allows task) (site : Site)
    (spec : RunSpec S Action (Action alphabet)) :
    Start.Owes allows ⟨[site], 0⟩ ((spec.announced site).execute options) := by
  have quoted : ((spec.func spec.args).quote RunResult.quote).Calls allows [] fun output =>
      ∀ later, output = .deferred later → later.Within .unannounced := by
    apply Prompt.Within.calls _ silent
    apply Prompt.within_quote
    intro output later deferred
    cases output with
    | ready => cases deferred
    | deferred source =>
        cases deferred
        exact source.within_quote
  refine ⟨[], ?_, fun _ => quoted.followed ?_⟩
  · exact (congrArg (· ++ []) (Site.announced_announcement site)).symm
  · intro output within
    cases output with
    | ready outcome => exact owes_executeReady (unannounced_announced site spec) outcome
    | deferred later => exact owes_executeDeferred silent (unannounced_announced site spec) (within later rfl)

end RunSpec

end Functions

/-! ## Executing a command -/

namespace Cmd

/-- The calls of a command, under the names of their sites. -/
def debt (name : Site → Site) (cmd : Cmd S Action alphabet) : Debt := .ofSites cmd.sites name

section Lists

variable {count : Nat} (name : Site → Site) (cmds : Fin count → Cmd S Action alphabet) (batch : Bool)

theorem filter_sites_list (sequence : Bool) (keeps : Site → Bool) :
    ((list cmds sequence batch).sites.filter keeps).map name =
      (List.ofFn fun index => ((cmds index).sites.filter fun site =>
        keeps (⟨sequence, index⟩ :: site)).map fun site => name (⟨sequence, index⟩ :: site)).flatten := by
  simp [sites, List.filter_flatten, List.map_flatten, List.map_ofFn, Function.comp_def, List.filter_map]

/-- The debt of a command of a list. -/
def debtAt (sequence : Bool) (index : Fin count) : Debt :=
  (cmds index).debt fun site => name (⟨sequence, index⟩ :: site)

/-- All commands of a parallel list are started at once. -/
theorem debt_parallel :
    (list cmds false batch).debt name =
      ⟨(List.ofFn fun index => (debtAt name cmds false index).prompt).flatten,
        ∑ index, (debtAt name cmds false index).later⟩ := by
  have same (index : Nat) (site : Site) : Site.isPrompt (⟨false, index⟩ :: site) = site.isPrompt := rfl
  simp only [debt, Debt.ofSites, filter_sites_list, same, ← Interleaves.coe_flatten_ofFn, debtAt]

/-- Only the first command of a sequential list is started at once. -/
theorem debt_sequence (cmds : Fin (count + 1) → Cmd S Action alphabet) :
    (list cmds true batch).debt name =
      ⟨(debtAt name cmds true 0).prompt, (debtAt name cmds true 0).later +
        ∑ index : Fin count, (debtAt name cmds true index.succ).total⟩ := by
  have first (site : Site) : Site.isPrompt (⟨true, 0⟩ :: site) = site.isPrompt := rfl
  have other (index : Nat) (site : Site) : Site.isPrompt (⟨true, index + 1⟩ :: site) = false := rfl
  simp only [debtAt, debt, Debt.total_ofSites]
  simp only [Debt.ofSites, filter_sites_list, List.ofFn_succ, Fin.val_zero, Fin.val_succ, first, other,
    Bool.not_false, List.filter_true, List.filter_false, List.map_nil, List.flatten_cons,
    ← Interleaves.coe_flatten_ofFn]
  simp

end Lists

theorem owes_tagged {allows : Pending S Action (Action alphabet) .finished → Prop}
    {tagger : Action child → Noted (Action alphabet)} (quoted : ∀ action, (tagger action).Unannounced)
    {verdict : Verdict S Action (Action child) child} {due : Multiset Site}
    (owes : Verdict.Owes (fun task => allows (task.retag tagger)) due verdict) :
    Verdict.Owes allows due (Verdict.tagged tagger verdict) := by
  rcases verdict with cause | _ | follow
  · exact trivial
  · exact owes
  · have tagged : Pending.Owes allows due Produced.Paid (Pending.retag tagger follow) :=
      Pending.Owes.retag owes tagger fun _ allowed => allowed
    have both := FollowUp.owes_andThen tagged fun actions =>
      Pending.Owes.withNoted (Noted.unannounced_mapM quoted actions) (FollowUp.owes_now _)
    rwa [add_zero] at both

/-- Executing a command makes its prompt calls at once, in order, and its other calls are due then.  The
work that it hands over announces no call or is what a scheduled command registers. -/
theorem owes_execute (options : Options) (cmd : Cmd S Action alphabet) (name : Site → Site)
    {allows : Pending S Action (Action alphabet) .finished → Prop}
    (silent : ∀ task, task.Within .unannounced → allows task)
    (fires : ∀ task sites names, cmd.Fires options name task sites names → allows task) :
    Start.Owes allows (cmd.debt name) ((cmd.announced name).execute options) := by
  induction cmd generalizing name with
  | none => exact ⟨rfl, rfl⟩
  | action sent => exact ⟨rfl, FollowUp.owes_now [sent]⟩
  | run spec => exact RunSpec.owes_execute silent (name []) spec
  | @list _ count cmds sequence batch ih =>
      have each (index) := ih index (fun site => name (⟨sequence, index⟩ :: site)) silent
        fun task sites names fire => fires task sites names ⟨index, fire⟩
      cases sequence with
      | false =>
          have together := Start.owes_startTogether batch (forall₂_ofFn each)
          rw [List.flatMap_def, List.map_ofFn, List.map_ofFn, List.sum_ofFn] at together
          rw [debt_parallel]
          exact together
      | true =>
          cases count with
          | zero => exact ⟨rfl, rfl⟩
          | succ count =>
              have inOrder := Start.owes_startInOrder batch (each 0)
                (forall₂_ofFn fun index => each index.succ)
              rw [List.map_ofFn, List.sum_ofFn] at inOrder
              rw [debt_sequence, announced, execute, List.ofFn_succ]
              exact inOrder
  | map nested tagger args ih =>
      have nestedOwes := ih name
        (fun task within => silent _ (within.retag fun action => (tagger args action).quote))
        fun task sites names fire => fires _ sites names ⟨task, fire, rfl⟩
      rw [announced, execute_map]
      exact (nestedOwes.retag _ (fun _ allowed => allowed) fun _ owes => owes).map fun verdict owes =>
        owes_tagged (fun action => Noted.unannounced_quote _) owes
  | scheduled nested delay repeating onScheduled _ =>
      refine ⟨fires _ _ _ (.inl ⟨rfl, rfl, rfl⟩), fun handle => ⟨[], rfl, fun _ => ?_⟩⟩
      cases onScheduled with
      | none => exact ⟨rfl, rfl⟩
      | some creator => exact Start.owes_ofAction ((Noted.unannounced_quote _).map some)

end Cmd

/-! ## Firings -/

/-- One firing of a scheduled command pays the debt of the command that it executes, unless a failure is
reported. -/
structure Pending.Discharges (allows : Pending S Action A .finished → Prop) (debt : Debt)
    (task : Pending S Action A .finished) : Prop where
  owes : task.Owes allows debt.total fun _ _ => True
  opens : ∃ (β : Type) (first : Prompt S Action A β) (after : β → Pending S Action A .finished),
    task = first.thenPending after ∧ first.Calls allows debt.prompt fun _ => True
  whole : ∀ journal, task.Completes journal () →
    (∀ cause, Act.did (.performed (.log (.firingFailure cause)) ()) ∉ journal) →
      (calls journal : Multiset Site) = debt.total

namespace Pending.Discharges

variable {allows : Pending S Action (Action alphabet) .finished → Prop} {debt : Debt}

/-- The report of a failure calls nothing. -/
theorem owes_report (cause : CmdFailure) (due : Multiset Site) :
    Pending.Owes allows due (fun _ _ => True)
      (.logging (.firingFailure cause) (.done ()) : Pending S Action (Action alphabet) .finished) :=
  ⟨due, (zero_add due).symm, fun _ => trivial⟩

/-- Nothing is reported. -/
def Unreported (journal : List (Act S A)) : Prop :=
  ∀ cause, Act.did (.performed (.log (.firingFailure cause)) ()) ∉ journal

theorem not_completes_report {cause : CmdFailure} {journal : List (Act S (Action alphabet))}
    (unreported : Unreported journal) :
    ¬ (.logging (.firingFailure cause) (.done ()) :
      Pending S Action (Action alphabet) .finished).Completes journal () := by
  intro completes
  rcases Completes.of_call completes with ⟨reply, rest, -, rfl⟩
  exact unreported cause List.mem_cons_self

/-- What a firing dispatches in the end calls nothing, and neither does what follows. -/
theorem calls_of_completes_sendAll {actions : List (Noted (Action alphabet))}
    {journal : List (Act S (Action alphabet))}
    (completes : Pending.Completes (.sendAll actions fun
      | .ok () => (.done () : Pending S Action (Action alphabet) .finished)
      | .error cause => .logging (.firingFailure cause) (.done ())) journal ())
    (unreported : Unreported journal) : calls journal = [] := by
  rcases Completes.of_sendAll completes with ⟨reply, rest, ended, rfl⟩
  rw [calls_append, calls_sent]
  cases reply with
  | ok =>
      rw [(Completes.done_iff.1 ended).1]
      rfl
  | error cause =>
      have restUnreported : Unreported rest := fun other within =>
        unreported other (List.mem_append_right _ (List.mem_cons_of_mem _ within))
      exact absurd ended (not_completes_report restUnreported)

theorem firing {start : Start S Action alphabet} (owes : Start.Owes allows debt start) :
    Discharges allows debt (firing start) := by
  constructor
  · apply owes.thenPending
    intro verdict due
    rcases verdict with cause | _ | follow
    · exact owes_report cause _
    · exact trivial
    · apply Pending.Owes.bind due
      intro result still paid
      cases result with
      | error cause => exact owes_report cause still
      | ok actions =>
          intro reply
          cases reply with
          | ok => exact trivial
          | error cause => exact owes_report cause still
  · exact ⟨_, start, _, rfl, owes.mono (fun _ allowed => allowed) fun _ _ => trivial⟩
  · intro journal completes unreported
    rcases Completes.of_thenPending completes with ⟨opening, verdict, later, ends, after, rfl⟩
    rcases owes.of_ends ends with ⟨called, due⟩
    have laterUnreported : Unreported later := fun cause within =>
      unreported cause (List.mem_append_right opening within)
    rw [calls_append, called, ← Multiset.coe_add, Debt.total]
    congr 1
    rcases verdict with cause | _ | follow
    · exact absurd after (not_completes_report laterUnreported)
    · rw [(Completes.done_iff.1 after).1]
      exact (show debt.later = 0 from due).symm
    · rcases Completes.of_bind after with ⟨middle, result, last, followEnds, closing, rfl⟩
      have lastUnreported : Unreported last := fun cause within =>
        laterUnreported cause (List.mem_append_right middle within)
      cases result with
      | error cause => exact absurd closing (not_completes_report lastUnreported)
      | ok actions =>
          rcases Pending.Owes.of_does due followEnds with ⟨still, paid, same⟩
          rw [same, show still = 0 from paid, add_zero, calls_append,
            calls_of_completes_sendAll closing lastUnreported, List.append_nil]

/-- Tagging what a firing sends changes nothing in its calls. -/
theorem retag {allows : Pending S Action (Action child) .finished → Prop}
    {permits : Pending S Action (Action alphabet) .finished → Prop}
    {task : Pending S Action (Action child) .finished} (discharges : Discharges allows debt task)
    (tagger : Action child → Noted (Action alphabet))
    (loose : ∀ task, allows task → permits (task.retag tagger)) :
    Discharges permits debt (task.retag tagger) := by
  constructor
  · exact discharges.owes.retag tagger loose
  · rcases discharges.opens with ⟨β, first, after, rfl, made⟩
    exact ⟨β, first.retag tagger, _, Prompt.retag_thenPending _ _ _,
      made.retag tagger loose fun _ _ => trivial⟩
  · intro journal completes unreported
    rcases Completes.of_retag completes with ⟨source, sourceCompletes, rfl⟩
    rw [calls_retag]
    apply discharges.whole source sourceCompletes
    intro cause within
    exact unreported cause (List.mem_map.2 ⟨_, within, rfl⟩)

end Pending.Discharges

namespace Cmd

/-- What a scheduled command registers pays, at each firing, the debt of the command that it executes. -/
theorem Fires.discharges {options : Options} {cmd : Cmd S Action alphabet} {name : Site → Site}
    {allows : Pending S Action (Action alphabet) .finished → Prop}
    (silent : ∀ task, task.Within .unannounced → allows task)
    (loose : ∀ task sites names, cmd.Fires options name task sites names → allows task)
    {task : Pending S Action (Action alphabet) .finished} {sites : List Site} {names : Site → Site}
    (fires : cmd.Fires options name task sites names) :
    task.Discharges allows (.ofSites sites names) := by
  induction cmd generalizing name with
  | none | action | run => cases fires
  | list cmds sequence batch ih =>
      rcases fires with ⟨index, fires⟩
      exact ih index silent (fun task sites names fire => loose task sites names ⟨index, fire⟩) fires
  | map nested tagger args ih =>
      rcases fires with ⟨source, fires, rfl⟩
      have nestedDischarges := ih
        (fun task within => silent _ (within.retag fun action => (tagger args action).quote))
        (fun task sites names fire => loose _ sites names ⟨task, fire, rfl⟩) fires
      exact nestedDischarges.retag _ fun _ allowed => allowed
  | scheduled nested delay repeating onScheduled ih =>
      have inside (task sites names) (fire : nested.Fires options name task sites names) : allows task :=
        loose task sites names (.inr fire)
      rcases fires with ⟨rfl, rfl, rfl⟩ | fires
      · exact .firing (nested.owes_execute options names silent inside)
      · exact ih silent inside fires

/-- The names are told apart, and so are the sites of the command that is executed. -/
theorem Fires.nodup {options : Options} {cmd : Cmd S Action alphabet} {name : Site → Site}
    (injective : Function.Injective name) {task : Pending S Action (Action alphabet) .finished}
    {sites : List Site} {names : Site → Site} (fires : cmd.Fires options name task sites names) :
    (sites.map names).Nodup := by
  induction cmd generalizing name with
  | none | action | run => cases fires
  | list cmds sequence batch ih =>
      rcases fires with ⟨index, fires⟩
      exact ih index (fun _ _ same => List.cons_injective (injective same)) fires
  | map nested tagger args ih =>
      rcases fires with ⟨source, fires, rfl⟩
      exact ih injective fires
  | scheduled nested delay repeating onScheduled ih =>
      rcases fires with ⟨rfl, rfl, rfl⟩ | fires
      · exact nested.nodup_sites.map injective
      · exact ih injective fires

end Cmd

end Debts

/-! ## Each RUN once -/

/-- In every history of the command each RUN is called at most once, and exactly once if the command does
not fail. -/
structure Start.CallsOnce (sites : List Site) (start : Start S Action alphabet) : Prop where
  /-- The call itself calls the RUNs that are the first in every sequential list around them, from left
  to right. -/
  prompt {opening verdict} : start.Ends opening verdict → calls opening = sites.filter Site.isPrompt
  /-- If nothing is pending then, every RUN has been called. -/
  nothing {opening} : start.Ends opening (.ok none) → (calls opening).Perm sites
  /-- Whatever follows, nothing is called twice. -/
  once {opening follow journal left} : start.Ends opening (.ok (some follow)) → follow.Does journal left →
    (calls (opening ++ journal)).Nodup ∧ calls (opening ++ journal) ⊆ sites
  /-- When it is over, every RUN has been called. -/
  whole {opening follow journal actions} : start.Ends opening (.ok (some follow)) →
    follow.Completes journal (.ok actions) → (calls (opening ++ journal)).Perm sites

/-- In every history of a firing each RUN is called at most once, and exactly once if no failure is
reported.  The firing starts the command anew. -/
structure Pending.FiresOnce (sites : List Site) (names : Site → Site)
    (task : Pending S Action A .finished) : Prop where
  /-- The first calls are those of the RUNs that are the first in every sequential list around them, from
  left to right. -/
  prompt {journal left} : task.Does journal left →
    calls journal <+: (sites.filter Site.isPrompt).map names ∨
      (sites.filter Site.isPrompt).map names <+: calls journal
  /-- Nothing is called twice. -/
  once {journal left} : task.Does journal left →
    (calls journal).Nodup ∧ calls journal ⊆ sites.map names
  /-- When it is over, every RUN has been called. -/
  whole {journal} : task.Completes journal () →
    (∀ cause, Act.did (.performed (.log (.firingFailure cause)) ()) ∉ journal) →
    (calls journal).Perm (sites.map names)

/-- The work is handed over in the call of the command or by what follows. -/
def Start.Gives (start : Start S Action alphabet) (task : Pending S Action (Action alphabet) .finished) :
    Prop :=
  Prompt.Gives start task ∨
    ∃ opening follow, start.Ends opening (.ok (some follow)) ∧ Pending.Gives follow task

theorem once_of_le {found sites : List Site} (distinct : sites.Nodup)
    (le : (found : Multiset Site) ≤ sites) : found.Nodup ∧ found ⊆ sites :=
  ⟨Multiset.coe_nodup.1 (Multiset.nodup_of_le le distinct),
    Multiset.coe_subset.1 (Multiset.subset_of_le le)⟩

theorem Start.Owes.callsOnce {allows : Pending S Action (Action alphabet) .finished → Prop}
    {cmd : Cmd S Action alphabet} {start : Start S Action alphabet}
    (owes : Start.Owes allows (cmd.debt id) start) : start.CallsOnce cmd.sites := by
  have total : ((cmd.debt id).prompt : Multiset Site) + (cmd.debt id).later = cmd.sites := by
    have whole := Debt.total_ofSites cmd.sites id
    rwa [List.map_id] at whole
  constructor
  · intro opening verdict ends
    rw [(owes.of_ends ends).1, Cmd.debt, Debt.ofSites, List.map_id]
  · intro opening ends
    rcases owes.of_ends ends with ⟨called, due⟩
    rw [← Multiset.coe_eq_coe, called, ← total, show (cmd.debt id).later = 0 from due, add_zero]
  · intro opening follow journal left ends does
    rcases owes.of_ends ends with ⟨called, due⟩
    rcases Pending.Owes.of_does due does with ⟨still, -, same⟩
    apply once_of_le cmd.nodup_sites
    rw [calls_append, called, ← Multiset.coe_add, ← total, same]
    exact add_le_add_right (Multiset.le_add_right _ _) _
  · intro opening follow journal actions ends completes
    rcases owes.of_ends ends with ⟨called, due⟩
    rcases Pending.Owes.of_does due completes with ⟨still, paid, same⟩
    rw [← Multiset.coe_eq_coe, calls_append, called, ← Multiset.coe_add, ← total, same,
      show still = 0 from paid, add_zero]

theorem Pending.Discharges.firesOnce {allows : Pending S Action A .finished → Prop} {sites : List Site}
    {names : Site → Site} {task : Pending S Action A .finished} (distinct : (sites.map names).Nodup)
    (discharges : task.Discharges allows (.ofSites sites names)) : task.FiresOnce sites names := by
  constructor
  · intro journal left does
    rcases discharges.opens with ⟨β, first, after, rfl, made⟩
    exact made.first_of_does does
  · intro journal left does
    rcases discharges.owes.of_does does with ⟨still, -, same⟩
    apply once_of_le distinct
    rw [← Debt.total_ofSites, same]
    exact Multiset.le_add_right _ _
  · intro journal completes unreported
    rw [← Multiset.coe_eq_coe, discharges.whole journal completes unreported,
      Debt.total_ofSites]

namespace Cmd

/-- Every RUN is called exactly once, at the right moment.  In the call that starts a command, the RUNs
that nothing precedes are called, from left to right; each other one is called at most once in what
follows, and exactly once if the command does not fail; and the RUNs of a command that is executed later
are not called.  Whatever work is handed over calls no RUN, or it is what a scheduled command registers:
then each firing calls the RUNs of the command in the same way, and the work that it hands over is again
of this kind. -/
theorem calls_each_once (options : Options) (cmd : Cmd S Action alphabet) :
    ((cmd.announced id).execute options).CallsOnce cmd.sites ∧
      (∀ task, ((cmd.announced id).execute options).Gives task →
        task.Within .unannounced ∨ ∃ sites names, cmd.Fires options id task sites names) ∧
      ∀ task sites names, cmd.Fires options id task sites names → task.FiresOnce sites names ∧
        ∀ other, task.Gives other →
          other.Within .unannounced ∨ ∃ sites names, cmd.Fires options id other sites names := by
  let allows (task : Pending S Action (Action alphabet) .finished) : Prop :=
    task.Within .unannounced ∨ ∃ sites names, cmd.Fires options id task sites names
  have silent (task) (within : task.Within .unannounced) : allows task := .inl within
  have loose (task sites names) (fires : cmd.Fires options id task sites names) : allows task :=
    .inr ⟨sites, names, fires⟩
  have owes := cmd.owes_execute options id silent loose
  refine ⟨owes.callsOnce, ?_, ?_⟩
  · intro task gives
    rcases gives with gives | ⟨opening, follow, ends, gives⟩
    · exact Prompt.Calls.allows_of_gives owes gives
    · exact Pending.Owes.allows_of_gives (owes.of_ends ends).2 gives
  · intro task sites names fires
    have discharges := fires.discharges silent loose
    exact ⟨discharges.firesOnce (fires.nodup Function.injective_id),
      fun other gives => discharges.owes.allows_of_gives gives⟩

end Cmd

end EffectLoop
