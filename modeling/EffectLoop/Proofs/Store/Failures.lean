import EffectLoop.Proofs.Store.Coverage
import EffectLoop.Proofs.World.Hosting

/-!
# Failures that work carries

Work *carries* a failure if one of its parts has come to it.  Whatever a step does, the failures that
work carries after it were carried before, or they are those of RUNs that have failed at once in it; and
failures that were carried, or that have come up in the step, do not all vanish (`Work.Step.kept`).
This holds in a context whose audits tell the truth (`Auditor.Fair`), as those of an open store do.
-/

namespace EffectLoop

variable {S ι : Type} {Action : ι → Type} {A α β : Type} {alphabet child : ι} {answer : Answer ι}

/-! ## Failures -/

/-- The failure that a result is. -/
def Answer.Fails (cause : CmdFailure) : (answer : Answer ι) → answer.Value Action → Prop
  | .actions _, value => value = .error cause
  | .settled, value => value = .error cause
  | _, _ => False

/-- A part of the work has come to the failure. -/
def Work.Carries (cause : CmdFailure) : {answer : Answer ι} → Work S Action A answer → Prop
  | answer, final value => answer.Fails cause value
  | _, single _ => False
  | _, tagging _ inner => inner.Carries cause
  | _, awaiting _ _ inner => inner.Carries cause
  | _, settling _ _ _ _ caused => ∃ index, (caused index).Carries cause
  | _, together _ members => ∃ index, (members index).Carries cause

/-- The failures after something was done are those before it and those of the RUNs that have failed at
once in it; and if there were any, some are left. -/
structure Inherits (before : CmdFailure → Prop) (more : List RunFailure) (after : CmdFailure → Prop) :
    Prop where
  traced : ∀ cause, after cause → before cause ∨ ∃ blamed ∈ more, cause = .unhandledFailure blamed
  left : (∃ cause, before cause) ∨ more ≠ [] → ∃ cause, after cause

/-- There is no failure. -/
abbrev Faultless : CmdFailure → Prop := fun _ => False

namespace Inherits

variable {before middle after : CmdFailure → Prop} {more later : List RunFailure}

theorem rest (before : CmdFailure → Prop) : Inherits before [] before := by
  constructor
  · intro cause holds
    exact .inl holds
  · rintro (found | none)
    · exact found
    · exact absurd rfl none

theorem congr {was now : CmdFailure → Prop} (inherits : Inherits was more now)
    (first : ∀ cause, before cause ↔ was cause) (last : ∀ cause, after cause ↔ now cause) :
    Inherits before more after := by
  constructor
  · intro cause holds
    rw [first]
    exact inherits.traced cause ((last cause).1 holds)
  · simp only [first, last]
    exact inherits.left

theorem trans (first : Inherits before more middle) (second : Inherits middle later after) :
    Inherits before (more ++ later) after := by
  constructor
  · intro cause holds
    rcases second.traced cause holds with held | ⟨blamed, within, same⟩
    · rcases first.traced cause held with held | ⟨blamed, within, same⟩
      · exact .inl held
      · exact .inr ⟨blamed, List.mem_append_left _ within, same⟩
    · exact .inr ⟨blamed, List.mem_append_right _ within, same⟩
  · rintro (held | some)
    · exact second.left (.inl (first.left (.inl held)))
    · by_cases none : more = []
      · rw [none] at some
        exact second.left (.inr some)
      · exact second.left (.inl (first.left (.inr none)))

/-- One of the failures is left. -/
theorem single {failure : CmdFailure} (held : before failure)
    (same : ∀ cause, after cause ↔ failure = cause) :
    Inherits before [] after := by
  constructor
  · intro cause holds
    rw [same] at holds
    exact .inl (holds ▸ held)
  · intro _
    exact ⟨failure, (same failure).2 rfl⟩

/-- A part of a family does something. -/
theorem inFamily {count : Nat} {works : Fin count → Work S Action A answer} {index : Fin count}
    {left : Work S Action A answer}
    (inherits : Inherits ((works index).Carries ·) more (left.Carries ·)) :
    Inherits (fun cause => ∃ index, (works index).Carries cause) more
      fun cause => ∃ other, (Function.update works index left other).Carries cause := by
  constructor
  · intro cause carries
    rcases (Function.exists_update_iff works fun _ work => work.Carries cause).1 carries with
      now | ⟨other, _, held⟩
    · rcases inherits.traced cause now with held | blamed
      · exact .inl ⟨index, held⟩
      · exact .inr blamed
    · exact .inl ⟨other, held⟩
  · have found (some : (∃ cause, (works index).Carries cause) ∨ more ≠ []) :
        ∃ cause other, (Function.update works index left other).Carries cause := by
      rcases inherits.left some with ⟨cause, carries⟩
      refine ⟨cause, ?_⟩
      exact (Function.exists_update_iff works fun _ work => work.Carries cause).2 (.inl carries)
    rintro (⟨cause, other, held⟩ | some)
    · by_cases same : other = index
      · rw [same] at held
        exact found (.inl ⟨cause, held⟩)
      · refine ⟨cause, ?_⟩
        exact (Function.exists_update_iff works fun _ work => work.Carries cause).2
          (.inr ⟨other, same, held⟩)
    · exact found (.inr some)

/-- Many things are done, each of which brings its own failures. -/
theorem flatMap {parts : List α} {culprits : α → List RunFailure} {carries : α → CmdFailure → Prop}
    (each : ∀ part ∈ parts, Inherits Faultless (culprits part) (carries part)) :
    Inherits Faultless (parts.flatMap culprits) fun cause => ∃ part ∈ parts, carries part cause := by
  constructor
  · rintro cause ⟨part, member, held⟩
    rcases (each part member).traced cause held with none | ⟨blamed, within, same⟩
    · exact none.elim
    · exact .inr ⟨blamed, List.mem_flatMap.2 ⟨part, member, within⟩, same⟩
  · rintro (⟨_, none⟩ | some)
    · exact none.elim
    · rcases List.exists_mem_of_ne_nil _ some with ⟨blamed, within⟩
      rcases List.mem_flatMap.1 within with ⟨part, member, inside⟩
      rcases (each part member).left (.inr (List.ne_nil_of_mem inside)) with ⟨cause, held⟩
      exact ⟨cause, part, member, held⟩

end Inherits

/-- What has failed, in whichever alphabet its actions would have been. -/
theorem Work.carries_error {cause failure : CmdFailure} :
    (final (.error cause) : Work S Action A (.actions alphabet)).Carries failure ↔ cause = failure := by
  rw [Carries, Answer.Fails, Except.error.injEq]

theorem Answer.fails_failed {cause failure : CmdFailure} (after : After S Action alphabet answer) :
    answer.Fails failure (after.failed cause) ↔ cause = failure := by
  cases after <;> exact Except.error.injEq _ _ ▸ Iff.rfl

/-- All replies are good, or the first bad one is what comes of them. -/
theorem firstFailure_cases {count : Nat} (replies : Fin count → Except CmdFailure Unit) :
    (∃ index cause, replies index = .error cause ∧ firstFailure replies = .error cause) ∨
      (∀ index, replies index = .ok ()) ∧ firstFailure replies = .ok () := by
  induction count with
  | zero => exact .inr ⟨fun index => index.elim0, rfl⟩
  | succ count ih =>
      rw [firstFailure, List.ofFn_succ]
      cases head : replies 0 with
      | error cause => exact .inl ⟨0, cause, head, rfl⟩
      | ok reply =>
          rcases ih fun index => replies index.succ with ⟨index, cause, failed, first⟩ | ⟨good, first⟩
          · exact .inl ⟨index.succ, cause, failed, first⟩
          · refine .inr ⟨?_, first⟩
            intro index
            cases index using Fin.cases with
            | zero => exact head
            | succ index => exact good index

/-! ## Futures of RUNs -/

/-- However it is polled, in whatever worlds, the future does not fail. -/
def FollowUp.Unfailing (dispatch : Dispatcher S Action A) (follow : FollowUp S Action A alphabet) :
    Prop :=
  ∀ world result later, Driven dispatch (fun _ _ => True) (follow, world) (.done result, later) →
    ∃ actions, result = .ok actions

theorem FollowUp.Unfailing.poll {dispatch : Dispatcher S Action A} {depth : Nat} {waiter : Waiter}
    {follow left : FollowUp S Action A alphabet} {world later : World S Action A}
    (unfailing : follow.Unfailing dispatch)
    (answered : Pending.poll (.ofDispatch dispatch depth) waiter follow world = (.ok left, later)) :
    left.Unfailing dispatch :=
  Pending.Always.polled unfailing answered

/-- Whatever is awaited first, what comes after it is over at once and does not fail. -/
theorem FollowUp.unfailing_bind {dispatch : Dispatcher S Action A} (first : Pending S Action A answer)
    {after : answer.Value Action → FollowUp S Action A alphabet}
    (prompt : ∀ value depth waiter world,
      (Pending.poll (.ofDispatch dispatch depth) waiter (after value)).Leads world
        fun left _ => ∃ actions, left = .done (.ok actions)) :
    FollowUp.Unfailing dispatch (first.bind after) := by
  have any : first.Always dispatch fun _ => True := fun _ _ _ _ => trivial
  refine any.bind fun value _ => Pending.Always.of_over ?_
  intro depth waiter world
  apply (prompt value depth waiter world).mono
  rintro _ _ ⟨actions, rfl⟩
  exact ⟨.ok actions, rfl, actions, rfl⟩

theorem FollowUp.unfailing_now (dispatch : Dispatcher S Action A) (actions : List (Action alphabet)) :
    FollowUp.Unfailing dispatch (.now actions) :=
  Pending.Always.done ⟨actions, rfl⟩

namespace RunSpec

variable {options : Options} {tag : Action alphabet → Noted A} {engine : Engine S Action A}
variable (spec : RunSpec S Action (Action alphabet)) (waiter : Waiter) (world : World S Action A)

theorem poll_noted_leads (found : Noted α) (actions : α → List (Action alphabet)) :
    (Pending.poll engine waiter (Pending.retag tag
      (.withNoted found fun value => FollowUp.now (actions value)))).Leads world
      fun left _ => ∃ actions, left = .done (.ok actions) := by
  constructor
  intro left later answered
  rw [Pending.retag_withNoted, Pending.poll_withNoted] at answered
  cases answered
  exact ⟨_, rfl⟩

/-- When the output of a RUN that was pending is known, the rest is over at once and does not fail. -/
theorem settle_leads (outcome : Except RunFailure Json) :
    (Pending.poll engine waiter (Pending.retag tag (spec.settle options outcome))).Leads world
      fun left _ => ∃ actions, left = .done (.ok actions) := by
  have logged (effect : Primitive) {next : FollowUp S Action (Action alphabet) alphabet}
      (nextLeads : ∀ world, (Pending.poll engine waiter (Pending.retag tag next)).Leads world
        fun left _ => ∃ actions, left = .done (.ok actions)) :
      (Pending.poll engine waiter (Pending.retag tag (.call effect fun _ => next))).Leads world
        fun left _ => ∃ actions, left = .done (.ok actions) :=
    (Run.Leads.self (Run.perform effect) world).bind fun _ middle _ => nextLeads middle
  cases outcome with
  | ok value => exact poll_noted_leads waiter world _ _
  | error cause =>
      rw [settle]
      split
      next creator =>
          exact logged _ fun world => poll_noted_leads waiter world _ _
      next => exact logged _ fun _ => .pure ⟨[], rfl⟩

/-- The future of a RUN does not fail. -/
theorem unfailing_deferred (options : Options) (dispatch : Dispatcher S Action A)
    (tag : Action alphabet → Noted A) (later : Pending S Action (Action alphabet) .outcome) :
    FollowUp.Unfailing dispatch (Pending.retag tag (later.bind (spec.settle options))) := by
  rw [Pending.retag_bind]
  apply FollowUp.unfailing_bind
  intro outcome depth waiter world
  exact spec.settle_leads waiter world outcome

end RunSpec

/-! ## Commands that are started -/

section Starts

variable (dispatch : Dispatcher S Action A)

/-- The futures of single RUNs in the work do not fail. -/
def Work.Sound : {answer : Answer ι} → Work S Action A answer → Prop
  | _, final _ => True
  | _, single follow => follow.Unfailing dispatch
  | _, tagging _ inner => inner.Sound
  | _, awaiting _ _ inner => inner.Sound
  | _, settling _ _ _ _ caused => ∀ index, (caused index).Sound
  | _, together _ members => ∀ index, (members index).Sound

/-- The work carries failures if and only if RUNs have failed at once, and it carries only theirs. -/
structure Work.Bears (culprits : List RunFailure) (work : Work S Action A answer) : Prop where
  sound : work.Sound dispatch
  inherits : Inherits Faultless culprits (work.Carries ·)

/-- The verdict of a command without parts, and the RUN that has failed at once in it. -/
inductive Verdict.Bears (tag : Action alphabet → Noted A) :
    List RunFailure → Verdict S Action (Action alphabet) alphabet → Prop where
  | fails (cause : RunFailure) : Bears tag [cause] (.error (.unhandledFailure cause))
  | ends : Bears tag [] (.ok none)
  | follows {follow : FollowUp S Action (Action alphabet) alphabet} :
      FollowUp.Unfailing dispatch (Pending.retag tag follow) → Bears tag [] (.ok (some follow))

end Starts

variable {dispatch : Dispatcher S Action A}

theorem Work.Bears.of_carries_nothing {work : Work S Action A answer} (sound : work.Sound dispatch)
    (nothing : ∀ cause, ¬ work.Carries cause) : work.Bears dispatch [] := by
  refine ⟨sound, ⟨?_, ?_⟩⟩
  · intro cause carries
    exact absurd carries (nothing cause)
  · rintro (⟨_, held⟩ | none)
    · exact held.elim
    · exact absurd rfl none

namespace Verdict

variable {tag : Action alphabet → Noted A}

theorem bears_ofAction (found : Noted (Option (Action alphabet))) :
    (ofAction found : Start S Action alphabet).Within .lax (Bears dispatch tag []) := by
  apply (Prompt.within_lax _).bind
  intro action _
  cases action with
  | none => exact Bears.ends
  | some action => exact Bears.follows (FollowUp.unfailing_now dispatch [action])

theorem Bears.single {culprits : List RunFailure}
    {verdict : Verdict S Action (Action alphabet) alphabet} (bears : verdict.Bears dispatch tag culprits) :
    (Audit.single tag culprits verdict).work.Bears dispatch culprits := by
  cases bears with
  | fails cause =>
      refine ⟨trivial, ⟨?_, ?_⟩⟩
      · intro failure carries
        cases carries
        exact .inr ⟨cause, List.mem_singleton_self cause, rfl⟩
      · intro _
        exact ⟨.unhandledFailure cause, rfl⟩
  | ends => exact .of_carries_nothing trivial fun _ carries => nomatch carries
  | follows unfailing => exact .of_carries_nothing unfailing fun _ carries => carries

end Verdict

namespace RunSpec

variable (options : Options) (spec : RunSpec S Action (Action alphabet))
variable (tag : Action alphabet → Noted A)

/-- A RUN that fails at once without a fail creator is to blame for the verdict, and no other is. -/
theorem bears_conclude (output : RunResult S Action (Action alphabet)) :
    (spec.conclude options output).Within .lax (Verdict.Bears dispatch tag (spec.culprits output)) := by
  cases output with
  | ready outcome =>
      cases outcome with
      | ok value => exact Verdict.bears_ofAction _
      | error cause =>
          rw [conclude, executeReady, culprits]
          cases spec.onFail with
          | none => exact ⟨trivial, fun _ => Verdict.Bears.fails cause⟩
          | some creator =>
              change Prompt.Within .lax (Verdict.Bears dispatch tag []) _
              exact ⟨trivial, fun _ => Verdict.bears_ofAction _⟩
  | deferred later =>
      rw [conclude, executeDeferred]
      split
      · exact ⟨Pending.within_lax _, Verdict.bears_ofAction _⟩
      · exact Verdict.Bears.follows (spec.unfailing_deferred options dispatch tag later)

end RunSpec

namespace Audit

variable {tag : Action alphabet → Noted A}

/-- The work that is left carries the failures that the audit tells. -/
abbrev Fair (dispatch : Dispatcher S Action A) (audit : Audit S Action A alphabet) : Prop :=
  audit.work.Bears dispatch audit.culprits

theorem fair_single {culprits : List RunFailure} {start : Start S Action alphabet}
    (bears : start.Within .lax (Verdict.Bears dispatch tag culprits)) :
    (single tag culprits <$> start.retag tag).Within .lax (Fair dispatch) := by
  apply (bears.retag tag fun _ => id).map
  intro verdict bears
  exact bears.single

theorem fair_tagged (tagger : Action child → Noted (Action alphabet)) {audit : Audit S Action A child}
    (fair : audit.Fair dispatch) : (audit.tagged tagger).Fair dispatch := by
  rcases audit with ⟨culprits, cause | _ | work⟩
  · exact ⟨trivial, fair.inherits.congr (fun _ => Iff.rfl) fun _ => Work.carries_error.trans
      Work.carries_error.symm⟩
  · exact ⟨trivial, fair.inherits.congr (fun _ => Iff.rfl) fun _ => ⟨nofun, nofun⟩⟩
  · exact ⟨fair.sound, fair.inherits⟩

theorem fair_sibling {batch : Bool} {audit : Audit S Action A alphabet} (fair : audit.Fair dispatch)
    {work : Work S Action A (.actions alphabet)} (left : audit.sibling? tag batch = some work) :
    work.Sound dispatch := by
  rcases audit with ⟨culprits, cause | _ | follow⟩
  · cases left
    exact trivial
  · cases left
  · cases left
    cases batch <;> exact fair.sound

theorem carries_sibling {batch : Bool} {audit : Audit S Action A alphabet} {cause : CmdFailure} :
    audit.work.Carries cause ↔ ∃ work, audit.sibling? tag batch = some work ∧ work.Carries cause := by
  rcases audit with ⟨culprits, failure | _ | follow⟩
  · simp [work, sibling?]
  · simp [work, sibling?, Work.Carries, Answer.Fails]
  · cases batch <;> simp [work, sibling?, Work.Carries]

theorem carries_together {batch : Bool} {members : List (Audit S Action A alphabet)}
    {cause : CmdFailure} :
    (together tag batch members).work.Carries cause ↔ ∃ audit ∈ members, audit.work.Carries cause := by
  have among : (∃ audit ∈ members, audit.work.Carries cause) ↔
      ∃ work ∈ members.filterMap (sibling? tag batch), work.Carries cause := by
    constructor
    · rintro ⟨audit, member, carries⟩
      rcases carries_sibling.1 carries with ⟨work, left, carries⟩
      exact ⟨work, List.mem_filterMap.2 ⟨audit, member, left⟩, carries⟩
    · rintro ⟨work, within, carries⟩
      rcases List.mem_filterMap.1 within with ⟨audit, member, left⟩
      exact ⟨audit, member, carries_sibling.2 ⟨work, left, carries⟩⟩
  rw [among, together, work]
  cases members.filterMap (sibling? tag batch) with
  | nil => simp [Work.Carries, Answer.Fails]
  | cons first rest => exact List.exists_mem_iff_get.symm

theorem fair_together {batch : Bool} {members : List (Audit S Action A alphabet)}
    (fair : ∀ audit ∈ members, audit.Fair dispatch) : (together tag batch members).Fair dispatch := by
  constructor
  · have each : ∀ work ∈ members.filterMap (sibling? tag batch), work.Sound dispatch := by
      intro work within
      rcases List.mem_filterMap.1 within with ⟨audit, member, left⟩
      exact fair_sibling (fair audit member) left
    rw [together, work]
    cases found : members.filterMap (sibling? tag batch) with
    | nil => exact trivial
    | cons first rest =>
        rw [found] at each
        exact List.forall_mem_iff_get.1 each
  · exact (Inherits.flatMap fun audit member => (fair audit member).inherits).congr (fun _ => Iff.rfl)
      fun _ => carries_together

theorem fair_inOrder (batch : Bool) (cmds : List (Cmd S Action alphabet))
    {starts : List (Prompt S Action A (Audit S Action A alphabet))}
    (fair : ∀ start ∈ starts, start.Within .lax (Fair dispatch)) :
    (inOrder tag batch cmds starts).Within .lax (Fair dispatch) := by
  cases starts with
  | nil => exact .of_carries_nothing trivial fun _ carries => nomatch carries
  | cons head _ =>
      apply (fair head List.mem_cons_self).bind
      intro audit fair
      exact ⟨fair.sound, fair.inherits⟩

end Audit

/-- The audit of a command is fair: the work that is left carries the failures of the RUNs that have
failed at once. -/
theorem Cmd.audit_fair (options : Options) (cmd : Cmd S Action alphabet)
    (tag : Action alphabet → Noted A) :
    (cmd.audit options tag).Within .lax (Audit.Fair dispatch) := by
  induction cmd with
  | none => exact Audit.fair_single Verdict.Bears.ends
  | action sent =>
      exact Audit.fair_single (Verdict.Bears.follows (FollowUp.unfailing_now dispatch [sent]))
  | scheduled nested delay repeating onScheduled _ =>
      apply Audit.fair_single
      refine ⟨Pending.within_lax _, fun handle => ⟨trivial, fun _ => ?_⟩⟩
      cases onScheduled with
      | none => exact Verdict.Bears.ends
      | some creator => exact Verdict.bears_ofAction _
  | run spec =>
      apply (Prompt.within_lax _).bind
      intro output _
      exact Audit.fair_single (spec.bears_conclude options tag output)
  | map nested tagger args ih =>
      apply (ih _).map
      intro audit fair
      exact Audit.fair_tagged (tagger args) fair
  | list cmds sequence batch ih =>
      have each : ∀ start ∈ List.ofFn fun index => (cmds index).audit options tag,
          start.Within .lax (Audit.Fair dispatch) := by
        intro start within
        rcases List.mem_ofFn.1 within with ⟨index, rfl⟩
        exact ih index tag
      cases sequence with
      | false =>
          apply (Prompt.Within.mapM each).map
          intro members fair
          exact Audit.fair_together fair
      | true => exact Audit.fair_inOrder batch _ each

/-! ## Steps -/

/-- Dispatches leave worlds of the kind such worlds, and their audits are fair there. -/
structure Auditor.Fair (kind : World S Action A → Prop) (dispatch : Dispatcher S Action A)
    (auditor : Auditor S Action A) : Prop where
  tolerant : Tolerant (World.Stays kind)
  keeps : ∀ depth, (Engine.ofDispatch dispatch depth).Keeps (World.Stays kind)
  bears : ∀ depth action, Run.Ensures kind (fun caused => caused.2.Bears dispatch caused.1)
    (auditor (.ofDispatch dispatch depth) action)

/-- The failures that work carried before are accounted for by what it has become. -/
structure Work.Kept (kind : World S Action A → Prop) (dispatch : Dispatcher S Action A)
    (before : Work S Action A answer) (more : List RunFailure)
    (now : Work S Action A answer × World S Action A) : Prop where
  world : kind now.2
  sound : now.1.Sound dispatch
  inherits : Inherits (before.Carries ·) more (now.1.Carries ·)

section Fair

variable {options : Options} {auditor : Auditor S Action A} {kind : World S Action A → Prop}
variable (fair : auditor.Fair kind dispatch)
include fair

theorem Auditor.Fair.start (depth : Nat) (action : Noted A) :
    Run.Ensures kind (fun caused => caused.2.Bears dispatch caused.1)
      (auditor.start dispatch depth action) := by
  cases depth with
  | zero =>
      apply Run.Ensures.after (.adopt fair.tolerant action)
      intro _
      exact .throw .exhausted
  | succ depth =>
      apply Run.Ensures.after (.adopt fair.tolerant action)
      intro action
      exact fair.bears depth action

theorem After.GoesOn.bears {tag : Action alphabet → Noted A} {after : After S Action alphabet answer}
    {actions : List (Action alphabet)} {world : World S Action A} {culprits : List RunFailure}
    {now : Work S Action A answer × World S Action A}
    (goesOn : after.GoesOn options dispatch tag actions world culprits now) (start : kind world) :
    kind now.2 ∧ now.1.Bears dispatch culprits := by
  cases goesOn with
  | sibling => exact ⟨start, .of_carries_nothing trivial fun _ carries => nomatch carries⟩
  | reply => exact ⟨start, .of_carries_nothing trivial fun _ carries => nomatch carries⟩
  | ends batch collected => exact ⟨start, .of_carries_nothing trivial fun _ carries => nomatch carries⟩
  | @starts next rest audit later batch collected depth started =>
      have audited : audit.Fair dispatch :=
        ((next.audit_fair options tag).run_leads _ world).holds _ _ started
      have keeps := Prompt.run_keeps fair.tolerant (fair.keeps depth) (next.audit options tag)
      have stays := keeps world start
      rw [started] at stays
      exact ⟨stays, audited.sound, audited.inherits⟩

end Fair

namespace Work

variable {kind : World S Action A → Prop}

theorem Kept.of_bears {before : Work S Action A answer} {more : List RunFailure}
    {now : Work S Action A answer × World S Action A} (nothing : ∀ cause, ¬ before.Carries cause)
    (bears : kind now.2 ∧ now.1.Bears dispatch more) : Kept kind dispatch before more now :=
  ⟨bears.1, bears.2.sound, bears.2.inherits.congr (fun cause => iff_false_intro (nothing cause))
    fun _ => Iff.rfl⟩

/-- Nothing is lost, and nothing is new. -/
theorem Kept.same {before : Work S Action A answer} {now : Work S Action A answer × World S Action A}
    (world : kind now.2) (sound : now.1.Sound dispatch)
    (carries : ∀ cause, now.1.Carries cause ↔ before.Carries cause) :
    Kept kind dispatch before [] now :=
  ⟨world, sound, (Inherits.rest _).congr (fun _ => Iff.rfl) carries⟩

theorem sound_update {count : Nat} {works : Fin count → Work S Action A answer} {index : Fin count}
    {left : Work S Action A answer} (sound : ∀ index, (works index).Sound dispatch)
    (leftSound : left.Sound dispatch) :
    ∀ other, (Function.update works index left other).Sound dispatch :=
  (Function.forall_update_iff works fun _ work => work.Sound dispatch).2
    ⟨leftSound, fun other _ => sound other⟩

/-- Whatever a step does, the failures that the work carries are accounted for. -/
theorem Step.kept {options : Options} {auditor : Auditor S Action A}
    {now next : Work S Action A answer × World S Action A} {more : List RunFailure}
    (step : Step options dispatch auditor now more next) (fair : auditor.Fair kind dispatch)
    (start : kind now.2) (sound : now.1.Sound dispatch) : Kept kind dispatch now.1 more next := by
  induction step with
  | @waits _ follow left world later depth waiter polled _ =>
      have stays := Pending.poll_keeps fair.tolerant (fair.keeps depth) waiter follow world start
      rw [polled] at stays
      exact .same stays (sound.poll polled) fun _ => Iff.rfl
  | @gives _ follow value world later depth waiter polled =>
      have stays := Pending.poll_keeps fair.tolerant (fair.keeps depth) waiter follow world start
      rw [polled] at stays
      rcases sound.poll polled later value later .refl with ⟨actions, rfl⟩
      exact .same stays trivial fun _ => ⟨nofun, nofun⟩
  | inTagging _ ih =>
      have kept := ih start sound
      exact ⟨kept.world, kept.sound, kept.inherits⟩
  | tags tagger actions world =>
      have stays := Run.Keeps.adopt fair.tolerant (actions.mapM tagger) world start
      exact .same stays trivial fun _ => ⟨nofun, nofun⟩
  | untagged tagger cause world =>
      exact .same start trivial fun _ => carries_error.trans carries_error.symm
  | inAwaiting _ ih =>
      have kept := ih start sound
      exact ⟨kept.world, kept.sound, kept.inherits⟩
  | fails tag after cause world =>
      exact .same start trivial fun _ => (Answer.fails_failed after).trans carries_error.symm
  | collects _ goesOn => exact .of_bears (fun _ => nofun) (goesOn.bears fair start)
  | @dispatches _ _ tag after actions world caused later depth _ started =>
      have dispatched := Run.Ensures.mapM (actions.map tag) fun action => fair.start depth action
      rcases dispatched.holds _ _ _ start started with ⟨isKind, bear⟩
      have inherits := Inherits.flatMap fun part member => (bear part member).inherits
      have indexed (cause : CmdFailure) : (∃ part ∈ caused, part.2.Carries cause) ↔
          ∃ index : Fin caused.length, (caused.get index).2.Carries cause :=
        List.exists_mem_iff_get
      refine ⟨isKind, fun index => (bear _ (List.get_mem _ index)).sound, ?_⟩
      exact inherits.congr (fun _ => ⟨nofun, nofun⟩) fun cause => (indexed cause).symm
  | @inSettling _ _ _ _ _ _ _ _ index _ _ _ _ _ ih =>
      have kept := ih start (sound index)
      exact ⟨kept.world, sound_update sound kept.sound, kept.inherits.inFamily⟩
  | booksSettling tag after actions ticket opened caused world =>
      exact .same start sound fun _ => Iff.rfl
  | @breaks _ _ tag after actions ticket count replies cause world first =>
      refine ⟨start, trivial, ?_⟩
      rcases firstFailure_cases replies with ⟨index, failure, failed, is⟩ | ⟨_, is⟩
      · cases first.symm.trans is
        exact Inherits.single ⟨index, failed⟩ fun _ => Answer.fails_failed after
      · cases first.symm.trans is
  | @settles _ _ tag after actions ticket count replies world culprits now first goesOn =>
      apply Kept.of_bears _ (goesOn.bears fair start)
      rintro cause ⟨index, carries⟩
      rcases firstFailure_cases replies with ⟨_, _, _, is⟩ | ⟨good, _⟩
      · cases first.symm.trans is
      · cases (good index).symm.trans carries
  | @inTogether _ _ _ _ index _ _ _ _ _ ih =>
      have kept := ih start (sound index)
      exact ⟨kept.world, sound_update sound kept.sound, kept.inherits.inFamily⟩
  | booksTogether ticket opened members world => exact .same start sound fun _ => Iff.rfl
  | gathers ticket results world =>
      refine ⟨start, trivial, ?_⟩
      rcases Siblings.collect_cases results with ⟨index, failure, failed, _, is⟩ | ⟨actions, good, is⟩
      · rw [is]
        exact Inherits.single ⟨index, failed⟩ fun _ => carries_error
      · rw [is]
        apply (Inherits.rest Faultless).congr _ fun _ => ⟨nofun, nofun⟩
        intro cause
        refine ⟨?_, nofun⟩
        rintro ⟨index, carries⟩
        cases (good index).symm.trans carries

namespace Kept

variable {env : World S Action A → World S Action A → Prop} {options : Options}
variable {auditor : Auditor S Action A}
variable {first : Work S Action A answer} {more later : List RunFailure}
variable {now next : Work S Action A answer × World S Action A}

theorem trans (before : Kept kind dispatch first more now)
    (after : Kept kind dispatch now.1 later next) : Kept kind dispatch first (more ++ later) next :=
  ⟨after.world, after.sound, before.inherits.trans after.inherits⟩

theorem aside {work : Work S Action A answer} {world changed : World S Action A}
    (before : Kept kind dispatch first more (work, world)) (stays : World.Stays kind world changed) :
    Kept kind dispatch first more (work, changed) :=
  ⟨stays before.world, before.sound, before.inherits⟩

/-- The same holds for any number of steps. -/
theorem of_goes (fair : auditor.Fair kind dispatch)
    (lasts : ∀ before after, env before after → World.Stays kind before after)
    (goes : Goes options dispatch auditor env now more next) (start : kind now.2)
    (sound : now.1.Sound dispatch) : Kept kind dispatch now.1 more next := by
  induction goes with
  | rest => exact .same start sound fun _ => Iff.rfl
  | step _ taken ih => exact ih.trans (taken.kept fair ih.world ih.sound)
  | aside _ changes ih =>
      apply ih.aside
      cases changes with
      | acts acts => exact lasts _ _ acts
      | books books =>
          cases books with
          | rallies rallies nextTicket => exact fair.tolerant.sameFront ⟨rfl, rfl, rfl⟩
          | woken root => exact fair.tolerant.sameFront ⟨rfl, rfl, rfl⟩

/-- The same holds for work that shadows its program. -/
theorem of_shadows (fair : auditor.Fair kind dispatch)
    (lasts : ∀ before after, env before after → World.Stays kind before after)
    (shadows : Shadows options dispatch auditor env now more next) (start : kind now.2)
    (sound : now.1.Sound dispatch) : Kept kind dispatch now.1 more next := by
  induction shadows with
  | rest => exact .same start sound fun _ => Iff.rfl
  | poll _ _ _ _ goes ih => exact ih.trans (of_goes fair (fun _ _ => False.elim) goes ih.world ih.sound)
  | meanwhile _ acts ih => exact ih.aside (lasts _ _ acts)

end Kept

end Work

end EffectLoop
