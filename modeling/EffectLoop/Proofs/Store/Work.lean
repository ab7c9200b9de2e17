import EffectLoop.World.Host
import EffectLoop.Proofs.Command.Siblings

/-!
# Work under way

The program of a command does not show what it is made of.  `Work` is the same program with its parts
kept apart: which RUN is awaited, which list goes on with which commands, and what the dispatch of which
actions has caused.  `Work.program` forgets the parts again.

`Cmd.audit` starts a command like `Cmd.execute`, and tells in addition which RUNs have *failed at once*:
those whose output was a failure known in the call, and which have no fail creator.  `Store.audit` does
the same for an action that is dispatched to a store.
-/

namespace EffectLoop

variable {S ι : Type} {Action : ι → Type} {A B α β : Type} {alphabet child : ι} {answer : Answer ι}

/-- What is to happen when the actions of a command are known. -/
inductive After (S : Type) {ι : Type} (Action : ι → Type) (alphabet : ι) : Answer ι → Type where
  /-- They are dispatched; a parallel list has no other use for them. -/
  | sibling : After S Action alphabet (.actions alphabet)
  /-- They are dispatched or collected, and then a sequential list goes on. -/
  | line (batch : Bool) (rest : List (Cmd S Action alphabet)) (collected : List (Action alphabet)) :
      After S Action alphabet (.actions alphabet)
  /-- They are dispatched, and then the dispatch that has started the command is over. -/
  | reply : After S Action alphabet .settled

/-- Work under way, in a context with actions of type `A`. -/
inductive Work (S : Type) {ι : Type} (Action : ι → Type) (A : Type) : Answer ι → Type where
  | final {answer : Answer ι} (value : answer.Value Action) : Work S Action A answer
  /-- The follow-up actions of a single RUN are awaited, or they are known. -/
  | single {alphabet : ι} (follow : FollowUp S Action A alphabet) : Work S Action A (.actions alphabet)
  /-- The actions are tagged when they are known. -/
  | tagging {alphabet child : ι} (tagger : Action child → Noted (Action alphabet))
      (inner : Work S Action A (.actions child)) : Work S Action A (.actions alphabet)
  | awaiting {alphabet : ι} {answer : Answer ι} (tag : Action alphabet → Noted A)
      (after : After S Action alphabet answer) (inner : Work S Action A (.actions alphabet)) :
      Work S Action A answer
  /-- The actions are dispatched, and what they cause is awaited. -/
  | settling {alphabet : ι} {answer : Answer ι} (tag : Action alphabet → Noted A)
      (after : After S Action alphabet answer) (actions : List (Action alphabet)) (ticket : Option Nat)
      {count : Nat} (caused : Fin count → Work S Action A .settled) : Work S Action A answer
  | together {alphabet : ι} (ticket : Option Nat) {count : Nat}
      (members : Fin count → Work S Action A (.actions alphabet)) : Work S Action A (.actions alphabet)

/-! ## Programs -/

namespace After

variable (options : Options) (tag : Action alphabet → Noted A) (after : After S Action alphabet answer)

/-- Are the actions collected? -/
def batch : {answer : Answer ι} → After S Action alphabet answer → Bool
  | _, sibling => false
  | _, line batch _ _ => batch
  | _, reply => false

/-- What comes of a failure. -/
def failed (cause : CmdFailure) : {answer : Answer ι} → After S Action alphabet answer →
    answer.Value Action
  | _, sibling => .error cause
  | _, line _ _ _ => .error cause
  | _, reply => .error cause

/-- What follows when the actions are dispatched or collected. -/
def next : {answer : Answer ι} → After S Action alphabet answer → List (Action alphabet) →
    Pending S Action A answer
  | _, sibling, _ => .done (.ok [])
  | _, line batch rest collected, actions =>
      Pending.retag tag (onward batch (rest.map (Cmd.execute options))
        (if batch then collected ++ actions else collected))
  | _, reply, _ => .done (.ok ())

/-- What follows when all that the actions have caused is over. -/
def settled (actions : List (Action alphabet)) : Except CmdFailure Unit → Pending S Action A answer
  | .ok () => after.next options tag actions
  | .error cause => .done (after.failed cause)

/-- What follows when the actions are known. -/
def arrived : Except CmdFailure (List (Action alphabet)) → Pending S Action A answer
  | .ok actions =>
      if after.batch then after.next options tag actions
      else .sendAll (actions.map tag) (after.settled options tag actions)
  | .error cause => .done (after.failed cause)

end After

/-- The program of the work. -/
def Work.program (options : Options) : {answer : Answer ι} → Work S Action A answer →
    Pending S Action A answer
  | _, final value => .done value
  | _, single follow => follow
  | _, tagging tagger inner =>
      FollowUp.andThen (inner.program options) fun actions =>
        .withNoted (actions.mapM tagger) FollowUp.now
  | _, awaiting tag after inner => (inner.program options).bind (after.arrived options tag)
  | _, settling tag after actions ticket caused =>
      .settling ticket (fun index => (caused index).program options) (after.settled options tag actions)
  | _, together ticket members =>
      .join ticket (fun index => (members index).program options)
        fun results => .done (FollowUp.collect results)

/-! ## Starting commands -/

/-- The verdict of a start in a context. -/
def Verdict.retag (tag : Action alphabet → Noted A)
    (verdict : Verdict S Action (Action alphabet) alphabet) : Verdict S Action A alphabet :=
  Option.map (Pending.retag tag) <$> verdict

/-- What comes of starting a command: the failures of its RUNs that have failed at once, and a verdict
with the work that is left. -/
structure Audit (S : Type) {ι : Type} (Action : ι → Type) (A : Type) (alphabet : ι) where
  culprits : List RunFailure
  verdict : Except CmdFailure (Option (Work S Action A (.actions alphabet)))

namespace Audit

variable (tag : Action alphabet → Noted A)

/-- The verdict with the programs only. -/
def erased (options : Options) (audit : Audit S Action A alphabet) : Verdict S Action A alphabet :=
  Option.map (Work.program options) <$> audit.verdict

/-- The work that is left. -/
def work (audit : Audit S Action A alphabet) : Work S Action A (.actions alphabet) :=
  match audit.verdict with
  | .error cause => .final (.error cause)
  | .ok none => .final (.ok [])
  | .ok (some work) => work

/-- The start of a single RUN, or of a command without one. -/
def single (culprits : List RunFailure) (verdict : Verdict S Action (Action alphabet) alphabet) :
    Audit S Action A alphabet :=
  ⟨culprits, Option.map (fun follow => .single (Pending.retag tag follow)) <$> verdict⟩

/-- The start of a tagged command. -/
def tagged (tagger : Action child → Noted (Action alphabet)) (audit : Audit S Action A child) :
    Audit S Action A alphabet :=
  ⟨audit.culprits, Option.map (.tagging tagger) <$> audit.verdict⟩

/-- The work of a sibling in a parallel list. -/
def sibling? (batch : Bool) (audit : Audit S Action A alphabet) :
    Option (Work S Action A (.actions alphabet)) :=
  match audit.verdict with
  | .ok none => none
  | .ok (some work) => some (if batch then work else .awaiting tag .sibling work)
  | .error cause => some (.final (.error cause))

/-- The start of a parallel list. -/
def together (batch : Bool) (audits : List (Audit S Action A alphabet)) :
    Audit S Action A alphabet where
  culprits := audits.flatMap culprits
  verdict :=
    match audits.filterMap (sibling? tag batch) with
    | [] => .ok none
    | found => .ok (some (.together none found.get))

/-- The start of a sequential list. -/
def inOrder (batch : Bool) (cmds : List (Cmd S Action alphabet)) :
    List (Prompt S Action A (Audit S Action A alphabet)) → Prompt S Action A (Audit S Action A alphabet)
  | [] => pure ⟨[], .ok none⟩
  | head :: _ => do
      let audit ← head
      pure ⟨audit.culprits, .ok (some (.awaiting tag (.line batch cmds.tail []) audit.work))⟩

end Audit

namespace RunSpec

variable (options : Options) (spec : RunSpec S Action (Action alphabet))

/-- The verdict for an output. -/
def conclude : RunResult S Action (Action alphabet) → Start S Action alphabet
  | .ready outcome => spec.executeReady options outcome
  | .deferred later => spec.executeDeferred options later

/-- The failure, if the RUN has failed at once. -/
def culprits : RunResult S Action (Action alphabet) → List RunFailure
  | .ready (.error cause) => if spec.onFail.isNone then [cause] else []
  | _ => []

theorem execute_eq_bind : spec.execute options = spec.func spec.args >>= spec.conclude options := by
  rw [execute]
  congr 1

end RunSpec

/-- Start a command, and tell which RUNs have failed at once. -/
def Cmd.audit (options : Options) : {alphabet : ι} → Cmd S Action alphabet →
    (tag : Action alphabet → Noted A) → Prompt S Action A (Audit S Action A alphabet)
  | _, .run spec, tag => do
      let output ← (spec.func spec.args).retag tag
      Audit.single tag (spec.culprits output) <$> (spec.conclude options output).retag tag
  | _, .list cmds false batch, tag =>
      Audit.together tag batch <$> (List.ofFn fun index => (cmds index).audit options tag).mapM id
  | _, .list cmds true batch, tag =>
      Audit.inOrder tag batch (List.ofFn cmds) (List.ofFn fun index => (cmds index).audit options tag)
  | _, .map nested tagger args, tag =>
      Audit.tagged (tagger args) <$> nested.audit options fun action => tagger args action >>= tag
  | _, .none, tag => Audit.single tag [] <$> (Cmd.none.execute options).retag tag
  | _, .action sent, tag => Audit.single tag [] <$> ((Cmd.action sent).execute options).retag tag
  | _, .scheduled nested delay repeating onScheduled, tag =>
      Audit.single tag [] <$>
        ((Cmd.scheduled nested delay repeating onScheduled).execute options).retag tag

/-! ## Forgetting the parts -/

section Erasing

variable (options : Options) (tag : Action alphabet → Noted A)

namespace Verdict

/-- The verdict of a tagged command, in a context. -/
def taggedIn (tagger : Action child → Noted (Action alphabet)) (verdict : Verdict S Action A child) :
    Verdict S Action A alphabet :=
  Option.map (fun follow => FollowUp.andThen follow fun actions =>
    .withNoted (actions.mapM tagger) FollowUp.now) <$> verdict

theorem retag_tagged (tagger : Action child → Noted (Action alphabet))
    (verdict : Verdict S Action (Action child) child) :
    (verdict.tagged tagger).retag tag =
      (verdict.retag fun action => tagger action >>= tag).taggedIn tagger := by
  rcases verdict with cause | _ | follow
  · rfl
  · rfl
  · change Except.ok (some (Pending.retag tag (follow.tagged tagger))) = Except.ok (some _)
    rw [FollowUp.tagged, FollowUp.retag_andThen, Pending.retag_retag]
    simp only [Pending.retag_withNoted]
    rfl

/-- The future of a sibling in a parallel list, in a context. -/
def sibling? (batch : Bool) (verdict : Verdict S Action A alphabet) :
    Option (FollowUp S Action A alphabet) :=
  match verdict with
  | .ok none => none
  | .ok (some follow) =>
      some (if batch then follow else Pending.bind follow (After.sibling.arrived options tag))
  | .error cause => some (.failed cause)

theorem retag_siblings (batch : Bool)
    (verdicts : List (Verdict S Action (Action alphabet) alphabet)) :
    (siblings batch verdicts).map (Pending.retag tag) =
      (verdicts.map (retag tag)).filterMap (sibling? options tag batch) := by
  rw [siblings, List.map_filterMap, List.filterMap_map]
  congr 1
  funext verdict
  rcases verdict with cause | _ | follow
  · rfl
  · rfl
  · change some (Pending.retag tag _) = some _
    congr 1
    cases batch with
    | true => rfl
    | false =>
        simp only [Bool.false_eq_true, if_false, FollowUp.dispatched, FollowUp.retag_andThen]
        rw [FollowUp.andThen]
        congr 1
        funext result
        cases result with
        | error cause => rfl
        | ok actions =>
            simp only [Pending.retag, List.map_map, Function.comp_def, pure_bind]
            change Pending.sendAll _ _ = Pending.sendAll _ _
            congr 1
            funext reply
            cases reply <;> rfl

theorem retag_gathered (found : List (FollowUp S Action (Action alphabet) alphabet)) :
    (gathered found).retag tag = gathered (found.map (Pending.retag tag)) := by
  cases found with
  | nil => rfl
  | cons first rest => exact congrArg (fun all => Except.ok (some all)) (FollowUp.retag_all tag _)

theorem retag_arrive (batch : Bool) (rest : List (Cmd S Action alphabet))
    (collected actions : List (Action alphabet)) :
    Pending.retag tag (arrive batch (onward batch (rest.map (Cmd.execute options))) collected actions) =
      (After.line batch rest collected).arrived options tag (.ok actions) := by
  cases batch with
  | true => rfl
  | false =>
      simp only [arrive, Bool.false_eq_true, if_false, Pending.retag, List.map_map, Function.comp_def,
        pure_bind]
      change Pending.sendAll _ _ = Pending.sendAll _ _
      congr 1
      funext reply
      cases reply <;> rfl

/-- What is left of a sequential list, in a context. -/
theorem retag_walk (batch : Bool) (rest : List (Cmd S Action alphabet))
    (collected : List (Action alphabet)) (verdict : Verdict S Action (Action alphabet) alphabet) :
    Pending.retag tag (walk batch (rest.map (Cmd.execute options)) collected verdict) =
      Pending.bind (verdict.retag tag).followUp
        ((After.line batch rest collected).arrived options tag) := by
  rw [walk_eq]
  rcases verdict with cause | _ | follow
  · rfl
  · exact retag_arrive options tag batch rest collected []
  · dsimp only
    rw [FollowUp.retag_andThen]
    simp only [retag_arrive]
    change Pending.bind _ _ = Pending.bind _ _
    congr 1

end Verdict

namespace Audit

theorem erased_single (culprits : List RunFailure)
    (verdict : Verdict S Action (Action alphabet) alphabet) :
    (single tag culprits verdict).erased options = verdict.retag tag := by
  rcases verdict with cause | _ | follow <;> rfl

theorem erased_map_single (culprits : List RunFailure) (start : Start S Action alphabet) :
    erased options <$> single tag culprits <$> Prompt.retag tag start =
      Verdict.retag tag <$> Prompt.retag tag start := by
  rw [Functor.map_map]
  simp only [erased_single]

theorem erased_tagged (tagger : Action child → Noted (Action alphabet))
    (audit : Audit S Action A child) :
    (audit.tagged tagger).erased options = (audit.erased options).taggedIn tagger := by
  rcases audit with ⟨culprits, cause | _ | work⟩ <;> rfl

/-- The program of the work that is left. -/
theorem program_work (audit : Audit S Action A alphabet) :
    audit.work.program options = (audit.erased options).followUp := by
  rcases audit with ⟨culprits, cause | _ | work⟩ <;> rfl

theorem erased_together (batch : Bool) (audits : List (Audit S Action A alphabet)) :
    (together tag batch audits).erased options =
      .gathered ((audits.map (erased options)).filterMap (Verdict.sibling? options tag batch)) := by
  have programs : (audits.filterMap (sibling? tag batch)).map (Work.program options) =
      (audits.map (erased options)).filterMap (Verdict.sibling? options tag batch) := by
    rw [List.map_filterMap, List.filterMap_map]
    congr 1
    funext audit
    rcases audit with ⟨culprits, cause | _ | work⟩
    · rfl
    · rfl
    · cases batch <;> rfl
  rw [← programs, erased, together]
  cases found : audits.filterMap (sibling? tag batch) with
  | nil => rfl
  | cons first rest =>
      have all := FollowUp.all_map (Work.program options) (first :: rest)
      exact congrArg (fun all => Except.ok (some all)) all.symm

end Audit

/-- The audit of a parallel list tells what executing it does, if those of its commands do. -/
theorem erased_audit_together {count : Nat} (cmds : Fin count → Cmd S Action alphabet) (batch : Bool)
    (each : ∀ index, Audit.erased options <$> (cmds index).audit options tag =
      Verdict.retag tag <$> ((cmds index).execute options).retag tag) :
    Audit.erased options <$> (Cmd.list cmds false batch).audit options tag =
      Verdict.retag tag <$> ((Cmd.list cmds false batch).execute options).retag tag := by
  let gather (verdicts : List (Verdict S Action A alphabet)) : Verdict S Action A alphabet :=
    .gathered (verdicts.filterMap (Verdict.sibling? options tag batch))
  calc Audit.erased options <$> (Cmd.list cmds false batch).audit options tag
      = gather <$> ((List.ofFn fun index => (cmds index).audit options tag).map
          (Audit.erased options <$> ·)).mapM id := by
        rw [Cmd.audit, mapM_id_map, Functor.map_map, Functor.map_map]
        simp only [Audit.erased_together, gather]
    _ = gather <$> ((List.ofFn fun index => ((cmds index).execute options).retag tag).map
          (Verdict.retag tag <$> ·)).mapM id := by
        simp only [List.map_ofFn, Function.comp_def, each]
    _ = Verdict.retag tag <$> ((Cmd.list cmds false batch).execute options).retag tag := by
        rw [Cmd.execute, startTogether_eq, Prompt.retag_map, Prompt.retag_mapM, mapM_id_map,
          Functor.map_map, Functor.map_map, List.map_ofFn]
        simp only [Verdict.retag_gathered, Verdict.retag_siblings options, gather]
        rfl

/-- The audit of a sequential list tells what executing it does, if that of its first command does. -/
theorem erased_audit_inOrder {count : Nat} (cmds : Fin count → Cmd S Action alphabet) (batch : Bool)
    (each : ∀ index, Audit.erased options <$> (cmds index).audit options tag =
      Verdict.retag tag <$> ((cmds index).execute options).retag tag) :
    Audit.erased options <$> (Cmd.list cmds true batch).audit options tag =
      Verdict.retag tag <$> ((Cmd.list cmds true batch).execute options).retag tag := by
  rw [Cmd.audit, Cmd.execute]
  cases count with
  | zero => rfl
  | succ count =>
      let go (verdict : Verdict S Action A alphabet) : Verdict S Action A alphabet :=
        .ok (some (Pending.bind verdict.followUp
          ((After.line batch (List.ofFn fun index => cmds index.succ) []).arrived options tag)))
      have left : Audit.erased options <$> Audit.inOrder tag batch (List.ofFn cmds)
            (List.ofFn fun index => (cmds index).audit options tag) =
          go <$> Audit.erased options <$> (cmds 0).audit options tag := by
        rw [List.ofFn_succ, List.ofFn_succ, Audit.inOrder, Functor.map_map]
        simp only [map_eq_pure_bind, LawfulMonad.bind_assoc, pure_bind]
        congr 1
        funext audit
        simp only [go, ← Audit.program_work]
        rfl
      have right : Verdict.retag tag <$>
            (startInOrder batch (List.ofFn fun index => (cmds index).execute options)).retag tag =
          go <$> Verdict.retag tag <$> ((cmds 0).execute options).retag tag := by
        have starts : (List.ofFn fun index => (cmds (Fin.succ index)).execute options) =
            (List.ofFn fun index => cmds (Fin.succ index)).map (Cmd.execute options) := by
          rw [List.map_ofFn]
          rfl
        rw [List.ofFn_succ, startInOrder, Prompt.retag_bind, Functor.map_map, starts]
        simp only [map_eq_pure_bind, LawfulMonad.bind_assoc]
        congr 1
        funext verdict
        simp only [go, ← Verdict.retag_walk]
        rfl
      rw [left, right, each]

/-- The audit of a command tells what executing it does, and more. -/
theorem Cmd.erased_audit (cmd : Cmd S Action alphabet) (tag : Action alphabet → Noted A) :
    Audit.erased options <$> cmd.audit options tag =
      Verdict.retag tag <$> (cmd.execute options).retag tag := by
  induction cmd with
  | none => exact Audit.erased_map_single options tag [] _
  | action sent => exact Audit.erased_map_single options tag [] _
  | run spec =>
      rw [audit, execute, RunSpec.execute_eq_bind, Prompt.retag_bind, map_bind, map_bind]
      congr 1
      funext output
      exact Audit.erased_map_single options tag _ _
  | list cmds sequence batch ih =>
      cases sequence with
      | false => exact erased_audit_together options tag cmds batch fun index => ih index tag
      | true => exact erased_audit_inOrder options tag cmds batch fun index => ih index tag
  | map nested tagger args ih =>
      rw [audit, execute_map, Prompt.retag_map, Prompt.retag_retag, Functor.map_map, Functor.map_map]
      simp only [Audit.erased_tagged, Verdict.retag_tagged]
      rw [← Functor.map_map, ih, Functor.map_map]
  | scheduled nested delay repeating onScheduled _ => exact Audit.erased_map_single options tag [] _

end Erasing

/-! ## Dispatches to a store -/

/-- A dispatch that tells which RUNs have failed at once, and leaves work. -/
abbrev Auditor (S : Type) {ι : Type} (Action : ι → Type) (A : Type) :=
  Engine S Action A → A → Run S Action A (List RunFailure × Work S Action A .settled)

/-- The auditor does what the dispatcher does, and tells more. -/
structure Audits (options : Options) (dispatch : Dispatcher S Action A) (auditor : Auditor S Action A) :
    Prop where
  erases : ∀ engine action,
    (fun caused => caused.2.program options) <$> auditor engine action = dispatch engine action

/-- The work that a dispatch leaves when its command is started. -/
def Audit.reply (audit : Audit S Action (Action alphabet) alphabet) :
    Work S Action (Action alphabet) .settled :=
  match audit.verdict with
  | .error cause => .final (.error cause)
  | .ok none => .final (.ok ())
  | .ok (some work) => .awaiting pure .reply work

namespace Store

variable (store : Store S Action alphabet) (engine : Engine S Action (Action alphabet))

/-- Start a command of the store. -/
def auditLaunch (cmd : Cmd S Action alphabet) :
    Run S Action (Action alphabet) (List RunFailure × Work S Action (Action alphabet) .settled) := do
  if cmd.isNone then pure ([], .final (.ok ()))
  else
    store.observe (.effect cmd.kind)
    let audit ← (cmd.audit store.options pure).run engine
    pure (audit.culprits, audit.reply)

/-- Reduce an action, commit its state, and start its command, if the store is open. -/
def audit : Auditor S Action (Action alphabet) := fun engine action => do
  if (← get).isOpen then
    store.observe (.dispatch action)
    let loop ← store.reduce action
    commit loop.lift.1
    store.auditLaunch engine loop.lift.2
  else pure ([], .final (.error .storeClosed))

end Store

section Stores

theorem Verdict.retag_pure (verdict : Verdict S Action (Action alphabet) alphabet) :
    verdict.retag pure = verdict := by
  rcases verdict with cause | _ | follow
  · rfl
  · rfl
  · exact congrArg (fun follow => Except.ok (some follow)) follow.retag_pure

/-- What a dispatch leaves pending when its command is started. -/
def Verdict.settle (verdict : Verdict S Action (Action alphabet) alphabet) :
    Settling S Action (Action alphabet) :=
  match verdict with
  | .error cause => .done (.error cause)
  | .ok none => .done (.ok ())
  | .ok (some follow) => follow.settle

theorem Audit.program_reply (options : Options) (audit : Audit S Action (Action alphabet) alphabet) :
    audit.reply.program options = (audit.erased options).settle := by
  rcases audit with ⟨culprits, cause | _ | work⟩
  · rfl
  · rfl
  · change Pending.bind _ _ = Pending.bind _ _
    congr 1
    funext result
    cases result with
    | error cause => rfl
    | ok actions =>
        change Pending.sendAll _ _ = Pending.sendAll _ _
        congr 1
        funext reply
        cases reply <;> rfl

namespace Store

variable (store : Store S Action alphabet) (engine : Engine S Action (Action alphabet))

theorem run_execute_eq (cmd : Cmd S Action alphabet) :
    (cmd.execute store.options).run engine =
      Audit.erased store.options <$> (cmd.audit store.options pure).run engine := by
  rw [← Prompt.run_map, Cmd.erased_audit, Prompt.retag_pure, map_eq_pure_bind]
  simp only [Verdict.retag_pure, bind_pure]

theorem erased_auditLaunch (cmd : Cmd S Action alphabet) :
    (fun caused => caused.2.program store.options) <$> store.auditLaunch engine cmd =
      store.launch engine cmd := by
  rw [auditLaunch, launch]
  split
  · rfl
  · simp only [map_bind, run_execute_eq, map_pure, Audit.program_reply]
    congr 1
    funext seen
    rw [map_eq_pure_bind, LawfulMonad.bind_assoc]
    congr 1
    funext audit
    rw [pure_bind]
    rcases audit.erased store.options with cause | _ | follow <;> rfl

/-- The audit of a store tells what a dispatch to it does, and more. -/
theorem audits : Audits store.options (Host.store store).dispatch store.audit := by
  constructor
  intro engine action
  rw [audit, Host.dispatch, map_bind]
  congr 1
  funext world
  split
  · simp only [map_bind, erased_auditLaunch]
    rfl
  · rfl

end Store

end Stores

end EffectLoop
