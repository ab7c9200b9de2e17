import EffectLoop.Proofs.Command.Siblings
import EffectLoop.Proofs.Command.Fusion
import EffectLoop.Proofs.Store.Work
import EffectLoop.Proofs.Store.Finishing

/-!
# The verdict of a call

What executing a command answers in the call can be read off the command and the outputs of the RUNs
that are called.  A command *breaks* if it is a RUN that fails at once without a fail creator, in any
number of tags; only then is the verdict an error.  It is *silent* if nothing comes of it, and only then
is the verdict nothing.  In all other cases the verdict is a future, and if a RUN has failed at once in
a list, then that future fails.
-/

namespace EffectLoop

variable {S ι : Type} {Action : ι → Type} {A α : Type} {alphabet child : ι}

/-- To run what gives the verdict of a creator is to leave the notes of the creator. -/
theorem Verdict.run_ofAction (engine : Engine S Action A) (tag : Action child → Noted A)
    (found : Noted (Option (Action child))) (world : World S Action A) :
    (Prompt.retag tag (Verdict.ofAction found)).run engine world =
      (.ok (.ok (found.value.map fun action => .now [action])), world.annotate found.notes) := by
  have adopted : Run.adopt found world = (.ok found.value, world.annotate found.notes) := rfl
  rw [Verdict.ofAction, Prompt.retag_bind, Prompt.retag_ofNoted, Prompt.run_bind,
    Prompt.run_ofNoted, Run.bind_of_ok adopted]
  cases found.value <;> rfl

namespace Cmd

section Calls

variable (dispatch : Dispatcher S Action A) (options : Options) (depth : Nat)

/-- Execute the command in a context that tags its actions. -/
def call (cmd : Cmd S Action alphabet) (tag : Action alphabet → Noted A) :
    Run S Action A (Verdict S Action (Action alphabet) alphabet) :=
  ((cmd.execute options).retag tag).run (.ofDispatch dispatch depth)

/-- Call the function of a RUN in such a context. -/
def output (spec : RunSpec S Action (Action alphabet)) (tag : Action alphabet → Noted A) :
    Run S Action A (RunResult S Action (Action alphabet)) :=
  ((spec.func spec.args).retag tag).run (.ofDispatch dispatch depth)

/-- The worlds in which the commands of a parallel list are called, one after the other, and the world
afterwards. -/
def stage {count : Nat} (cmds : Fin count → Cmd S Action alphabet) (tag : Action alphabet → Noted A)
    (world : World S Action A) : Fin (count + 1) → World S Action A :=
  Fin.induction world fun index before => ((cmds index).call dispatch options depth tag before).2

/-- A RUN that fails at once and has no fail creator, in any number of tags. -/
inductive Breaks (cause : RunFailure) : {alphabet : ι} → Cmd S Action alphabet →
    (Action alphabet → Noted A) → World S Action A → Prop where
  | run {alphabet : ι} {spec : RunSpec S Action (Action alphabet)} {tag : Action alphabet → Noted A}
      {world later : World S Action A} :
      output dispatch depth spec tag world = (.ok (.ready (.error cause)), later) →
      spec.onFail = Option.none → Breaks cause (.run spec) tag world
  | map {alphabet child : ι} {nested : Cmd S Action child} {args : List Json}
      {tagger : List Json → Action child → Noted (Action alphabet)} {tag : Action alphabet → Noted A}
      {world : World S Action A} :
      Breaks cause nested (fun action => tagger args action >>= tag) world →
      Breaks cause (.map nested tagger args) tag world

/-- A RUN that is called in the call fails at once and has no fail creator: it is any element of a
parallel list, or the head of a sequential one. -/
inductive Fails (cause : RunFailure) : {alphabet : ι} → Cmd S Action alphabet →
    (Action alphabet → Noted A) → World S Action A → Prop where
  | run {alphabet : ι} {spec : RunSpec S Action (Action alphabet)} {tag : Action alphabet → Noted A}
      {world later : World S Action A} :
      output dispatch depth spec tag world = (.ok (.ready (.error cause)), later) →
      spec.onFail = Option.none → Fails cause (.run spec) tag world
  | map {alphabet child : ι} {nested : Cmd S Action child} {args : List Json}
      {tagger : List Json → Action child → Noted (Action alphabet)} {tag : Action alphabet → Noted A}
      {world : World S Action A} :
      Fails cause nested (fun action => tagger args action >>= tag) world →
      Fails cause (.map nested tagger args) tag world
  | element {alphabet : ι} {count : Nat} {cmds : Fin count → Cmd S Action alphabet} {batch : Bool}
      {tag : Action alphabet → Noted A} {world : World S Action A} (index : Fin count) :
      Fails cause (cmds index) tag (stage dispatch options depth cmds tag world index.castSucc) →
      Fails cause (.list cmds false batch) tag world
  | head {alphabet : ι} {count : Nat} {cmds : Fin (count + 1) → Cmd S Action alphabet} {batch : Bool}
      {tag : Action alphabet → Noted A} {world : World S Action A} :
      Fails cause (cmds 0) tag world → Fails cause (.list cmds true batch) tag world

/-- Nothing comes of the command, and nothing will. -/
inductive Silent : {alphabet : ι} → Cmd S Action alphabet → (Action alphabet → Noted A) →
    World S Action A → Prop where
  | none {alphabet : ι} {tag : Action alphabet → Noted A} {world : World S Action A} :
      Silent .none tag world
  | succeeds {alphabet : ι} {spec : RunSpec S Action (Action alphabet)}
      {tag : Action alphabet → Noted A} {value : Json} {world later : World S Action A} :
      output dispatch depth spec tag world = (.ok (.ready (.ok value)), later) →
      spec.onSuccess = Option.none → Silent (.run spec) tag world
  | detached {alphabet : ι} {spec : RunSpec S Action (Action alphabet)}
      {tag : Action alphabet → Noted A} {pending : Pending S Action (Action alphabet) .outcome}
      {world later : World S Action A} :
      output dispatch depth spec tag world = (.ok (.deferred pending), later) →
      spec.forceSync = true → spec.onSuccess = Option.none → Silent (.run spec) tag world
  | together {alphabet : ι} {count : Nat} {cmds : Fin count → Cmd S Action alphabet} {batch : Bool}
      {tag : Action alphabet → Noted A} {world : World S Action A} :
      (∀ index : Fin count,
        Silent (cmds index) tag (stage dispatch options depth cmds tag world index.castSucc)) →
      Silent (.list cmds false batch) tag world
  | empty {alphabet : ι} {cmds : Fin 0 → Cmd S Action alphabet} {batch : Bool}
      {tag : Action alphabet → Noted A} {world : World S Action A} :
      Silent (.list cmds true batch) tag world
  | map {alphabet child : ι} {nested : Cmd S Action child} {args : List Json}
      {tagger : List Json → Action child → Noted (Action alphabet)} {tag : Action alphabet → Noted A}
      {world : World S Action A} :
      Silent nested (fun action => tagger args action >>= tag) world →
      Silent (.map nested tagger args) tag world
  | scheduled {alphabet : ι} {nested : Cmd S Action alphabet} {delay : Duration} {repeating : Bool}
      {tag : Action alphabet → Noted A} {handle : TimerHandle} {world later : World S Action A} :
      Run.schedule delay repeating (Pending.retag tag (firing (nested.execute options))) world =
        (.ok handle, later) →
      Silent (.scheduled nested delay repeating Option.none) tag world

/-- The call does not come to its end: a function that is called does not, or the due time of a schedule
is no duration. -/
inductive Halts (halt : Halt) : {alphabet : ι} → Cmd S Action alphabet →
    (Action alphabet → Noted A) → World S Action A → Prop where
  | run {alphabet : ι} {spec : RunSpec S Action (Action alphabet)} {tag : Action alphabet → Noted A}
      {world later : World S Action A} :
      output dispatch depth spec tag world = (.error halt, later) → Halts halt (.run spec) tag world
  | scheduled {alphabet : ι} {nested : Cmd S Action alphabet} {delay : Duration} {repeating : Bool}
      {creator : Option (TimerHandle → Noted (Action alphabet))} {tag : Action alphabet → Noted A}
      {world later : World S Action A} :
      Run.schedule delay repeating (Pending.retag tag (firing (nested.execute options))) world =
        (.error halt, later) →
      Halts halt (.scheduled nested delay repeating creator) tag world
  | map {alphabet child : ι} {nested : Cmd S Action child} {args : List Json}
      {tagger : List Json → Action child → Noted (Action alphabet)} {tag : Action alphabet → Noted A}
      {world : World S Action A} :
      Halts halt nested (fun action => tagger args action >>= tag) world →
      Halts halt (.map nested tagger args) tag world
  | element {alphabet : ι} {count : Nat} {cmds : Fin count → Cmd S Action alphabet} {batch : Bool}
      {tag : Action alphabet → Noted A} {world : World S Action A} (index : Fin count) :
      (∀ earlier < index, ∃ verdict, ((cmds earlier).call dispatch options depth tag
        (stage dispatch options depth cmds tag world earlier.castSucc)).1 = .ok verdict) →
      Halts halt (cmds index) tag (stage dispatch options depth cmds tag world index.castSucc) →
      Halts halt (.list cmds false batch) tag world
  | head {alphabet : ι} {count : Nat} {cmds : Fin (count + 1) → Cmd S Action alphabet} {batch : Bool}
      {tag : Action alphabet → Noted A} {world : World S Action A} :
      Halts halt (cmds 0) tag world → Halts halt (.list cmds true batch) tag world

end Calls

end Cmd

/-! ## Futures that fail -/

section Doomed

variable (dispatch : Dispatcher S Action A) (tag : Action alphabet → Noted A)

/-- However the future is driven, what it answers in the end is a failure. -/
def FollowUp.Doomed (follow : FollowUp S Action A alphabet) : Prop :=
  Pending.Always dispatch (fun result : (Answer.actions alphabet).Value Action =>
    ∃ failure, result = Except.error failure) follow

/-- The verdict is an error, or a future that fails. -/
def Verdict.Doomed (verdict : Verdict S Action (Action alphabet) alphabet) : Prop :=
  (∃ failure, verdict = .error failure) ∨
    ∃ follow, verdict = .ok (some follow) ∧ FollowUp.Doomed dispatch (Pending.retag tag follow)

end Doomed

section Doom

variable {dispatch : Dispatcher S Action A} {tag : Action alphabet → Noted A}

namespace FollowUp.Doomed

theorem failed (cause : CmdFailure) :
    FollowUp.Doomed dispatch (.failed cause : FollowUp S Action A alphabet) :=
  .done ⟨cause, rfl⟩

/-- What would come after the failure does not come. -/
theorem andThen {first : FollowUp S Action A child} (doomed : FollowUp.Doomed dispatch first)
    (after : List (Action child) → FollowUp S Action A alphabet) :
    FollowUp.Doomed dispatch (first.andThen after) := by
  refine Pending.Always.bind doomed ?_
  rintro _ ⟨cause, rfl⟩
  exact failed cause

/-- A list fails with one of its siblings. -/
theorem all {found : List (FollowUp S Action A alphabet)} {member : FollowUp S Action A alphabet}
    (listed : member ∈ found) (doomed : FollowUp.Doomed dispatch member) :
    FollowUp.Doomed dispatch (FollowUp.all found) := by
  obtain ⟨index, rfl⟩ := List.get_of_mem listed
  have each (other : Fin found.length) : Pending.Always dispatch
      (fun result : (Answer.actions alphabet).Value Action =>
        other = index → ∃ failure, result = Except.error failure) (found.get other) := by
    intro world result later driven same
    rw [same] at driven
    exact doomed world result later driven
  refine Pending.Always.join each ?_ Option.none
  intro results answers
  apply Pending.Always.done
  obtain ⟨failure, failed⟩ := answers index rfl
  rcases Siblings.collect_cases results with ⟨_, cause, -, -, collected⟩ | ⟨_, succeeded, -⟩
  · exact ⟨cause, collected⟩
  · rw [succeeded] at failed
    cases failed

end FollowUp.Doomed

namespace Verdict.Doomed

variable {verdict : Verdict S Action (Action alphabet) alphabet}

theorem tagged {tagger : Action child → Noted (Action alphabet)}
    {verdict : Verdict S Action (Action child) child}
    (doomed : verdict.Doomed dispatch fun action => tagger action >>= tag) :
    (verdict.tagged tagger).Doomed dispatch tag := by
  rcases doomed with ⟨failure, rfl⟩ | ⟨follow, rfl, fails⟩
  · exact .inl ⟨failure, rfl⟩
  · refine .inr ⟨_, rfl, ?_⟩
    rw [FollowUp.tagged, FollowUp.retag_andThen, Pending.retag_retag]
    exact fails.andThen _

/-- A sequential list does not go on after its head has failed. -/
theorem walk (doomed : verdict.Doomed dispatch tag) (batch : Bool)
    (rest : List (Start S Action alphabet)) (collected : List (Action alphabet)) :
    FollowUp.Doomed dispatch (Pending.retag tag (walk batch rest collected verdict)) := by
  rw [walk_eq]
  rcases doomed with ⟨failure, rfl⟩ | ⟨follow, rfl, fails⟩
  · exact .failed failure
  · dsimp only
    rw [FollowUp.retag_andThen]
    exact fails.andThen _

/-- A parallel list fails with one of its commands. -/
theorem gathered {verdicts : List (Verdict S Action (Action alphabet) alphabet)}
    (listed : verdict ∈ verdicts) (doomed : verdict.Doomed dispatch tag) (batch : Bool) :
    (Verdict.gathered (siblings batch verdicts)).Doomed dispatch tag := by
  have sibling : ∃ member ∈ siblings batch verdicts,
      FollowUp.Doomed dispatch (Pending.retag tag member) := by
    rcases doomed with ⟨failure, rfl⟩ | ⟨follow, rfl, fails⟩
    · exact ⟨.failed failure, List.mem_filterMap.2 ⟨_, listed, rfl⟩, .failed failure⟩
    · refine ⟨_, List.mem_filterMap.2 ⟨_, listed, rfl⟩, ?_⟩
      cases batch with
      | true => exact fails
      | false =>
          change FollowUp.Doomed dispatch (Pending.retag tag follow.dispatched)
          rw [FollowUp.dispatched, FollowUp.retag_andThen]
          exact fails.andThen _
  obtain ⟨member, among, fails⟩ := sibling
  refine .inr ⟨.all (siblings batch verdicts), if_neg ?_, ?_⟩
  · rw [List.isEmpty_iff]
    exact List.ne_nil_of_mem among
  · rw [FollowUp.retag_all]
    exact .all (List.mem_map_of_mem among) fails

end Verdict.Doomed

end Doom

/-! ## One call -/

/-- Either there is no error, or there is a first one. -/
theorem exists_first_error {ε B : Type} {count : Nat} (results : Fin count → Except ε B) :
    (∃ values : Fin count → B, ∀ index, results index = .ok (values index)) ∨
      ∃ index error, results index = .error error ∧
        ∀ earlier < index, ∃ value, results earlier = .ok value := by
  induction count with
  | zero => exact .inl ⟨nofun, nofun⟩
  | succ count ih =>
      cases head : results 0 with
      | error error => exact .inr ⟨0, error, head, fun earlier below => absurd below (Fin.not_lt_zero _)⟩
      | ok first =>
          rcases ih fun index => results index.succ with ⟨values, found⟩ | ⟨index, error, failed, before⟩
          · exact .inl ⟨Fin.cons first values, Fin.cases head found⟩
          · refine .inr ⟨index.succ, error, failed, Fin.cases (fun _ => ⟨first, head⟩) ?_⟩
            intro earlier below
            exact before earlier (Fin.succ_lt_succ_iff.1 below)

/-- A function of the answer is a function of the answer only. -/
theorem Run.map_eq {B C : Type} (image : B → C) (first : Run S Action A B) (world : World S Action A) :
    (image <$> first) world = ((first world).1.map image, (first world).2) := by
  rw [map_eq_pure_bind]
  rcases ran : first world with ⟨result, later⟩
  cases result with
  | error halt => rw [Run.bind_of_error ran]; rfl
  | ok value => rw [Run.bind_of_ok ran]; rfl

namespace RunSpec

variable (options : Options) (spec : RunSpec S Action (Action alphabet))

/-- The follow-up for a success in the call. -/
def successFollowUp (value : Json) : Option (FollowUp S Action (Action alphabet) alphabet) :=
  (spec.successAction value).value.map fun action => .now [action]

/-- The verdict for an output. -/
def verdict : RunResult S Action (Action alphabet) → Verdict S Action (Action alphabet) alphabet
  | .ready (.ok value) => .ok (spec.successFollowUp value)
  | .ready (.error cause) =>
      match spec.onFail with
      | some creator => .ok (some (.now [(creator cause).value]))
      | none => .error (.unhandledFailure cause)
  | .deferred later =>
      if spec.forceSync then .ok (spec.successFollowUp .null)
      else .ok (some (later.bind (spec.settle options)))

variable {options spec} {found : RunResult S Action (Action alphabet)}

theorem successFollowUp_eq_none_iff {value : Json} :
    spec.successFollowUp value = none ↔ spec.onSuccess = none := by
  rw [successFollowUp, Option.map_eq_none_iff, successAction]
  cases spec.onSuccess with
  | none => exact iff_of_true rfl rfl
  | some creator => exact iff_of_false nofun nofun

/-- Whatever the output is, the call of a RUN whose function has given it comes to a verdict. -/
theorem run_conclude (options : Options) (spec : RunSpec S Action (Action alphabet))
    (found : RunResult S Action (Action alphabet)) (tag : Action alphabet → Noted A)
    (engine : Engine S Action A) (world : World S Action A) :
    ∃ later, ((spec.conclude options found).retag tag).run engine world =
      (.ok (spec.verdict options found), later) := by
  have reported (cause : RunFailure) : ∃ reply middle,
      Run.perform (options.reportHandled cause) world = (.ok reply, middle) := by
    rw [Options.reportHandled]
    cases options.silenceHandled with
    | true => exact ⟨(), world, rfl⟩
    | false => exact ⟨(), world.emit (.log (.handledFailure cause)), rfl⟩
  cases found with
  | ready outcome =>
      cases outcome with
      | ok value => exact ⟨_, Verdict.run_ofAction engine tag (spec.successAction value) world⟩
      | error cause =>
          rw [conclude, executeReady, verdict]
          cases handled : spec.onFail with
          | none => exact ⟨world.emit (.log (.unhandledFailure cause)), rfl⟩
          | some creator =>
              obtain ⟨reply, middle, performed⟩ := reported cause
              have created : spec.failureAction cause = some <$> creator cause := by
                rw [failureAction, handled]
              rw [created]
              have creates := Verdict.run_ofAction engine tag (some <$> creator cause) middle
              exact ⟨_, (Run.bind_of_ok performed).trans creates⟩
  | deferred pending =>
      rw [conclude, executeDeferred, verdict]
      cases spec.forceSync with
      | true => exact ⟨_, Verdict.run_ofAction engine tag (spec.successAction .null) _⟩
      | false => exact ⟨world, rfl⟩

theorem verdict_eq_error_iff {failure : CmdFailure} :
    spec.verdict options found = .error failure ↔ ∃ cause, found = .ready (.error cause) ∧
      spec.onFail = none ∧ failure = .unhandledFailure cause := by
  rcases found with (cause | value) | pending
  · cases handled : spec.onFail with
    | none => simp [verdict, handled, eq_comm]
    | some creator => simp [verdict, handled]
  · simp [verdict]
  · cases synchronous : spec.forceSync <;> simp [verdict, synchronous]

theorem verdict_eq_none_iff :
    spec.verdict options found = .ok none ↔ spec.onSuccess = none ∧
      ((∃ value, found = .ready (.ok value)) ∨
        ∃ pending, found = .deferred pending ∧ spec.forceSync = true) := by
  rcases found with (cause | value) | pending
  · cases handled : spec.onFail <;> simp [verdict, handled]
  · simp [verdict, successFollowUp_eq_none_iff]
  · cases synchronous : spec.forceSync <;>
      simp [verdict, synchronous, successFollowUp_eq_none_iff]

end RunSpec

namespace Cmd

variable {dispatch : Dispatcher S Action A} {options : Options} {depth : Nat}
variable {tag : Action alphabet → Noted A} {world : World S Action A} {cause : RunFailure} {halt : Halt}

section Formers

variable {count : Nat} (tag) (world)

theorem call_run (spec : RunSpec S Action (Action alphabet)) :
    (Cmd.run spec).call dispatch options depth tag = output dispatch depth spec tag >>= fun found =>
      ((spec.conclude options found).retag tag).run (.ofDispatch dispatch depth) := by
  rw [call, execute, RunSpec.execute_eq_bind, Prompt.retag_bind, Prompt.run_bind, output]

/-- The call of a RUN whose function has given an output. -/
theorem call_run_of_output {spec : RunSpec S Action (Action alphabet)}
    {found : RunResult S Action (Action alphabet)} {later : World S Action A}
    (given : output dispatch depth spec tag world = (.ok found, later)) :
    ((Cmd.run spec).call dispatch options depth tag world).1 = .ok (spec.verdict options found) := by
  obtain ⟨after, concluded⟩ := RunSpec.run_conclude options spec found tag (.ofDispatch dispatch depth)
    later
  rw [call_run, Run.bind_of_ok given, concluded]

theorem call_map (nested : Cmd S Action child)
    (tagger : List Json → Action child → Noted (Action alphabet)) (args : List Json) :
    (Cmd.map nested tagger args).call dispatch options depth tag =
      Verdict.tagged (tagger args) <$>
        nested.call dispatch options depth fun action => tagger args action >>= tag := by
  rw [call, execute_map, Prompt.retag_map, Prompt.retag_retag, Prompt.run_map, call]

theorem call_inOrder (cmds : Fin (count + 1) → Cmd S Action alphabet) (batch : Bool) :
    (Cmd.list cmds true batch).call dispatch options depth tag =
      (fun verdict => .ok (some
        (walk batch (List.ofFn fun index => (cmds index.succ).execute options) [] verdict))) <$>
        (cmds 0).call dispatch options depth tag := by
  rw [call, execute, List.ofFn_succ, startInOrder, ← map_eq_pure_bind, Prompt.retag_map,
    Prompt.run_map, call]

/-- The commands after the first are called in the same worlds as if they were a list of their own. -/
theorem stage_tail (cmds : Fin (count + 1) → Cmd S Action alphabet) (index : Fin (count + 1)) :
    stage dispatch options depth (fun index => cmds index.succ) tag
        ((cmds 0).call dispatch options depth tag world).2 index =
      stage dispatch options depth cmds tag world index.succ := by
  induction index using Fin.induction with
  | zero => rfl
  | succ index ih =>
      change (call dispatch options depth (cmds index.succ) tag
        (stage dispatch options depth (fun index => cmds index.succ) tag _ index.castSucc)).2 = _
      rw [ih]
      rfl

variable {tag world} {cmds : Fin count → Cmd S Action alphabet}

/-- If all commands give verdicts, then these are those that a parallel list puts together. -/
theorem started_of_call (verdicts : Fin count → Verdict S Action (Action alphabet) alphabet)
    (each : ∀ index, ((cmds index).call dispatch options depth tag
      (stage dispatch options depth cmds tag world index.castSucc)).1 = .ok (verdicts index)) :
    Siblings.Started dispatch tag depth (List.ofFn fun index => (cmds index).execute options) world
      (List.ofFn verdicts) (stage dispatch options depth cmds tag world (Fin.last count)) := by
  induction count generalizing world with
  | zero => exact .nil world
  | succ count ih =>
      rw [List.ofFn_succ, List.ofFn_succ]
      have first : (cmds 0).call dispatch options depth tag world =
          (.ok (verdicts 0), ((cmds 0).call dispatch options depth tag world).2) :=
        Prod.ext (each 0) rfl
      refine .cons first ?_
      rw [← Fin.succ_last, ← stage_tail]
      apply ih fun index => verdicts index.succ
      intro index
      rw [stage_tail]
      exact each index.succ

/-- The first command that halts ends the call of a parallel list. -/
theorem call_together_halts {index : Fin count} (batch : Bool)
    (before : ∀ earlier < index, ∃ verdict, ((cmds earlier).call dispatch options depth tag
      (stage dispatch options depth cmds tag world earlier.castSucc)).1 = .ok verdict)
    (halts : ((cmds index).call dispatch options depth tag
      (stage dispatch options depth cmds tag world index.castSucc)).1 = .error halt) :
    ((Cmd.list cmds false batch).call dispatch options depth tag world).1 = .error halt := by
  have starts : ∃ later, ((List.ofFn fun index => ((cmds index).execute options).retag tag).mapM id).run
      (.ofDispatch dispatch depth) world = (.error halt, later) := by
    induction count generalizing world with
    | zero => exact index.elim0
    | succ count ih =>
        rw [List.ofFn_succ, List.mapM_cons, Prompt.run_bind, id]
        cases index using Fin.cases with
        | zero => exact ⟨_, Run.bind_of_error (Prod.ext halts rfl)⟩
        | succ index =>
            obtain ⟨verdict, answered⟩ := before 0 index.succ_pos
            have first : (((cmds 0).execute options).retag tag).run (.ofDispatch dispatch depth) world =
                (.ok verdict, ((cmds 0).call dispatch options depth tag world).2) :=
              Prod.ext answered rfl
            rw [Run.bind_of_ok first, Prompt.run_bind]
            have earliest (earlier : Fin count) (smaller : earlier < index) :
                ∃ verdict, ((cmds earlier.succ).call dispatch options depth tag
                  (stage dispatch options depth (fun index => cmds index.succ) tag
                    ((cmds 0).call dispatch options depth tag world).2 earlier.castSucc)).1 =
                      .ok verdict := by
              rw [stage_tail]
              exact before earlier.succ (Fin.succ_lt_succ_iff.2 smaller)
            rw [Fin.castSucc_succ, ← stage_tail] at halts
            obtain ⟨later, halted⟩ := ih earliest halts
            exact ⟨later, Run.bind_of_error halted⟩
  obtain ⟨later, halted⟩ := starts
  rw [call, execute, startTogether_eq, Prompt.retag_map, Prompt.retag_mapM, Prompt.run_map, List.map_ofFn,
    Run.map_eq]
  dsimp only [Function.comp_def]
  rw [halted]
  rfl

end Formers

/-! ## What the verdict is -/

section Judging

variable (dispatch) (options) (depth) (tag) (world) in
/-- An answer of the call that is accounted for. -/
inductive Judged (cmd : Cmd S Action alphabet) :
    Except Halt (Verdict S Action (Action alphabet) alphabet) → Prop where
  | halts {halt : Halt} : Halts dispatch options depth halt cmd tag world → Judged cmd (.error halt)
  | breaks {cause : RunFailure} : Breaks dispatch depth cause cmd tag world →
      Judged cmd (.ok (.error (.unhandledFailure cause)))
  | silent : Silent dispatch options depth cmd tag world → Judged cmd (.ok (.ok Option.none))
  | follows (follow : FollowUp S Action (Action alphabet) alphabet) :
      Judged cmd (.ok (.ok (some follow)))

theorem judged_run (spec : RunSpec S Action (Action alphabet)) :
    Judged dispatch options depth tag world (.run spec)
      ((Cmd.run spec).call dispatch options depth tag world).1 := by
  rcases ran : output dispatch depth spec tag world with ⟨result, later⟩
  cases result with
  | error halt =>
      rw [call_run, Run.bind_of_error ran]
      exact .halts (.run ran)
  | ok found =>
      rw [call_run_of_output tag world ran]
      rcases concluded : spec.verdict options found with failure | _ | follow
      · obtain ⟨cause, rfl, absent, rfl⟩ := RunSpec.verdict_eq_error_iff.1 concluded
        exact .breaks (.run ran absent)
      · obtain ⟨absent, ⟨value, rfl⟩ | ⟨pending, rfl, synchronous⟩⟩ :=
          RunSpec.verdict_eq_none_iff.1 concluded
        · exact .silent (.succeeds ran absent)
        · exact .silent (.detached ran synchronous absent)
      · exact .follows follow

theorem judged_together {count : Nat} {cmds : Fin count → Cmd S Action alphabet} (batch : Bool)
    (each : ∀ index world, Judged dispatch options depth tag world (cmds index)
      ((cmds index).call dispatch options depth tag world).1) :
    Judged dispatch options depth tag world (.list cmds false batch)
      ((Cmd.list cmds false batch).call dispatch options depth tag world).1 := by
  let answer (index : Fin count) := ((cmds index).call dispatch options depth tag
    (stage dispatch options depth cmds tag world index.castSucc)).1
  have judged (index : Fin count) : Judged dispatch options depth tag
      (stage dispatch options depth cmds tag world index.castSucc) (cmds index) (answer index) :=
    each index _
  rcases exists_first_error answer with ⟨verdicts, answered⟩ | ⟨index, halt, halted, before⟩
  · have called := execute_parallel (started_of_call verdicts answered) batch
    rw [call, called]
    cases found : siblings batch (List.ofFn verdicts) with
    | nil =>
        refine .silent (.together fun index => ?_)
        have nothing : verdicts index = .ok Option.none :=
          (Siblings.siblings_eq_nil_iff batch _).1 found _ (List.mem_ofFn.2 ⟨index, rfl⟩)
        have silent := judged index
        rw [answered index, nothing] at silent
        cases silent with
        | silent silent => exact silent
    | cons first rest => exact .follows _
  · rw [call_together_halts batch before halted]
    have halts := judged index
    rw [halted] at halts
    cases halts with
    | halts halts => exact .halts (.element index before halts)

/-- The call of a command is accounted for. -/
theorem judged (cmd : Cmd S Action alphabet) (tag : Action alphabet → Noted A)
    (world : World S Action A) :
    Judged dispatch options depth tag world cmd (cmd.call dispatch options depth tag world).1 := by
  induction cmd generalizing world with
  | none => exact .silent .none
  | action sent => exact .follows _
  | run spec => exact judged_run spec
  | list cmds sequence batch ih =>
      cases sequence with
      | false => exact judged_together batch fun index world => ih index tag world
      | true =>
          rename_i count
          cases count with
          | zero => exact .silent .empty
          | succ count =>
              have head := ih 0 tag world
              rw [call_inOrder, Run.map_eq]
              generalize ((cmds 0).call dispatch options depth tag world).1 = answer at head
              cases answer with
              | error halt =>
                  cases head with
                  | halts halts => exact .halts (.head halts)
              | ok verdict => exact .follows _
  | map nested tagger args ih =>
      have inner := ih (fun action => tagger args action >>= tag) world
      rw [call_map, Run.map_eq]
      generalize (nested.call dispatch options depth _ world).1 = answer at inner
      cases inner with
      | halts halts => exact .halts (.map halts)
      | breaks breaks => exact .breaks (.map breaks)
      | silent silent => exact .silent (.map silent)
      | follows follow => exact .follows _
  | scheduled nested delay repeating creator _ =>
      rcases registered : Run.schedule delay repeating
        (Pending.retag tag (firing (nested.execute options))) world with ⟨halt | handle, later⟩
      · rw [call, execute, Prompt.retag, Prompt.run, Run.bind_of_error registered]
        exact .halts (.scheduled registered)
      · rw [call, execute, Prompt.retag, Prompt.run, Run.bind_of_ok registered]
        cases creator with
        | none => exact .silent (.scheduled registered)
        | some creator =>
            have created := Verdict.run_ofAction (.ofDispatch dispatch depth) tag
              (some <$> creator handle) (later.emit (.log (.commandScheduled handle delay repeating)))
            change Judged dispatch options depth tag world _ (Prompt.run (.ofDispatch dispatch depth)
              (Prompt.retag tag (Verdict.ofAction (some <$> creator handle))) _).1
            rw [created]
            exact .follows _

theorem judged_of_eq {cmd : Cmd S Action alphabet}
    {answer : Except Halt (Verdict S Action (Action alphabet) alphabet)}
    (answered : (cmd.call dispatch options depth tag world).1 = answer) :
    Judged dispatch options depth tag world cmd answer :=
  answered ▸ judged cmd tag world

theorem Breaks.call_eq {cmd : Cmd S Action alphabet} (breaks : Breaks dispatch depth cause cmd tag world) :
    (cmd.call dispatch options depth tag world).1 = .ok (.error (.unhandledFailure cause)) := by
  induction breaks with
  | run ran absent =>
      rw [call_run_of_output _ _ ran]
      exact congrArg Except.ok (RunSpec.verdict_eq_error_iff.2 ⟨cause, rfl, absent, rfl⟩)
  | map _ ih =>
      rw [call_map, Run.map_eq, ih]
      rfl

theorem Silent.call_eq {cmd : Cmd S Action alphabet}
    (silent : Silent dispatch options depth cmd tag world) :
    (cmd.call dispatch options depth tag world).1 = .ok (.ok Option.none) := by
  induction silent with
  | none => rfl
  | succeeds ran absent =>
      rw [call_run_of_output _ _ ran]
      exact congrArg Except.ok (RunSpec.verdict_eq_none_iff.2 ⟨absent, .inl ⟨_, rfl⟩⟩)
  | detached ran synchronous absent =>
      rw [call_run_of_output _ _ ran]
      exact congrArg Except.ok (RunSpec.verdict_eq_none_iff.2 ⟨absent, .inr ⟨_, rfl, synchronous⟩⟩)
  | @together alphabet count cmds batch tag world _ ih =>
      let nothing (_ : Fin count) : Verdict S Action (Action alphabet) alphabet := .ok Option.none
      have called := execute_parallel (started_of_call nothing ih) batch
      have none : siblings batch (List.ofFn nothing) = [] := by
        rw [Siblings.siblings_eq_nil_iff]
        intro verdict listed
        obtain ⟨_, rfl⟩ := List.mem_ofFn.1 listed
        rfl
      rw [Cmd.call, called, none]
      rfl
  | empty => rfl
  | map _ ih =>
      rw [call_map, Run.map_eq, ih]
      rfl
  | scheduled registered =>
      rw [Cmd.call, execute, Prompt.retag, Prompt.run, Run.bind_of_ok registered]
      rfl

theorem Halts.call_eq {cmd : Cmd S Action alphabet}
    (halts : Halts dispatch options depth halt cmd tag world) :
    (cmd.call dispatch options depth tag world).1 = .error halt := by
  induction halts with
  | run ran => rw [call_run, Run.bind_of_error ran]
  | scheduled refused =>
      rw [Cmd.call, execute, Prompt.retag, Prompt.run, Run.bind_of_error refused]
  | map _ ih =>
      rw [call_map, Run.map_eq, ih]
      rfl
  | element index before _ ih => exact call_together_halts _ before ih
  | head _ ih =>
      rw [call_inOrder, Run.map_eq, ih]
      rfl

/-- A RUN that has failed at once fails the command that has called it, at once or in its future. -/
theorem Fails.doomed {cmd : Cmd S Action alphabet}
    {verdict : Verdict S Action (Action alphabet) alphabet}
    (fails : Fails dispatch options depth cause cmd tag world)
    (answered : (cmd.call dispatch options depth tag world).1 = .ok verdict) :
    verdict.Doomed dispatch tag := by
  induction fails with
  | run ran absent =>
      rw [call_run_of_output _ _ ran, Except.ok.injEq] at answered
      rw [← answered]
      exact .inl ⟨_, RunSpec.verdict_eq_error_iff.2 ⟨cause, rfl, absent, rfl⟩⟩
  | map _ ih =>
      rw [call_map, Run.map_eq] at answered
      rcases inner : (Cmd.call dispatch options depth _ _ _).1 with halt | verdict
      · rw [inner] at answered
        cases answered
      · rw [inner] at answered
        cases answered
        exact (ih inner).tagged
  | @element _ count cmds batch tag world index _ ih =>
      rcases exists_first_error fun index => ((cmds index).call dispatch options depth tag
        (stage dispatch options depth cmds tag world index.castSucc)).1 with
        ⟨verdicts, each⟩ | ⟨_, halt, halted, before⟩
      · have called := execute_parallel (started_of_call verdicts each) batch
        rw [Cmd.call, called, Except.ok.injEq] at answered
        rw [← answered]
        exact (ih (each index)).gathered (List.mem_ofFn.2 ⟨index, rfl⟩) batch
      · rw [call_together_halts batch before halted] at answered
        cases answered
  | @head _ count cmds batch tag world _ ih =>
      rw [call_inOrder, Run.map_eq] at answered
      rcases inner : ((cmds 0).call dispatch options depth tag world).1 with halt | verdict
      · rw [inner] at answered
        cases answered
      · rw [inner] at answered
        cases answered
        exact .inr ⟨_, rfl, (ih inner).walk batch _ []⟩

variable (dispatch options depth tag world) (cmd : Cmd S Action alphabet)

theorem call_eq_error_iff (failure : CmdFailure) :
    (cmd.call dispatch options depth tag world).1 = .ok (.error failure) ↔
      ∃ cause, Breaks dispatch depth cause cmd tag world ∧ failure = .unhandledFailure cause := by
  constructor
  · intro answered
    cases judged_of_eq answered with
    | breaks breaks => exact ⟨_, breaks, rfl⟩
  · rintro ⟨cause, breaks, rfl⟩
    exact breaks.call_eq

theorem call_eq_none_iff :
    (cmd.call dispatch options depth tag world).1 = .ok (.ok Option.none) ↔
      Silent dispatch options depth cmd tag world := by
  constructor
  · intro answered
    cases judged_of_eq answered with
    | silent silent => exact silent
  · exact Silent.call_eq

theorem call_halts_iff (halt : Halt) :
    (cmd.call dispatch options depth tag world).1 = .error halt ↔
      Halts dispatch options depth halt cmd tag world := by
  constructor
  · intro answered
    cases judged_of_eq answered with
    | halts halts => exact halts
  · exact Halts.call_eq

/-- What the call of a command answers.  It is an error just for a RUN, in any number of tags, that
fails at once and has no fail creator, and the error is that failure; it is nothing just for a command
that is silent; and else it is a future, unless the call halts.  If a RUN has failed at once anywhere
in the command, then the verdict is that error, or its future fails, however and in whatever worlds it
is driven.  Failures of outcomes that are still pending, and of firings, are no failures of a command:
they end in a fail creator or in the log. -/
theorem call_verdict :
    let answer := (cmd.call dispatch options depth tag world).1
    (∀ failure, answer = .ok (.error failure) ↔
      ∃ cause, Breaks dispatch depth cause cmd tag world ∧ failure = .unhandledFailure cause) ∧
    (answer = .ok (.ok Option.none) ↔ Silent dispatch options depth cmd tag world) ∧
    (∀ halt, answer = .error halt ↔ Halts dispatch options depth halt cmd tag world) ∧
    ((∀ cause, ¬ Breaks dispatch depth cause cmd tag world) →
      ¬ Silent dispatch options depth cmd tag world →
      (∀ halt, ¬ Halts dispatch options depth halt cmd tag world) →
      ∃ follow, answer = .ok (.ok (some follow))) ∧
    ∀ cause verdict, Fails dispatch options depth cause cmd tag world → answer = .ok verdict →
      (∃ failure, verdict = .error failure) ∨
        ∃ follow, verdict = .ok (some follow) ∧
          FollowUp.Doomed dispatch (Pending.retag tag follow) := by
  refine ⟨cmd.call_eq_error_iff dispatch options depth tag world,
    cmd.call_eq_none_iff dispatch options depth tag world,
    cmd.call_halts_iff dispatch options depth tag world, ?_, ?_⟩
  · intro whole loud ends
    rcases answered : (cmd.call dispatch options depth tag world).1 with halt | failure | _ | follow
    · exact absurd ((cmd.call_halts_iff dispatch options depth tag world halt).1 answered) (ends halt)
    · obtain ⟨cause, breaks, -⟩ :=
        (cmd.call_eq_error_iff dispatch options depth tag world failure).1 answered
      exact absurd breaks (whole cause)
    · exact absurd ((cmd.call_eq_none_iff dispatch options depth tag world).1 answered) loud
    · exact ⟨follow, rfl⟩
  · intro cause verdict fails answered
    exact fails.doomed answered

end Judging

/-! ### A mishap among others -/

/-- A RUN that fails at once and has no fail creator. -/
def mishap : RunSpec Nat (fun _ : Unit => Nat) Nat where
  func _ := .done (.ready (.error (.failed .null)))
  args := []
  onSuccess := Option.none
  onFail := Option.none
  forceSync := false

/-- A list answers no error for it. -/
def mishaps : Cmd Nat (fun _ : Unit => Nat) () := .list ![.action (2 : Nat), .run mishap] false true

theorem mishaps_fail : Fails recorder.dispatch .default 2 (.failed .null) mishaps pure idle :=
  .element 1 (.run rfl rfl)

/-- The future of the list fails, however it is driven. -/
theorem mishaps_doomed :
    ∃ follow, (mishaps.call recorder.dispatch .default 2 pure idle).1 = .ok (.ok (some follow)) ∧
      FollowUp.Doomed recorder.dispatch (Pending.retag pure follow) := by
  obtain ⟨-, -, -, -, fails⟩ := call_verdict recorder.dispatch .default 2 pure idle mishaps
  rcases fails (.failed .null) _ mishaps_fail rfl with ⟨failure, failed⟩ | ⟨follow, is, doomed⟩
  · cases failed
  · cases is
    exact ⟨_, rfl, doomed⟩

end Cmd

end EffectLoop
