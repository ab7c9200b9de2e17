import EffectLoop.Proofs.Program.Attestations
import EffectLoop.Proofs.Command.Completion
import EffectLoop.Proofs.Command.Editing

/-!
# Commands that attest their outcomes

`Cmd.attested` is the command whose RUNs attest their outcomes under their sites, each as soon as its
outcome is known: in the call, or when what is pending has come to its end.  An output that nothing waits
for counts as success with `null`, which is known in the call.

Nothing else is changed, but that all other notes are quoted.  Without the attestations and the quotes the
attested command is the command (`Cmd.plain_attested`).  So its histories are those of the command, with
the attestations added.
-/

namespace EffectLoop

variable {S ι : Type} {Action : ι → Type} {A : Type} {alphabet : ι}

/-! ## Editing notes only -/

theorem Edit.makes_reportHandled {edits : Edit} (audible : ∀ entry, edits.mute entry = false)
    (options : Options) (cause : RunFailure) :
    edits.Makes (options.reportHandled cause) (options.reportHandled cause) := by
  rw [Options.reportHandled]
  split
  · exact fun _ => ⟨rfl, rfl⟩
  · exact makes_log (audible _)

theorem Edit.makes_reportDetached {edits : Edit} (audible : ∀ entry, edits.mute entry = false)
    (outcome : Except RunFailure Json) :
    edits.Makes (RunSpec.reportDetached outcome) (RunSpec.reportDetached outcome) := by
  cases outcome with
  | ok value => exact fun _ => ⟨rfl, rfl⟩
  | error cause => exact makes_log (audible _)

namespace Edition

/-- An edit that mutes nothing needs no other change. -/
def ofEdit (edits : Edit) (audible : ∀ entry, edits.mute entry = false) : Edition where
  edits := edits
  options := id
  detached := id
  handled := Edit.makes_reportHandled audible
  reported := Edit.makes_reportDetached audible
  unhandled _ := audible _
  uncaught _ := audible _
  firing _ := audible _
  scheduled _ _ _ := audible _

/-- All notes are quoted. -/
def quoting : Edition := ofEdit .quoting fun _ => rfl

/-- Quoted notes are as they were before, and what is not quoted is left out. -/
def plain : Edition := ofEdit .plain fun _ => rfl

@[simp] theorem edits_quoting : quoting.edits = .quoting := rfl

end Edition

section Histories

variable {edition : Edition} {start : Start S Action alphabet}
variable {journal : List (Act S (Action alphabet))} {result : Produced Action alphabet}

/-- The histories of a start are edited with it. -/
theorem Start.Yields.revised (yields : Start.Yields start journal result) :
    Start.Yields (start.revised edition) (edition.edits.journal journal) result := by
  cases yields with
  | failed ends => exact .failed (ends.edit _)
  | nothing ends => exact .nothing (ends.edit _)
  | pending ends completes =>
      rw [Edit.journal_append]
      exact .pending (ends.edit _) (Pending.Does.edit _ completes)

/-- Every history of an edited start is an edited history. -/
theorem Start.Yields.of_revised (yields : Start.Yields (start.revised edition) journal result) :
    ∃ source, Start.Yields start source result ∧ edition.edits.journal source = journal := by
  cases yields with
  | failed ends =>
      rcases Prompt.Ends.of_edit _ ends with ⟨source, verdict, started, rfl, same⟩
      rcases verdict with cause | _ | follow
      · cases same
        exact ⟨source, .failed started, rfl⟩
      · cases same
      · cases same
  | nothing ends =>
      rcases Prompt.Ends.of_edit _ ends with ⟨source, verdict, started, rfl, same⟩
      rcases verdict with cause | _ | follow
      · cases same
      · exact ⟨source, .nothing started, rfl⟩
      · cases same
  | pending ends completes =>
      rcases Prompt.Ends.of_edit _ ends with ⟨source, verdict, started, rfl, same⟩
      rcases verdict with cause | _ | follow
      · cases same
      · cases same
      · cases same
        rcases Pending.Completes.of_edit _ completes with ⟨later, ended, rfl⟩
        exact ⟨source ++ later, .pending started ended, Edit.journal_append ..⟩

end Histories

/-! ## Attested commands -/

/-- The output is attested if it is known, or counts as known; otherwise it will be when it is. -/
def RunResult.attested (site : Site) (forced : Bool) :
    RunResult S Action A → Prompt S Action A (RunResult S Action A)
  | .ready outcome => Prompt.ofNoted ⟨site.attest outcome, .ready outcome⟩
  | .deferred later =>
      if forced then Prompt.ofNoted ⟨site.attest (.ok .null), .deferred later⟩
      else pure (.deferred (later.bind fun outcome => .noting (site.attest outcome) (.done outcome)))

/-- The RUN that attests its outcome under the site. -/
def RunSpec.attested (site : Site) (spec : RunSpec S Action A) : RunSpec S Action A :=
  { spec.revised .quoting with
    func := fun args => (spec.revised .quoting).func args >>= RunResult.attested site spec.forceSync }

namespace Cmd

/-- The command whose RUNs attest their outcomes under the names given to their sites.  The RUNs of a
command that is executed later attest nothing. -/
def attested : {alphabet : ι} → (Site → Site) → Cmd S Action alphabet → Cmd S Action alphabet
  | _, _, .none => .none
  | _, _, .action sent => .action sent
  | _, name, .run spec => .run (spec.attested (name []))
  | _, name, .list cmds sequence batch =>
      .list (fun index => (cmds index).attested fun site => name (⟨sequence, index⟩ :: site))
        sequence batch
  | _, name, .map nested tagger args =>
      .map (nested.attested name) (fun args action => (tagger args action).edit .quoting) args
  | _, _, .scheduled nested delay repeating onScheduled =>
      (scheduled nested delay repeating onScheduled).revised .quoting

end Cmd

/-! ## Taking the attestations away -/

theorem RunResult.plain_quoting (forced : Bool) (output : RunResult S Action A) :
    (output.revised .quoting forced).revised .plain forced = output := by
  cases output with
  | ready outcome => rfl
  | deferred later =>
      have same : (later.revised .quoting).revised .plain = later := later.plain_quoting
      cases forced with
      | true =>
          change deferred ((Pending.revised .plain ((later.revised .quoting).bind .done)).bind .done) = _
          rw [Pending.bind_done, Pending.bind_done, same]
      | false => exact congrArg deferred same

theorem RunSpec.plain_quoting (spec : RunSpec S Action A) :
    (spec.revised .quoting).revised .plain = spec := by
  have func (args : List Arg) : ((spec.func args).revised .quoting (.revised .quoting spec.forceSync)).revised
      .plain (.revised .plain spec.forceSync) = spec.func args :=
    Prompt.plain_quoting (RunResult.plain_quoting spec.forceSync) _
  have noted {α : Type} (creator : α → Noted A) :
      (fun value => ((creator value).edit .quoting).edit .plain) = creator :=
    funext fun value => (creator value).plain_quoting
  rcases spec with ⟨_, args, onSuccess, onFail, forceSync⟩
  simp only [revised, mk.injEq, true_and, and_true]
  refine ⟨funext func, ?_, ?_⟩
  · cases onSuccess with
    | none => rfl
    | some creator => exact congrArg some (noted creator)
  · cases onFail with
    | none => rfl
    | some creator => exact congrArg some (noted creator)

theorem RunResult.plain_attested (site : Site) (forced : Bool) (output : RunResult S Action A) :
    (output.attested site forced).revised .plain (.revised .plain forced) =
      pure (output.revised .plain forced) := by
  have noted (outcome : Except RunFailure Json) (value : RunResult S Action A) :
      (Prompt.ofNoted ⟨site.attest outcome, value⟩ : Prompt S Action A _).revised .plain
        (.revised .plain forced) = pure (value.revised .plain forced) := by
    refine (Prompt.edit_ofNoted ..).trans ?_
    exact congrArg (fun notes => Prompt.ofNoted ⟨notes, _⟩) (site.plain_attest outcome)
  cases output with
  | ready outcome => exact noted outcome _
  | deferred later =>
      cases forced with
      | true => exact noted (.ok .null) _
      | false =>
          refine congrArg (fun later => Prompt.done (deferred later)) ?_
          refine (Pending.edit_bind ..).trans ?_
          have last (outcome : Except RunFailure Json) :
              (Pending.noting (site.attest outcome)
                (.done outcome : Pending S Action A .outcome)).edit .plain = .done outcome := by
            rw [Pending.edit_noting]
            exact congrArg (Pending.noting · _) (site.plain_attest outcome)
          exact (congrArg (Pending.bind _) (funext last)).trans (Pending.bind_done _)

theorem RunSpec.plain_attested (site : Site) (spec : RunSpec S Action A) :
    (spec.attested site).revised .plain = spec := by
  have func (args : List Arg) : ((spec.attested site).func args).revised .plain
      (.revised .plain spec.forceSync) = spec.func args := by
    refine (Prompt.edit_bind _ _ (RunResult.plain_attested site spec.forceSync)).trans ?_
    refine (bind_pure _).trans ?_
    exact congrFun (congrArg RunSpec.func spec.plain_quoting) args
  calc (spec.attested site).revised .plain
      = { (spec.revised .quoting).revised .plain with
          func := fun args => ((spec.attested site).func args).revised .plain
            (.revised .plain spec.forceSync) } := rfl
    _ = spec := by rw [funext func, spec.plain_quoting]

namespace Cmd

theorem plain_quoting (cmd : Cmd S Action alphabet) :
    (cmd.revised .quoting).revised .plain = cmd := by
  have noted {α A : Type} (creator : α → Noted A) :
      (fun value => ((creator value).edit .quoting).edit .plain) = creator :=
    funext fun value => (creator value).plain_quoting
  induction cmd with
  | none => rfl
  | action sent => rfl
  | run spec => exact congrArg run spec.plain_quoting
  | list cmds sequence batch ih => simp only [revised, ih]
  | map nested tagger args ih =>
      simp only [revised, ih]
      exact congrArg (map nested · args) (funext fun args => noted (tagger args))
  | scheduled nested delay repeating onScheduled ih =>
      simp only [revised, ih]
      cases onScheduled with
      | none => rfl
      | some creator =>
          exact congrArg (fun creator => scheduled nested delay repeating (some creator)) (noted creator)

/-- Without the attestations and the quotes it is the command. -/
theorem plain_attested (name : Site → Site) (cmd : Cmd S Action alphabet) :
    (cmd.attested name).revised .plain = cmd := by
  induction cmd generalizing name with
  | none => rfl
  | action sent => rfl
  | run spec => exact congrArg run (spec.plain_attested (name []))
  | list cmds sequence batch ih => simp only [attested, revised, ih]
  | map nested tagger args ih =>
      simp only [attested, revised, ih]
      exact congrArg (map nested · args)
        (funext fun args => funext fun action => (tagger args action).plain_quoting)
  | scheduled nested delay repeating onScheduled ih =>
      exact (scheduled nested delay repeating onScheduled).plain_quoting

/-- Executing the attested command is executing the command, with the attestations added and all else
that is written quoted. -/
theorem plain_execute_attested (options : Options) (name : Site → Site) (cmd : Cmd S Action alphabet) :
    Start.revised .plain ((cmd.attested name).execute options) = cmd.execute options := by
  rw [revised_execute, plain_attested]
  rfl

end Cmd

end EffectLoop
