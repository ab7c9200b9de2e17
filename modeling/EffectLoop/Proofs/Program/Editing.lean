import EffectLoop.Proofs.Program.Retag
import EffectLoop.Proofs.Program.Terms

/-!
# Editing what programs write

An edit changes the notes that a program leaves, or leaves some of them out, and it mutes lines of the
log.  Nothing else is changed.  Editing commutes with sequencing and with tagging, and the histories of an
edited program are the edited histories of the program.
-/

namespace EffectLoop

variable {S ι : Type} {Action : ι → Type} {A B α β γ δ : Type} {answer other : Answer ι}

/-- A change of what a program writes. -/
structure Edit where
  /-- What becomes of a note, unless it is left out. -/
  note : Json → Option Json
  /-- Is the line of the log muted? -/
  mute : LogEntry → Bool

/-- What becomes of an effect. -/
inductive Edited (S : Type) (effect : Primitive) where
  /-- It is left out, and there is but one reply that it can have had. -/
  | omitted (reply : effect.Reply S) (only : ∀ other, other = reply)
  /-- There is this effect in its place, with the same replies. -/
  | made (other : Primitive) (same : other.Reply S = effect.Reply S)

/-- A muted line is nothing, which is an effect as well. -/
def Edit.effect (edits : Edit) : (effect : Primitive) → Edited S effect
  | .note value =>
      match edits.note value with
      | some other => .made (.note other) rfl
      | none => .omitted () fun _ => rfl
  | .log entry => if edits.mute entry then .made .skip rfl else .made (.log entry) rfl
  | effect => .made effect rfl

variable (edits : Edit)

/-- An audible line is written all the same. -/
theorem Edit.effect_log {edits : Edit} {entry : LogEntry} (audible : edits.mute entry = false) :
    (edits.effect (.log entry) : Edited S (.log entry)) = .made (.log entry) rfl := by
  rw [effect, audible, if_neg Bool.false_ne_true]

namespace Noted

/-- The value with its notes edited. -/
def edit (found : Noted α) : Noted α := ⟨found.notes.filterMap edits.note, found.value⟩

theorem edit_pure (value : α) : (pure value : Noted α).edit edits = pure value := rfl

theorem edit_bind (found : Noted α) (next : α → Noted β) :
    (found >>= next).edit edits = found.edit edits >>= fun value => (next value).edit edits := by
  ext1
  · exact List.filterMap_append
  · rfl

theorem edit_map (image : α → β) (found : Noted α) :
    (image <$> found).edit edits = image <$> found.edit edits := by
  rw [map_eq_pure_bind, edit_bind, map_eq_pure_bind]
  rfl

theorem edit_mapM (each : α → Noted β) (values : List α) :
    (values.mapM each).edit edits = values.mapM fun value => (each value).edit edits := by
  induction values with
  | nil => rfl
  | cons value rest ih =>
      rw [List.mapM_cons, List.mapM_cons, edit_bind, ← ih]
      congr 1
      funext first
      rw [edit_bind]
      rfl

end Noted

/-! ## Programs -/

namespace Pending

/-- The computation with what it writes edited. -/
@[simp] def edit : {answer : Answer ι} → Pending S Action A answer → Pending S Action A answer
  | _, .done value => .done value
  | _, .call effect next =>
      match edits.effect effect with
      | .omitted reply _ => (next reply).edit
      | .made other same => .call other fun reply => (next (cast same reply)).edit
  | _, .send action keep next => .send (action.edit edits) keep next.edit
  | _, .schedule delay repeating task next =>
      .schedule delay repeating task.edit fun handle => (next handle).edit
  | _, .spawn task next => .spawn task.edit next.edit
  | _, .wait gate next => .wait gate next.edit
  | _, .resumeAt moment next => .resumeAt moment next.edit
  | _, .sendAll actions next =>
      .sendAll (actions.map (Noted.edit edits)) fun reply => (next reply).edit
  | _, .settling ticket caused next =>
      .settling ticket (fun index => (caused index).edit) fun reply => (next reply).edit
  | _, .join ticket children next =>
      .join ticket (fun index => (children index).edit) fun values => (next values).edit
  | _, .advanceTo target ticket driven next =>
      .advanceTo target ticket (fun index => (driven index).edit) next.edit
  | _, .interval handle period due task running =>
      .interval handle period due task.edit fun index => (running index).edit

theorem edit_bind (first : Pending S Action A answer)
    (after : answer.Value Action → Pending S Action A other) :
    (first.bind after).edit edits = (first.edit edits).bind fun value => (after value).edit edits := by
  induction first with
  | done value => rfl
  | call effect next ih =>
      simp only [Pending.edit, bind]
      cases (edits.effect effect : Edited S effect) <;> simp only [bind, ih]
  | send action keep next ih => simp only [Pending.edit, bind, ih]
  | schedule delay repeating task next _ ih => simp only [Pending.edit, bind, ih]
  | spawn task next _ ih => simp only [Pending.edit, bind, ih]
  | wait gate next ih => simp only [Pending.edit, bind, ih]
  | resumeAt moment next ih => simp only [Pending.edit, bind, ih]
  | sendAll actions next ih => simp only [Pending.edit, bind, ih]
  | settling ticket caused next _ ih => simp only [Pending.edit, bind, ih]
  | join ticket children next _ ih => simp only [Pending.edit, bind, ih]
  | advanceTo target ticket driven next _ ih => simp only [Pending.edit, bind, ih]
  | interval handle period due task running _ _ => rfl

theorem edit_retag (tagger : A → Noted B) (program : Pending S Action A answer) :
    (program.retag tagger).edit edits =
      (program.edit edits).retag fun action => (tagger action).edit edits := by
  induction program with
  | done value => rfl
  | call effect next ih =>
      simp only [Pending.edit, retag]
      cases (edits.effect effect : Edited S effect) <;> simp only [retag, ih]
  | send action keep next ih => simp only [Pending.edit, retag, ih, Noted.edit_bind]
  | schedule delay repeating task next taskIH ih => simp only [Pending.edit, retag, taskIH, ih]
  | spawn task next taskIH ih => simp only [Pending.edit, retag, taskIH, ih]
  | wait gate next ih => simp only [Pending.edit, retag, ih]
  | resumeAt moment next ih => simp only [Pending.edit, retag, ih]
  | sendAll actions next ih =>
      simp only [Pending.edit, retag, ih, List.map_map, Function.comp_def, Noted.edit_bind]
  | settling ticket caused next causedIH ih => simp only [Pending.edit, retag, causedIH, ih]
  | join ticket children next childrenIH ih => simp only [Pending.edit, retag, childrenIH, ih]
  | advanceTo target ticket driven next drivenIH ih => simp only [Pending.edit, retag, drivenIH, ih]
  | interval handle period due task running taskIH runningIH =>
      simp only [Pending.edit, retag, taskIH, runningIH]

/-- An effect whose reply does not matter. -/
theorem edit_call_of {edits : Edit} {effect other : Primitive}
    {same : other.Reply S = effect.Reply S} (made : edits.effect effect = .made other same)
    (next : Pending S Action A answer) :
    (call effect fun _ => next).edit edits = .call other fun _ => next.edit edits := by
  simp only [Pending.edit, made]

theorem edit_noting (notes : List Json) (next : Pending S Action A answer) :
    (noting notes next).edit edits = noting (notes.filterMap edits.note) (next.edit edits) := by
  induction notes with
  | nil => rfl
  | cons value rest ih =>
      change (call (.note value) fun _ => noting rest next).edit edits = _
      cases found : edits.note value with
      | none =>
          rw [List.filterMap_cons_none found, ← ih]
          simp only [Pending.edit, Edit.effect, found]
      | some other =>
          rw [List.filterMap_cons_some found]
          simp only [Pending.edit, Edit.effect, found, ih]
          rfl

theorem edit_withNoted (found : Noted α) (next : α → Pending S Action A answer) :
    (withNoted found next).edit edits =
      withNoted (found.edit edits) fun value => (next value).edit edits :=
  edit_noting edits found.notes (next found.value)

end Pending

namespace Prompt

/-- The computation with what it writes edited; `image` is what becomes of the result. -/
@[simp] def edit (image : α → β) : Prompt S Action A α → Prompt S Action A β
  | .done value => .done (image value)
  | .call effect next =>
      match edits.effect effect with
      | .omitted reply _ => (next reply).edit image
      | .made other same => .call other fun reply => (next (cast same reply)).edit image
  | .send action keep next => .send (action.edit edits) keep (next.edit image)
  | .schedule delay repeating task next =>
      .schedule delay repeating (task.edit edits) fun handle => (next handle).edit image
  | .spawn task next => .spawn (task.edit edits) (next.edit image)

variable {image : α → β}

/-- An effect whose reply does not matter. -/
theorem edit_call_of {edits : Edit} {effect other : Primitive}
    {same : other.Reply S = effect.Reply S} (made : edits.effect effect = .made other same)
    (next : Prompt S Action A α) :
    (call effect fun _ => next).edit edits image = .call other fun _ => next.edit edits image := by
  simp only [Prompt.edit, made]

theorem edit_bind {last : γ → δ} (first : Prompt S Action A α) {after : α → Prompt S Action A γ}
    {edited : β → Prompt S Action A δ}
    (same : ∀ value, (after value).edit edits last = edited (image value)) :
    (first >>= after).edit edits last = first.edit edits image >>= edited := by
  change (first.bind after).edit edits last = (first.edit edits image).bind edited
  induction first with
  | done value => exact same value
  | call effect next ih =>
      simp only [Prompt.edit, bind]
      cases (edits.effect effect : Edited S effect) <;> simp only [bind, ih]
  | send action keep next ih => simp only [Prompt.edit, bind, ih]
  | schedule delay repeating task next ih => simp only [Prompt.edit, bind, ih]
  | spawn task next ih => simp only [Prompt.edit, bind, ih]

theorem edit_mapM (programs : List (Prompt S Action A α)) :
    (programs.mapM id).edit edits (List.map image) =
      (programs.map (·.edit edits image)).mapM id := by
  induction programs with
  | nil => rfl
  | cons program rest ih =>
      rw [List.map_cons, List.mapM_cons, List.mapM_cons]
      apply edit_bind edits program
      intro value
      rw [← ih]
      apply edit_bind edits
      intro others
      rfl

theorem edit_retag (tagger : A → Noted B) (program : Prompt S Action A α) :
    (program.retag tagger).edit edits image =
      (program.edit edits image).retag fun action => (tagger action).edit edits := by
  induction program with
  | done value => rfl
  | call effect next ih =>
      simp only [Prompt.edit, retag]
      cases (edits.effect effect : Edited S effect) <;> simp only [retag, ih]
  | send action keep next ih => simp only [Prompt.edit, retag, ih, Noted.edit_bind]
  | schedule delay repeating task next ih => simp only [Prompt.edit, retag, Pending.edit_retag, ih]
  | spawn task next ih => simp only [Prompt.edit, retag, Pending.edit_retag, ih]

theorem edit_thenPending (first : Prompt S Action A α) {after : α → Pending S Action A answer}
    {edited : β → Pending S Action A answer}
    (same : ∀ value, (after value).edit edits = edited (image value)) :
    (first.thenPending after).edit edits = (first.edit edits image).thenPending edited := by
  induction first with
  | done value => exact same value
  | call effect next ih =>
      simp only [Prompt.edit, thenPending, Pending.edit]
      cases (edits.effect effect : Edited S effect) <;> simp only [thenPending, ih]
  | send action keep next ih => simp only [Prompt.edit, thenPending, Pending.edit, ih]
  | schedule delay repeating task next ih => simp only [Prompt.edit, thenPending, Pending.edit, ih]
  | spawn task next ih => simp only [Prompt.edit, thenPending, Pending.edit, ih]

theorem edit_ofNoted (found : Noted α) :
    (ofNoted found : Prompt S Action A α).edit edits image =
      ofNoted ⟨found.notes.filterMap edits.note, image found.value⟩ := by
  rcases found with ⟨notes, held⟩
  induction notes with
  | nil => rfl
  | cons value rest ih =>
      change (call (.note value) fun _ => ofNoted ⟨rest, held⟩).edit edits image = _
      cases found : edits.note value with
      | none => simp only [Prompt.edit, Edit.effect, found, ih, List.filterMap_cons_none found]
      | some other =>
          simp only [Prompt.edit, Edit.effect, found, ih, List.filterMap_cons_some found]
          rfl

end Prompt

/-! ## Histories -/

/-- What becomes of an entry of a journal, unless it is left out. -/
def Act.edit : Act S A → Option (Act S A)
  | .did (.performed effect reply) =>
      match edits.effect effect with
      | .omitted _ _ => none
      | .made other same => some (.did (.performed other (cast same.symm reply)))
  | .did deed => some (.did deed)
  | .sent action => some (.sent (action.edit edits))
  | .answered reply => some (.answered reply)

/-- The journal with what was written edited. -/
def Edit.journal (journal : List (Act S A)) : List (Act S A) := journal.filterMap (Act.edit edits)

section Journals

variable (first second : List (Act S A))

@[simp] theorem Edit.journal_append :
    edits.journal (first ++ second) = edits.journal first ++ edits.journal second :=
  List.filterMap_append

@[simp] theorem Edit.journal_sent (actions : List (Noted A)) :
    edits.journal (actions.map Act.sent : List (Act S A)) =
      (actions.map (Noted.edit edits)).map Act.sent := by
  rw [journal, List.filterMap_map, List.map_map, ← List.filterMap_eq_map]
  rfl

@[simp] theorem sends_edit : sends (edits.journal first) = sends first := by
  rw [sends, Edit.journal, List.filterMap_filterMap, sends]
  congr 1
  funext act
  rcases act with deed | action | reply
  · cases deed with
    | performed effect reply =>
        simp only [Act.edit]
        cases (edits.effect effect : Edited S effect) <;> rfl
    | _ => rfl
  · rfl
  · rfl

theorem Act.edit_eq_answered {act : Act S A} {reply : Except CmdFailure Unit} :
    act.edit edits = some (.answered reply) ↔ act = .answered reply := by
  rcases act with deed | action | found
  · cases deed with
    | performed effect found =>
        simp only [Act.edit]
        cases (edits.effect effect : Edited S effect) <;> simp
    | _ => simp [Act.edit]
  · simp [Act.edit]
  · simp [Act.edit]

@[simp] theorem accepted_edit : Accepted (edits.journal first) ↔ Accepted first := by
  simp only [Accepted, Edit.journal, List.mem_filterMap, Act.edit_eq_answered, exists_eq_right]

end Journals

namespace Prompt.Ends

variable {program : Prompt S Action A α} {image : α → β}

/-- What a program does, the edited program does with what is written edited. -/
theorem edit {journal : List (Act S A)} {value : α} (ends : program.Ends journal value) :
    (program.edit edits image).Ends (edits.journal journal) (image value) := by
  induction ends with
  | done value => exact .done _
  | @call effect next journal value reply _ ih =>
      simp only [Prompt.edit, Edit.journal, List.filterMap_cons, Act.edit]
      cases (edits.effect effect : Edited S effect) with
      | omitted other only =>
          rw [only reply] at ih
          exact ih
      | made other same => exact .call (cast same.symm reply) (by simpa [Edit.journal] using ih)
  | send _ ih => exact .send ih
  | schedule handle _ ih => exact .schedule handle ih
  | spawn _ ih => exact .spawn ih

/-- Whatever an edited program does, the program does before what is written is edited. -/
theorem of_edit {journal : List (Act S A)} {value : β}
    (ends : (program.edit edits image).Ends journal value) :
    ∃ source found, program.Ends source found ∧ edits.journal source = journal ∧
      image found = value := by
  induction program generalizing journal with
  | done found =>
      cases ends
      exact ⟨[], found, .done _, rfl, rfl⟩
  | call effect next ih =>
      simp only [Prompt.edit] at ends
      cases edited : (edits.effect effect : Edited S effect) with
      | omitted reply only =>
          rw [edited] at ends
          obtain ⟨source, found, same, rfl, rfl⟩ := ih reply ends
          refine ⟨_, found, .call reply same, ?_, rfl⟩
          simp [Edit.journal, Act.edit, edited]
      | made other equal =>
          rw [edited] at ends
          cases ends with
          | call reply ends =>
              obtain ⟨source, found, same, rfl, rfl⟩ := ih _ ends
              refine ⟨_, found, .call _ same, ?_, rfl⟩
              simp [Edit.journal, Act.edit, edited]
  | send action keep next ih =>
      cases ends with
      | send ends =>
          obtain ⟨source, found, same, rfl, rfl⟩ := ih ends
          exact ⟨_, found, .send same, rfl, rfl⟩
  | schedule delay repeating task next ih =>
      cases ends with
      | schedule handle ends =>
          obtain ⟨source, found, same, rfl, rfl⟩ := ih handle ends
          exact ⟨_, found, .schedule handle same, rfl, rfl⟩
  | spawn task next ih =>
      cases ends with
      | spawn ends =>
          obtain ⟨source, found, same, rfl, rfl⟩ := ih ends
          exact ⟨_, found, .spawn same, rfl, rfl⟩

end Prompt.Ends

namespace Pending

/-- What a program does, the edited program does with what is written edited. -/
theorem Does.edit {program left : Pending S Action A answer} {journal : List (Act S A)}
    (does : program.Does journal left) :
    (program.edit edits).Does (edits.journal journal) (left.edit edits) := by
  induction does with
  | rest program => exact .rest _
  | @call answer effect next journal left reply _ ih =>
      simp only [Pending.edit, Edit.journal, List.filterMap_cons, Act.edit]
      cases (edits.effect effect : Edited S effect) with
      | omitted other only =>
          rw [only reply] at ih
          exact ih
      | made other same => exact .call (cast same.symm reply) (by simpa [Edit.journal] using ih)
  | send _ ih => exact .send ih
  | schedule handle _ ih => exact .schedule handle ih
  | spawn _ ih => exact .spawn ih
  | wait _ ih => exact .wait ih
  | resumeAt _ ih => exact .resumeAt ih
  | sending =>
      rw [Edit.journal_sent]
      exact .sending
  | sendAll reply _ ih =>
      rw [Edit.journal_append, Edit.journal_sent]
      exact .sendAll reply ih
  | waiting => exact .waiting
  | settled reply _ ih => exact .settled reply ih
  | joining _ interleaves ih => exact .joining ih (interleaves.filterMap _)
  | join _ interleaves _ ends ih =>
      rw [Edit.journal_append]
      exact .join ends (interleaves.filterMap _) ih
  | advancing => exact .advancing
  | advanceTo _ ih => exact .advanceTo ih
  | interval => exact .interval

/-- Whatever an edited program does to its end, the program does before what is written is edited. -/
theorem Completes.of_edit {program : Pending S Action A answer} {journal : List (Act S A)}
    {value : answer.Value Action} (completes : (program.edit edits).Completes journal value) :
    ∃ source, program.Completes source value ∧ edits.journal source = journal := by
  induction program generalizing journal with
  | done found =>
      cases completes
      exact ⟨[], .rest _, rfl⟩
  | call effect next ih =>
      simp only [Pending.edit] at completes
      cases edited : (edits.effect effect : Edited S effect) with
      | omitted reply only =>
          rw [edited] at completes
          obtain ⟨source, same, rfl⟩ := ih reply completes
          refine ⟨_, .call reply same, ?_⟩
          simp [Edit.journal, Act.edit, edited]
      | made other equal =>
          rw [edited] at completes
          cases completes with
          | call reply completes =>
              obtain ⟨source, same, rfl⟩ := ih _ completes
              refine ⟨_, .call _ same, ?_⟩
              simp [Edit.journal, Act.edit, edited]
  | send action keep next ih =>
      cases completes with
      | send completes =>
          obtain ⟨source, same, rfl⟩ := ih completes
          exact ⟨_, .send same, rfl⟩
  | schedule delay repeating task next _ ih =>
      cases completes with
      | schedule handle completes =>
          obtain ⟨source, same, rfl⟩ := ih handle completes
          exact ⟨_, .schedule handle same, rfl⟩
  | spawn task next _ ih =>
      cases completes with
      | spawn completes =>
          obtain ⟨source, same, rfl⟩ := ih completes
          exact ⟨_, .spawn same, rfl⟩
  | wait gate next ih =>
      cases completes with
      | wait completes =>
          obtain ⟨source, same, rfl⟩ := ih completes
          exact ⟨_, .wait same, rfl⟩
  | resumeAt moment next ih =>
      cases completes with
      | resumeAt completes =>
          obtain ⟨source, same, rfl⟩ := ih completes
          exact ⟨_, .resumeAt same, rfl⟩
  | sendAll actions next ih =>
      cases completes with
      | sendAll reply completes =>
          obtain ⟨source, same, rfl⟩ := ih reply completes
          refine ⟨_, .sendAll reply same, ?_⟩
          rw [Edit.journal_append, Edit.journal_sent]
          rfl
  | settling ticket caused next _ ih =>
      cases completes with
      | settled reply completes =>
          obtain ⟨source, same, rfl⟩ := ih reply completes
          exact ⟨_, .settled reply same, rfl⟩
  | join ticket children next childrenIH ih =>
      cases completes with
      | join ends interleaves completes =>
          choose sources sourceEnds sourceSame using fun index => childrenIH index (ends index)
          obtain ⟨together, joined, rfl⟩ :=
            Interleaves.exists_of_filterMap (Act.edit edits) (funext sourceSame ▸ interleaves)
          obtain ⟨source, same, rfl⟩ := ih _ completes
          exact ⟨_, .join sourceEnds joined same, List.filterMap_append⟩
  | advanceTo target ticket driven next _ ih =>
      cases completes with
      | advanceTo completes =>
          obtain ⟨source, same, rfl⟩ := ih completes
          exact ⟨_, .advanceTo same, rfl⟩
  | interval handle period due task running _ _ => cases completes

end Pending

/-! ## Terms -/

section Terms

variable {edits} {sends endless : Prop} {reply : Except CmdFailure Unit → Prop}

/-- What an edited program may do and rely on, the program may. -/
theorem Pending.Meets.of_edit {program : Pending S Action A answer} {post : answer.Value Action → Prop}
    (meets : (program.edit edits).Meets (.fresh sends endless reply) post) :
    program.Meets (.fresh sends endless reply) post := by
  induction program generalizing sends endless reply with
  | done value => exact meets
  | call effect next ih =>
      simp only [Pending.edit] at meets
      intro found
      cases edited : (edits.effect effect : Edited S effect) with
      | omitted other only =>
          rw [edited] at meets
          exact only found ▸ ih other meets
      | made other same =>
          rw [edited] at meets
          have answered := ih _ (meets (cast same.symm found))
          rwa [cast_cast, cast_eq] at answered
  | send action keep next ih => exact ⟨meets.1, ih meets.2⟩
  | schedule delay repeating task next taskIH ih =>
      exact ⟨taskIH meets.1, fun handle => ih handle (meets.2 handle)⟩
  | spawn task next taskIH ih => exact ⟨taskIH meets.1, ih meets.2⟩
  | wait gate next ih => exact ih meets
  | resumeAt moment next ih => exact ih meets
  | sendAll actions next ih =>
      exact ⟨meets.1, fun found expected => ih found (meets.2 found expected)⟩
  | settling ticket caused next _ ih =>
      exact ⟨⟨meets.1.1, fun index => (meets.1.2 index).elim⟩, fun found expected =>
        ih found (meets.2 found expected)⟩
  | join ticket children next childrenIH ih =>
      obtain ⟨posts, childrenMeet, nextMeets⟩ := meets
      exact ⟨posts, fun index => childrenIH index (childrenMeet index),
        fun values hold => ih values (nextMeets values hold)⟩
  | advanceTo target ticket driven next _ ih => exact ih meets
  | interval handle period due task running _ _ => exact meets

theorem Prompt.Meets.of_edit {program : Prompt S Action A α} {image : α → β} {post : β → Prop}
    (meets : (program.edit edits image).Meets (.fresh sends endless reply) post) :
    program.Meets (.fresh sends endless reply) fun value => post (image value) := by
  induction program with
  | done value => exact meets
  | call effect next ih =>
      simp only [Prompt.edit] at meets
      intro found
      cases edited : (edits.effect effect : Edited S effect) with
      | omitted other only =>
          rw [edited] at meets
          exact only found ▸ ih other meets
      | made other same =>
          rw [edited] at meets
          have answered := ih _ (meets (cast same.symm found))
          rwa [cast_cast, cast_eq] at answered
  | send action keep next ih => exact ⟨meets.1, ih meets.2⟩
  | schedule delay repeating task next ih =>
      exact ⟨meets.1.of_edit, fun handle => ih handle (meets.2 handle)⟩
  | spawn task next ih => exact ⟨meets.1.of_edit, ih meets.2⟩

end Terms

end EffectLoop
