import EffectLoop.Proofs.Program.Announcements
import EffectLoop.Proofs.Program.Editing
import EffectLoop.Simulation.Tree

/-!
# Attesting outcomes

What a RUN came to cannot be told from what was done: two RUNs may do the same.  To see whose outcome it
is, let each RUN attest its outcome under its site, by a note that is written like no other: as with
announcements, all other notes are quoted.

`Edit.plain` leaves the attestations out and takes the quotes away.
-/

namespace EffectLoop

variable {S ι : Type} {Action : ι → Type} {A B α β : Type} {answer : Answer ι}

namespace Site

/-- The note by which a RUN attests its outcome. -/
def attestation (site : Site) (result : Json) (success : Bool) : Json :=
  .array [site.announcement, result, .bool success]

/-- The notes by which a RUN attests its outcome.  A failure that no simulation can express is not
attested. -/
def attest (site : Site) : Except RunFailure Json → List Json
  | .ok value => [site.attestation value true]
  | .error (.failed payload) => [site.attestation payload false]
  | .error (.message _) => []

/-- The outcome that a note attests, with the site of the RUN that came to it. -/
def attested : Json → List (Site × Simulation)
  | .array [.array places, result, .bool success] =>
      [(places.filterMap Place.decode?, .run result success)]
  | _ => []

theorem attested_attestation (site : Site) (result : Json) (success : Bool) :
    attested (site.attestation result success) = [(site, .run result success)] := by
  simp [attested, attestation, announcement, List.filterMap_map, Function.comp_def,
    Place.decode?_encode]

theorem attested_quoteNote (value : Json) : attested (quoteNote value) = [] := rfl

end Site

/-- The outcomes that a deed attests, at most one. -/
def Deed.attestations : Deed S → List (Site × Simulation)
  | .performed (.note value) _ => Site.attested value
  | _ => []

/-- The outcomes that a journal attests, in order. -/
def attestations (journal : List (Act S A)) : List (Site × Simulation) :=
  (deeds journal).flatMap Deed.attestations

section Journals

variable (first second : List (Act S A))

@[simp] theorem attestations_append :
    attestations (first ++ second) = attestations first ++ attestations second := by
  rw [attestations, deeds_append, List.flatMap_append, attestations, attestations]

theorem attestations_retag (tagger : A → Noted B) :
    attestations (first.map (Act.retag tagger)) = attestations first := by
  rw [attestations, deeds_retag, attestations]

@[simp] theorem attestations_notes (values : List Json) :
    attestations (Act.notes values : List (Act S A)) = values.flatMap Site.attested := by
  induction values with
  | nil => rfl
  | cons value rest ih =>
      rw [List.flatMap_cons, ← ih]
      rfl

end Journals

/-! ## Quoting, and taking the quotes away -/

/-- The note that was quoted. -/
def unquoteNote? : Json → Option Json
  | .object [(_, value)] => some value
  | _ => none

namespace Edit

/-- All notes are quoted. -/
def quoting : Edit := ⟨fun value => some (quoteNote value), fun _ => false⟩

/-- Quoted notes are as they were before, and what is not quoted is left out. -/
def plain : Edit := ⟨unquoteNote?, fun _ => false⟩

/-- A note is quoted, and nothing else is changed. -/
theorem effect_quoting (effect : Primitive) :
    (quoting.effect effect : Edited S effect) = .made effect.quote effect.reply_quote := by
  cases effect <;> rfl

theorem effect_plain_quote (effect : Primitive) :
    (plain.effect effect.quote : Edited S effect.quote) = .made effect effect.reply_quote.symm := by
  cases effect <;> rfl

/-- What is quoted attests nothing. -/
@[simp] theorem attestations_quoting (journal : List (Act S A)) : attestations (quoting.journal journal) = [] := by
  induction journal with
  | nil => rfl
  | cons act rest ih =>
      rw [Edit.journal, List.filterMap_cons]
      rcases act with deed | action | reply
      · cases deed with
        | performed effect reply =>
            cases effect <;> exact ih
        | _ => exact ih
      · exact ih
      · exact ih

end Edit

theorem Noted.plain_quoting (found : Noted α) : (found.edit .quoting).edit .plain = found := by
  have same (value : Json) : unquoteNote? (quoteNote value) = some value := rfl
  ext1
  · simp [edit, Edit.quoting, Edit.plain, same]
  · rfl

/-- Taking the quotes away undoes the quoting. -/
theorem Pending.plain_quoting (program : Pending S Action A answer) :
    (program.edit .quoting).edit .plain = program := by
  induction program with
  | done value => rfl
  | call effect next ih =>
      simp only [edit, Edit.effect_quoting, Edit.effect_plain_quote, ih, cast_cast, cast_eq]
  | send action keep next ih => simp only [edit, Noted.plain_quoting, ih]
  | schedule delay repeating task next taskIH ih => simp only [edit, taskIH, ih]
  | spawn task next taskIH ih => simp only [edit, taskIH, ih]
  | wait gate next ih => simp only [edit, ih]
  | resumeAt moment next ih => simp only [edit, ih]
  | sendAll actions next ih =>
      simp only [edit, List.map_map, Function.comp_def, Noted.plain_quoting, List.map_id', ih]
  | settling ticket caused next causedIH ih => simp only [edit, causedIH, ih]
  | join ticket children next childrenIH ih => simp only [edit, childrenIH, ih]
  | advanceTo target ticket driven next drivenIH ih => simp only [edit, drivenIH, ih]
  | interval handle period due task running taskIH runningIH => simp only [edit, taskIH, runningIH]

theorem Prompt.plain_quoting {image : α → β} {last : β → α} (same : ∀ value, last (image value) = value)
    (program : Prompt S Action A α) : (program.edit .quoting image).edit .plain last = program := by
  induction program with
  | done value => exact congrArg done (same value)
  | call effect next ih =>
      simp only [edit, Edit.effect_quoting, Edit.effect_plain_quote, ih, cast_cast, cast_eq]
  | send action keep next ih => simp only [edit, Noted.plain_quoting, ih]
  | schedule delay repeating task next ih => simp only [edit, Pending.plain_quoting, ih]
  | spawn task next ih => simp only [edit, Pending.plain_quoting, ih]

/-- The notes that attest an outcome are not quoted. -/
theorem Site.plain_attest (site : Site) (outcome : Except RunFailure Json) :
    (site.attest outcome).filterMap unquoteNote? = [] := by
  rcases outcome with cause | value
  · cases cause <;> rfl
  · rfl

end EffectLoop
