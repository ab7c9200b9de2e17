import EffectLoop.Proofs.Program.History
import EffectLoop.Proofs.Program.Rules

/-!
# Announcing calls

A RUN function that is called leaves no trace of its own.  To see the calls, let each function first
announce where it stands (`Site`), by a note that is written like no other: all other notes are quoted
(`Pending.quote`), so that none of them can be taken for an announcement.
-/

namespace EffectLoop

variable {S ι : Type} {Action : ι → Type} {A B α β : Type} {answer : Answer ι}

/-- The place of a command in a list around it. -/
structure Place where
  sequential : Bool
  index : Nat
  deriving DecidableEq

namespace Place

def encode (place : Place) : Json := .array [.bool place.sequential, .ofNat place.index]

def decode? : Json → Option Place
  | .array [.bool sequential, .number (.int index)] => some ⟨sequential, index.toNat⟩
  | _ => none

theorem decode?_encode (place : Place) : decode? place.encode = some place := rfl

end Place

/-- Where a RUN stands in a command: its places in the lists around it, the outermost list first. -/
abbrev Site := List Place

namespace Site

/-- The note that announces a call. -/
def announcement (site : Site) : Json := .array (site.map Place.encode)

/-- The calls that a note announces, at most one. -/
def announced : Json → List Site
  | .array places => [places.filterMap Place.decode?]
  | _ => []

theorem announced_announcement (site : Site) : announced site.announcement = [site] := by
  simp [announced, announcement, List.filterMap_map, Function.comp_def, Place.decode?_encode]

/-- Is the RUN the first in every sequential list around it, so that nothing has to be over before it
can be called? -/
def isPrompt (site : Site) : Bool := site.all fun place => !place.sequential || place.index == 0

end Site

/-- The calls that an effect announces, at most one. -/
def Primitive.calls : Primitive → List Site
  | .note value => Site.announced value
  | _ => []

/-- The calls that an entry of a journal announces, at most one. -/
def Act.calls : Act S A → List Site
  | .did (.performed effect _) => effect.calls
  | _ => []

/-- The calls that a journal announces, in order. -/
def calls (journal : List (Act S A)) : List Site := journal.flatMap Act.calls

section Journals

variable (first second : List (Act S A))

@[simp] theorem calls_nil : calls ([] : List (Act S A)) = [] := rfl

@[simp] theorem calls_append : calls (first ++ second) = calls first ++ calls second :=
  List.flatMap_append

@[simp] theorem calls_cons (act : Act S A) : calls (act :: second) = act.calls ++ calls second :=
  List.flatMap_cons

@[simp] theorem calls_sent (actions : List (Noted A)) :
    calls (actions.map Act.sent : List (Act S A)) = [] := by
  simp [calls, List.flatMap_map, Act.calls]

theorem calls_retag (tagger : A → Noted B) : calls (first.map (Act.retag tagger)) = calls first := by
  have same (act : Act S A) : (act.retag tagger).calls = act.calls := by
    cases act with
    | did deed => cases deed <;> rfl
    | sent | answered => rfl
  simp only [calls, List.flatMap_map, same]

end Journals

theorem Interleaves.calls_eq_sum {count : Nat} {parts : Fin count → List (Act S A)}
    {whole : List (Act S A)} (interleaves : Interleaves parts whole) :
    (calls whole : Multiset Site) = ∑ index, (calls (parts index) : Multiset Site) := by
  have each : calls (List.ofFn parts).flatten = (List.ofFn fun index => calls (parts index)).flatten := by
    simp only [calls, List.flatMap_def, List.map_flatten, List.flatten_flatten,
      List.map_ofFn]
    rfl
  rw [← coe_flatten_ofFn, ← each]
  exact Multiset.coe_eq_coe.2 (interleaves.perm.flatMap_right _)

/-! ## Quoted notes -/

namespace Rules

/-- Anything but announcing a call. -/
def unannounced : Rules := ⟨fun effect => effect.calls = [], True, True⟩

end Rules

/-- A note as it is written by anything but an announcement. -/
def quoteNote (value : Json) : Json := .object [("note", value)]

def Primitive.quote : Primitive → Primitive
  | .note value => .note (quoteNote value)
  | effect => effect

theorem Primitive.reply_quote (effect : Primitive) : effect.quote.Reply S = effect.Reply S := by
  cases effect <;> rfl

@[simp] theorem Primitive.calls_quote (effect : Primitive) : effect.quote.calls = [] := by
  cases effect <;> rfl

namespace Noted

/-- No note announces a call. -/
def Unannounced (found : Noted α) : Prop := ∀ note ∈ found.notes, Site.announced note = []

/-- The value with its notes quoted. -/
def quote (found : Noted α) : Noted α := ⟨found.notes.map quoteNote, found.value⟩

theorem unannounced_quote (found : Noted α) : found.quote.Unannounced := by
  intro note within
  rcases List.mem_map.1 within with ⟨value, -, rfl⟩
  rfl

theorem Unannounced.map {found : Noted α} (unannounced : found.Unannounced) (image : α → β) :
    (image <$> found).Unannounced := by
  intro note within
  exact unannounced note (by simpa [Functor.map] using within)

theorem unannounced_mapM {each : α → Noted β} (unannounced : ∀ value, (each value).Unannounced)
    (values : List α) : (values.mapM each).Unannounced := by
  intro note within
  obtain ⟨value, -, noted⟩ := exists_of_mem_mapM within
  exact unannounced value note noted

end Noted

namespace Pending

/-- The computation with its notes quoted. -/
def quote : {answer : Answer ι} → Pending S Action A answer → Pending S Action A answer
  | _, .done value => .done value
  | _, .call effect next =>
      .call effect.quote fun reply => (next (cast effect.reply_quote reply)).quote
  | _, .send action keep next => .send action.quote keep next.quote
  | _, .schedule delay repeating task next =>
      .schedule delay repeating task.quote fun handle => (next handle).quote
  | _, .spawn task next => .spawn task.quote next.quote
  | _, .wait gate next => .wait gate next.quote
  | _, .resumeAt moment next => .resumeAt moment next.quote
  | _, .sendAll actions next => .sendAll (actions.map Noted.quote) fun reply => (next reply).quote
  | _, .settling ticket caused next =>
      .settling ticket (fun index => (caused index).quote) fun reply => (next reply).quote
  | _, .join ticket children next =>
      .join ticket (fun index => (children index).quote) fun values => (next values).quote
  | _, .advanceTo target ticket driven next =>
      .advanceTo target ticket (fun index => (driven index).quote) next.quote
  | _, .interval handle period due task running =>
      .interval handle period due task.quote fun index => (running index).quote

theorem within_quote (program : Pending S Action A answer) : program.quote.Within .unannounced := by
  induction program with
  | done value => exact trivial
  | call effect next ih => exact ⟨effect.calls_quote, fun reply => ih _⟩
  | send action keep next ih => exact ih
  | schedule delay repeating task next taskIH ih => exact ⟨taskIH, ih⟩
  | spawn task next taskIH ih => exact ⟨taskIH, ih⟩
  | wait gate next ih => exact ih
  | resumeAt moment next ih => exact ih
  | sendAll actions next ih => exact ih
  | settling ticket caused next causedIH ih => exact ⟨causedIH, ih⟩
  | join ticket children next childrenIH ih => exact ⟨childrenIH, ih⟩
  | advanceTo target ticket driven next drivenIH ih => exact ⟨trivial, drivenIH, ih⟩
  | interval handle period due task running taskIH runningIH => exact ⟨trivial, taskIH, runningIH⟩

end Pending

namespace Prompt

/-- The computation with its notes quoted; `image` is what becomes of the result. -/
def quote (image : α → β) : Prompt S Action A α → Prompt S Action A β
  | .done value => .done (image value)
  | .call effect next =>
      .call effect.quote fun reply => (next (cast effect.reply_quote reply)).quote image
  | .send action keep next => .send action.quote keep (next.quote image)
  | .schedule delay repeating task next =>
      .schedule delay repeating task.quote fun handle => (next handle).quote image
  | .spawn task next => .spawn task.quote (next.quote image)

theorem within_quote {image : α → β} {post : β → Prop} (holds : ∀ value, post (image value))
    (program : Prompt S Action A α) : (program.quote image).Within .unannounced post := by
  induction program with
  | done value => exact holds value
  | call effect next ih => exact ⟨effect.calls_quote, fun reply => ih _⟩
  | send action keep next ih => exact ih
  | schedule delay repeating task next ih => exact ⟨task.within_quote, ih⟩
  | spawn task next ih => exact ⟨task.within_quote, ih⟩

end Prompt

end EffectLoop
