import EffectLoop.Json.Basic

/-!
# Noted values

Creators, taggers and reducers are functions, but computing them may leave notes behind.  A noted
value is the value together with those notes, in order; a pure function leaves none.
-/

namespace EffectLoop

universe u

/-- A value and the notes left while computing it. -/
structure Noted (α : Type u) where
  notes : List Json
  value : α

namespace Noted

variable {α β : Type u}

@[ext] theorem ext {left right : Noted α} (notes : left.notes = right.notes)
    (value : left.value = right.value) : left = right := by
  cases left
  cases right
  cases notes
  cases value
  rfl

instance : Monad Noted where
  pure value := ⟨[], value⟩
  bind first next :=
    let second := next first.value
    ⟨first.notes ++ second.notes, second.value⟩

@[simp] theorem pure_notes (value : α) : (pure value : Noted α).notes = [] := rfl

@[simp] theorem pure_value (value : α) : (pure value : Noted α).value = value := rfl

@[simp] theorem bind_notes (first : Noted α) (next : α → Noted β) :
    (first >>= next).notes = first.notes ++ (next first.value).notes := rfl

@[simp] theorem bind_value (first : Noted α) (next : α → Noted β) :
    (first >>= next).value = (next first.value).value := rfl

theorem id_map (found : Noted α) : id <$> found = found := by
  ext1
  · simp [Functor.map]
  · rfl

theorem bind_assoc {γ : Type u} (found : Noted α) (first : α → Noted β) (second : β → Noted γ) :
    found >>= first >>= second = found >>= fun value => first value >>= second := by
  ext1
  · simp
  · rfl

instance : LawfulMonad Noted :=
  LawfulMonad.mk' _ id_map (fun _ _ => by ext1 <;> simp) bind_assoc

@[simp] theorem map_value (image : α → β) (found : Noted α) :
    (image <$> found).value = image found.value := rfl

@[simp] theorem mapM_value (each : α → Noted β) (values : List α) :
    (values.mapM each).value = values.map fun value => (each value).value := by
  induction values with
  | nil => rfl
  | cons value rest ih =>
      rw [List.mapM_cons, List.map_cons, ← ih]
      rfl

/-- Whatever is noted while computing several values is noted while computing one of them. -/
theorem exists_of_mem_mapM {each : α → Noted β} {values : List α} {note : Json}
    (noted : note ∈ (values.mapM each).notes) : ∃ value ∈ values, note ∈ (each value).notes := by
  induction values with
  | nil => cases noted
  | cons first rest ih =>
      rw [List.mapM_cons] at noted
      simp only [bind_notes, pure_notes, List.append_nil, List.mem_append] at noted
      rcases noted with noted | noted
      · exact ⟨first, List.mem_cons_self, noted⟩
      · rcases ih noted with ⟨value, within, noted⟩
        exact ⟨value, List.mem_cons_of_mem first within, noted⟩

/-- Leave one note. -/
def note (value : Json) : Noted PUnit.{u+1} := ⟨[value], ⟨⟩⟩

end Noted

end EffectLoop
