import EffectLoop.Command.Execute

/-!
# Laws of tagging

Tagging what a program sends commutes with sequencing, and tagging twice is tagging once with both
taggers in a row.  Both laws hold for programs as trees, so they hold whatever the replies are and
however the program is driven.
-/

namespace EffectLoop

variable {S ι : Type} {Action : ι → Type} {A B C α β : Type} {answer other : Answer ι}
variable {alphabet child grandchild : ι}

namespace Pending

theorem retag_retag (inner : A → Noted B) (outer : B → Noted C)
    (program : Pending S Action A answer) :
    (program.retag inner).retag outer = program.retag fun action => inner action >>= outer := by
  induction program with
  | done value => rfl
  | call effect next ih => simp only [retag, ih]
  | send action keep next ih => simp only [retag, ih, LawfulMonad.bind_assoc]
  | schedule delay repeating task next taskIH ih => simp only [retag, taskIH, ih]
  | spawn task next taskIH ih => simp only [retag, taskIH, ih]
  | wait gate next ih => simp only [retag, ih]
  | resumeAt moment next ih => simp only [retag, ih]
  | sendAll actions next ih =>
      simp only [retag, ih, List.map_map, Function.comp_def, LawfulMonad.bind_assoc]
  | settling ticket caused next causedIH ih => simp only [retag, causedIH, ih]
  | join ticket children next childrenIH ih => simp only [retag, childrenIH, ih]
  | advanceTo target ticket driven next drivenIH ih => simp only [retag, drivenIH, ih]
  | interval handle period due task running taskIH runningIH =>
      simp only [retag, taskIH, runningIH]

theorem retag_bind (tagger : A → Noted B) (first : Pending S Action A answer)
    (after : answer.Value Action → Pending S Action A other) :
    (first.bind after).retag tagger =
      (first.retag tagger).bind fun value => (after value).retag tagger := by
  induction first with
  | done value => rfl
  | call effect next ih => simp only [retag, bind, ih]
  | send action keep next ih => simp only [retag, bind, ih]
  | schedule delay repeating task next _ ih => simp only [retag, bind, ih]
  | spawn task next _ ih => simp only [retag, bind, ih]
  | wait gate next ih => simp only [retag, bind, ih]
  | resumeAt moment next ih => simp only [retag, bind, ih]
  | sendAll actions next ih => simp only [retag, bind, ih]
  | settling ticket caused next _ ih => simp only [retag, bind, ih]
  | join ticket children next _ ih => simp only [retag, bind, ih]
  | advanceTo target ticket driven next _ ih => simp only [retag, bind, ih]
  | interval handle period due task running _ _ => rfl

theorem retag_withNoted (tagger : A → Noted B) (found : Noted α)
    (next : α → Pending S Action A answer) :
    (withNoted found next).retag tagger = withNoted found fun value => (next value).retag tagger := by
  rw [withNoted, withNoted, noting, noting]
  induction found.notes with
  | nil => rfl
  | cons value rest ih => simp only [List.foldr_cons, retag, ih]

/-- A tagger that leaves no notes adds nothing to a program that only computes. -/
theorem withNoted_mapM_pure (image : α → β) (values : List α)
    (next : List β → Pending S Action A answer) :
    withNoted (values.mapM fun value => (pure (image value) : Noted β)) next =
      next (values.map image) := by
  rw [List.mapM_pure]
  rfl

end Pending

namespace Prompt

theorem retag_retag (inner : A → Noted B) (outer : B → Noted C) (program : Prompt S Action A α) :
    (program.retag inner).retag outer = program.retag fun action => inner action >>= outer := by
  induction program with
  | done value => rfl
  | call effect next ih => simp only [retag, ih]
  | send action keep next ih => simp only [retag, ih, LawfulMonad.bind_assoc]
  | schedule delay repeating task next ih => simp only [retag, Pending.retag_retag, ih]
  | spawn task next ih => simp only [retag, Pending.retag_retag, ih]

theorem retag_bind (tagger : A → Noted B) (first : Prompt S Action A α)
    (after : α → Prompt S Action A β) :
    (first >>= after).retag tagger =
      first.retag tagger >>= fun value => (after value).retag tagger := by
  change (first.bind after).retag tagger =
    (first.retag tagger).bind fun value => (after value).retag tagger
  induction first with
  | done value => rfl
  | call effect next ih => simp only [retag, bind, ih]
  | send action keep next ih => simp only [retag, bind, ih]
  | schedule delay repeating task next ih => simp only [retag, bind, ih]
  | spawn task next ih => simp only [retag, bind, ih]

theorem retag_map (tagger : A → Noted B) (image : α → β) (program : Prompt S Action A α) :
    (image <$> program).retag tagger = image <$> program.retag tagger := by
  rw [map_eq_pure_bind, retag_bind, map_eq_pure_bind]
  rfl

theorem retag_mapM (tagger : A → Noted B) (programs : List (Prompt S Action A α)) :
    (programs.mapM id).retag tagger = (programs.map (·.retag tagger)).mapM id := by
  induction programs with
  | nil => rfl
  | cons program rest ih =>
      simp only [List.mapM_cons, List.map_cons, retag_bind, ih, id]
      rfl

theorem retag_thenPending (tagger : A → Noted B) (first : Prompt S Action A α)
    (after : α → Pending S Action A answer) :
    (first.thenPending after).retag tagger =
      (first.retag tagger).thenPending fun value => (after value).retag tagger := by
  induction first with
  | done value => rfl
  | call effect next ih => simp only [thenPending, retag, Pending.retag, ih]
  | send action keep next ih => simp only [thenPending, retag, Pending.retag, ih]
  | schedule delay repeating task next ih => simp only [thenPending, retag, Pending.retag, ih]
  | spawn task next ih => simp only [thenPending, retag, Pending.retag, ih]

theorem bind_thenPending (first : Prompt S Action A α)
    (after : α → Pending S Action A answer)
    (last : answer.Value Action → Pending S Action A other) :
    (first.thenPending after).bind last = first.thenPending fun value => (after value).bind last := by
  induction first with
  | done value => rfl
  | call effect next ih => simp only [thenPending, Pending.bind, ih]
  | send action keep next ih => simp only [thenPending, Pending.bind, ih]
  | schedule delay repeating task next ih => simp only [thenPending, Pending.bind, ih]
  | spawn task next ih => simp only [thenPending, Pending.bind, ih]

theorem map_thenPending (image : α → β) (first : Prompt S Action A α)
    (after : β → Pending S Action A answer) :
    (image <$> first).thenPending after = first.thenPending fun value => after (image value) := by
  rw [map_eq_pure_bind]
  change (first.bind _).thenPending after = _
  induction first with
  | done value => rfl
  | call effect next ih => simp only [bind, thenPending, ih]
  | send action keep next ih => simp only [bind, thenPending, ih]
  | schedule delay repeating task next ih => simp only [bind, thenPending, ih]
  | spawn task next ih => simp only [bind, thenPending, ih]

theorem ofNoted_map (image : α → β) (found : Noted α) :
    (ofNoted (image <$> found) : Prompt S Action A β) = image <$> ofNoted found := by
  rw [map_eq_pure_bind, map_eq_pure_bind]
  change _ = (ofNoted found : Prompt S Action A α).bind _
  simp only [ofNoted, Noted.bind_notes, Noted.bind_value, Noted.pure_notes, Noted.pure_value,
    List.append_nil]
  induction found.notes with
  | nil => rfl
  | cons value rest ih => simp only [List.foldr_cons, bind, ih]

theorem retag_ofNoted (tagger : A → Noted B) (found : Noted α) :
    (ofNoted found : Prompt S Action A α).retag tagger = ofNoted found := by
  simp only [ofNoted]
  induction found.notes with
  | nil => rfl
  | cons value rest ih =>
      simp only [List.foldr_cons, retag, ih]

end Prompt

end EffectLoop
