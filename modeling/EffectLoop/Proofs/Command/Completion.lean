import EffectLoop.Command.Execute
import EffectLoop.Proofs.Command.Fusion
import EffectLoop.Proofs.Program.Terms

/-!
# What becomes of a started command

Starting a command has a part in the call and, if something is pending, a part that follows.
`Start.Yields` takes the two together: a journal of the whole, and the result.  The lists of commands
are then described by their commands: which journals make up the journal of the list, what the list
dispatches on its own account, and what it produces.
-/

namespace EffectLoop

variable {S ι : Type} {Action : ι → Type} {A : Type} {alphabet child : ι}

/-- The follow-up actions of a command, or its failure. -/
abbrev Produced (Action : ι → Type) (alphabet : ι) := Except CmdFailure (List (Action alphabet))

namespace FollowUp

variable {journal : List (Act S A)} {result : Produced Action alphabet}

theorem completes_now_iff {actions : List (Action alphabet)} :
    Pending.Completes (now actions : FollowUp S Action A alphabet) journal result ↔
      journal = [] ∧ result = .ok actions :=
  Pending.Completes.done_iff

theorem completes_failed_iff {cause : CmdFailure} :
    Pending.Completes (failed cause : FollowUp S Action A alphabet) journal result ↔
      journal = [] ∧ result = .error cause :=
  Pending.Completes.done_iff

/-- Going on with the actions: either there is a failure, or what comes after completes. -/
theorem of_completes_andThen {first : FollowUp S Action A child}
    {after : List (Action child) → FollowUp S Action A alphabet}
    (completes : Pending.Completes (first.andThen after) journal result) :
    (∃ cause, first.Completes journal (.error cause) ∧ result = .error cause) ∨
      ∃ earlier actions later, first.Completes earlier (.ok actions) ∧
        (after actions).Completes later result ∧ journal = earlier ++ later := by
  rcases Pending.Completes.of_bind completes with ⟨earlier, found, later, ends, after, rfl⟩
  cases found with
  | error cause =>
      have failed := completes_failed_iff.1 after
      rw [failed.1, List.append_nil]
      exact .inl ⟨cause, ends, failed.2⟩
  | ok actions => exact .inr ⟨earlier, actions, later, ends, after, rfl⟩

end FollowUp

/-- The journal of a started command and its result: it fails in the call, it produces nothing, or
it is pending and what follows completes. -/
inductive Start.Yields (start : Start S Action alphabet) :
    List (Act S (Action alphabet)) → Produced Action alphabet → Prop where
  | failed {opening cause} : start.Ends opening (.error cause) → Yields start opening (.error cause)
  | nothing {opening} : start.Ends opening (.ok none) → Yields start opening (.ok [])
  | pending {opening follow journal result} : start.Ends opening (.ok (some follow)) →
      follow.Completes journal result → Yields start (opening ++ journal) result

/-- As long as everything that it sends comes to a good end, the command does not fail. -/
def Start.Succeeds (start : Start S Action alphabet) : Prop :=
  ∀ journal result, Start.Yields start journal result → Accepted journal →
    ∃ actions, result = .ok actions

/-! ## Tagged commands -/

section Tagged

variable {tagger : Action child → Noted (Action alphabet)}
variable {journal : List (Act S (Action alphabet))} {result : Produced Action alphabet}

theorem FollowUp.of_completes_tagged {first : FollowUp S Action (Action child) child}
    (completes : Pending.Completes (first.tagged tagger) journal result) :
    ∃ source found notes, first.Completes source found ∧
      journal = source.map (Act.retag tagger) ++ Act.notes notes ∧
      (∀ note ∈ notes, ∃ action, note ∈ (tagger action).notes) ∧
      result = found.map fun actions => actions.map fun action => (tagger action).value := by
  rcases of_completes_andThen completes with
    ⟨cause, ends, rfl⟩ | ⟨earlier, actions, later, ends, after, rfl⟩
  · rcases Pending.Completes.of_retag ends with ⟨source, sourceEnds, rfl⟩
    refine ⟨source, .error cause, [], sourceEnds, ?_, nofun, rfl⟩
    exact (List.append_nil _).symm
  · rcases Pending.Completes.of_retag ends with ⟨source, sourceEnds, rfl⟩
    rcases Pending.Completes.of_withNoted after with ⟨rest, last, rfl⟩
    have now := completes_now_iff.1 last
    refine ⟨source, .ok actions, (actions.mapM tagger).notes, sourceEnds, ?_, ?_, ?_⟩
    · rw [now.1, List.append_nil]
    · intro note noted
      rcases Noted.exists_of_mem_mapM noted with ⟨action, -, noted⟩
      exact ⟨action, noted⟩
    · rw [now.2, Noted.mapM_value]
      rfl

/-- A tagged command does what its child's command does, with everything tagged. -/
theorem Start.Yields.of_map {options : Options} {nested : Cmd S Action child}
    {tagger : List Json → Action child → Noted (Action alphabet)} {args : List Json}
    (yields : Start.Yields ((Cmd.map nested tagger args).execute options) journal result) :
    ∃ source found notes, Start.Yields (nested.execute options) source found ∧
      journal = source.map (Act.retag (tagger args)) ++ Act.notes notes ∧
      (∀ note ∈ notes, ∃ action, note ∈ (tagger args action).notes) ∧
      result = found.map fun actions => actions.map fun action => (tagger args action).value := by
  -- The verdict is the tagged verdict of the child's command.
  have opened {opening verdict} (ends : ((Cmd.map nested tagger args).execute options).Ends opening
      verdict) : ∃ source found, (nested.execute options).Ends source found ∧
        opening = source.map (Act.retag (tagger args)) ∧
        verdict = Verdict.tagged (tagger args) found := by
    rw [Cmd.execute_map, map_eq_pure_bind] at ends
    rcases Prompt.Ends.bind_iff.1 ends with ⟨earlier, found, later, nestedEnds, last, rfl⟩
    rcases Prompt.Ends.of_retag nestedEnds with ⟨source, sourceEnds, rfl⟩
    have closing := Prompt.Ends.pure_iff.1 last
    refine ⟨source, found, sourceEnds, ?_, closing.2⟩
    rw [closing.1, List.append_nil]
  cases yields with
  | failed ends =>
      rcases opened ends with ⟨source, found, nestedEnds, rfl, same⟩
      cases found with
      | error cause =>
          cases same
          refine ⟨source, .error _, [], .failed nestedEnds, ?_, nofun, rfl⟩
          exact (List.append_nil _).symm
      | ok follow => cases follow <;> cases same
  | nothing ends =>
      rcases opened ends with ⟨source, found, nestedEnds, rfl, same⟩
      rcases found with cause | _ | follow
      · cases same
      · refine ⟨source, .ok [], [], .nothing nestedEnds, ?_, nofun, rfl⟩
        exact (List.append_nil _).symm
      · cases same
  | pending ends completes =>
      rcases opened ends with ⟨source, found, nestedEnds, rfl, same⟩
      rcases found with cause | _ | follow
      · cases same
      · cases same
      · cases same
        rcases FollowUp.of_completes_tagged completes with ⟨later, found, notes, ends, rfl, noted, rfl⟩
        refine ⟨source ++ later, found, notes, .pending nestedEnds ends, ?_, noted, rfl⟩
        rw [List.map_append, List.append_assoc]

end Tagged

/-! ## Lists of commands -/

/-- What one command of a list has come to: its journal and the actions that it produced. -/
structure Piece (S A : Type) where
  journal : List (Act S A)
  produced : List A

/-- The actions of a piece that its list dispatches. -/
def Piece.dispatched (batch : Bool) (piece : Piece S A) : List A :=
  if batch then [] else piece.produced

/-- The actions of a piece that its list hands on. -/
def Piece.kept (batch : Bool) (piece : Piece S A) : List A :=
  if batch then piece.produced else []

/-- The command has come to this piece, and all that it sent has come to a good end. -/
structure Start.ComesTo (start : Start S Action alphabet) (piece : Piece S (Action alphabet)) :
    Prop where
  yields : Start.Yields start piece.journal (.ok piece.produced)
  accepted : Accepted piece.journal

/-- The journal of a list consists of the journals of its commands and of what it dispatches; what
is produced is what it keeps. -/
structure Gathers (batch : Bool) (pieces : List (Piece S A)) (journal : List (Act S A))
    (produced : List A) : Prop where
  deeds : (deeds journal).Perm (pieces.flatMap fun piece => deeds piece.journal)
  sends : (sends journal).Perm
    (pieces.flatMap fun piece => sends piece.journal ++ piece.dispatched batch)
  kept : produced = pieces.flatMap (Piece.kept batch)

namespace Gathers

variable {batch : Bool} {pieces : List (Piece S A)} {journal : List (Act S A)} {produced : List A}

theorem nil : Gathers batch ([] : List (Piece S A)) [] [] := ⟨.refl _, .refl _, rfl⟩

/-- One more command in front, with what the list does on its own account. -/
theorem cons {piece : Piece S A} {front : List (Act S A)}
    (gathers : Gathers batch pieces journal produced)
    (frontDeeds : EffectLoop.deeds front = EffectLoop.deeds piece.journal)
    (frontSends : EffectLoop.sends front =
      EffectLoop.sends piece.journal ++ piece.dispatched batch) :
    Gathers batch (piece :: pieces) (front ++ journal) (piece.kept batch ++ produced) := by
  constructor
  · rw [deeds_append, frontDeeds, List.flatMap_cons]
    exact gathers.deeds.append_left _
  · rw [sends_append, frontSends, List.flatMap_cons]
    exact gathers.sends.append_left _
  · rw [gathers.kept, List.flatMap_cons]

/-- The journals of the commands, each with what the list dispatches for it, in any order. -/
theorem of_wholes {wholes : List (List (Act S A))}
    (each : List.Forall₂ (fun piece whole => EffectLoop.deeds whole = EffectLoop.deeds piece.journal ∧
      EffectLoop.sends whole = EffectLoop.sends piece.journal ++ piece.dispatched batch)
      pieces wholes)
    (perm : journal.Perm wholes.flatten) :
    Gathers batch pieces journal (pieces.flatMap (Piece.kept batch)) := by
  have deedsSame : EffectLoop.deeds wholes.flatten =
      pieces.flatMap fun piece => EffectLoop.deeds piece.journal := by
    clear perm
    induction each with
    | nil => rfl
    | cons same _ ih => rw [List.flatten_cons, deeds_append, same.1, ih, List.flatMap_cons]
  have sendsSame : EffectLoop.sends wholes.flatten =
      pieces.flatMap fun piece => EffectLoop.sends piece.journal ++ piece.dispatched batch := by
    clear perm deedsSame
    induction each with
    | nil => rfl
    | cons same _ ih => rw [List.flatten_cons, sends_append, same.2, ih, List.flatMap_cons]
  constructor
  · rw [← deedsSame]
    exact perm.filterMap _
  · rw [← sendsSame]
    exact perm.filterMap _
  · rfl

end Gathers

/-- What starting a command in the call came to. -/
abbrev Opening (S : Type) {ι : Type} (Action : ι → Type) (alphabet : ι) :=
  List (Act S (Action alphabet)) × Verdict S Action (Action alphabet) alphabet

/-- What a pending command came to. -/
abbrev Ending (S : Type) {ι : Type} (Action : ι → Type) (A : Type) (alphabet : ι) :=
  List (Act S A) × Produced Action alphabet

/-- Every command was started. -/
abbrev Start.AllOpened (starts : List (Start S Action alphabet))
    (openings : List (Opening S Action alphabet)) : Prop :=
  List.Forall₂ (fun start opening => start.Ends opening.1 opening.2) starts openings

/-- Every pending command completed. -/
abbrev FollowUp.AllComplete (found : List (FollowUp S Action A alphabet))
    (endings : List (Ending S Action A alphabet)) : Prop :=
  List.Forall₂ (fun sibling ending => sibling.Completes ending.1 ending.2) found endings

section Lists

variable {batch : Bool} {starts : List (Start S Action alphabet)}
variable {openings : List (Opening S Action alphabet)}

/-- What a list does with a pending command: it waits for it and dispatches its actions, or keeps
them. -/
theorem Start.ComesTo.of_sibling {start : Start S Action alphabet}
    {opening journal : List (Act S (Action alphabet))}
    {follow : FollowUp S Action (Action alphabet) alphabet} {result : Produced Action alphabet}
    (succeeds : Start.Succeeds start) (ends : start.Ends opening (.ok (some follow)))
    (openingAccepted : Accepted opening)
    (completes : Pending.Completes (if batch then follow else follow.dispatched) journal result)
    (accepted : Accepted journal) :
    ∃ piece, Start.ComesTo start piece ∧ deeds (opening ++ journal) = deeds piece.journal ∧
      sends (opening ++ journal) = sends piece.journal ++ piece.dispatched batch ∧
      result = .ok (piece.kept batch) := by
  cases batch with
  | true =>
      have yields : Start.Yields start (opening ++ journal) result := .pending ends completes
      have all := (accepted_append _ _).2 ⟨openingAccepted, accepted⟩
      rcases succeeds _ _ yields all with ⟨actions, rfl⟩
      exact ⟨⟨opening ++ journal, actions⟩, ⟨yields, all⟩, rfl, (List.append_nil _).symm, rfl⟩
  | false =>
      rcases FollowUp.of_completes_andThen completes with
        ⟨cause, followEnds, rfl⟩ | ⟨earlier, actions, later, followEnds, after, rfl⟩
      · have all := (accepted_append _ _).2 ⟨openingAccepted, accepted⟩
        rcases succeeds _ _ (.pending ends followEnds) all with ⟨actions, same⟩
        cases same
      · have both := (accepted_append _ _).1 accepted
        rcases Pending.Completes.of_dispatch after both.2 with ⟨rest, last, -, rfl⟩
        have now := FollowUp.completes_now_iff.1 last
        have all := (accepted_append _ _).2 ⟨openingAccepted, both.1⟩
        refine ⟨⟨opening ++ earlier, actions⟩, ⟨.pending ends followEnds, all⟩, ?_, ?_, now.2⟩
        · simp [now.1]
        · simp [now.1, Piece.dispatched]

/-- The commands of a parallel list, started and completed, with their pieces and with what each of
them and the list on its behalf did.  A command that has nothing pending is done in the call. -/
inductive Matched (batch : Bool) : List (Opening S Action alphabet) →
    List (Ending S Action (Action alphabet) alphabet) → List (Piece S (Action alphabet)) →
    List (List (Act S (Action alphabet))) → Prop where
  | nil : Matched batch [] [] [] []
  | nothing {openings endings pieces wholes} (opening : List (Act S (Action alphabet))) :
      Matched batch openings endings pieces wholes →
      Matched batch ((opening, .ok none) :: openings) endings (⟨opening, []⟩ :: pieces)
        (opening :: wholes)
  | pending {openings endings pieces wholes opening follow journal piece} :
      deeds (opening ++ journal) = deeds piece.journal →
      sends (opening ++ journal) = sends piece.journal ++ piece.dispatched batch →
      Matched batch openings endings pieces wholes →
      Matched batch ((opening, .ok (some follow)) :: openings)
        ((journal, .ok (piece.kept batch)) :: endings) (piece :: pieces)
        ((opening ++ journal) :: wholes)

namespace Matched

variable {endings : List (Ending S Action (Action alphabet) alphabet)}
variable {pieces : List (Piece S (Action alphabet))} {wholes : List (List (Act S (Action alphabet)))}

/-- When all commands of a parallel list were started and all that is pending has completed, each of
them has come to a piece. -/
theorem exists_of_siblings (succeeds : ∀ start ∈ starts, Start.Succeeds start)
    (opened : Start.AllOpened starts openings)
    (openingsAccepted : ∀ opening ∈ openings, Accepted opening.1)
    (completes : FollowUp.AllComplete (siblings batch (openings.map Prod.snd)) endings)
    (accepted : ∀ ending ∈ endings, Accepted ending.1) :
    ∃ pieces wholes, List.Forall₂ Start.ComesTo starts pieces ∧
      Matched batch openings endings pieces wholes := by
  induction opened generalizing endings with
  | nil =>
      cases completes
      exact ⟨[], [], .nil, .nil⟩
  | @cons start opening starts openings started _ ih =>
      rcases opening with ⟨first, verdict⟩
      have headSucceeds := succeeds start (List.mem_cons_self ..)
      have headAccepted := openingsAccepted _ (List.mem_cons_self ..)
      have restSucceeds := fun start within => succeeds start (List.mem_cons_of_mem _ within)
      have restAccepted := fun opening within =>
        openingsAccepted opening (List.mem_cons_of_mem _ within)
      rcases verdict with cause | _ | follow
      · rcases headSucceeds _ _ (.failed started) headAccepted with ⟨actions, same⟩
        cases same
      · rcases ih restSucceeds restAccepted completes accepted with ⟨pieces, wholes, all, matched⟩
        exact ⟨_, _, .cons ⟨.nothing started, headAccepted⟩ all, .nothing first matched⟩
      · cases completes with
        | @cons _ ending _ endings headCompletes restCompletes =>
            rcases ending with ⟨journal, result⟩
            rcases Start.ComesTo.of_sibling headSucceeds started headAccepted headCompletes
              (accepted _ (List.mem_cons_self ..)) with ⟨piece, comes, deedsSame, sendsSame, rfl⟩
            have others := fun other within => accepted other (List.mem_cons_of_mem _ within)
            rcases ih restSucceeds restAccepted restCompletes others with
              ⟨pieces, wholes, all, matched⟩
            exact ⟨_, _, .cons comes all, .pending deedsSame sendsSame matched⟩

theorem pieces_wholes (matched : Matched batch openings endings pieces wholes) :
    List.Forall₂ (fun piece whole => deeds whole = deeds piece.journal ∧
      sends whole = sends piece.journal ++ piece.dispatched batch) pieces wholes := by
  induction matched with
  | nil => exact .nil
  | nothing opening _ ih =>
      apply List.Forall₂.cons ⟨rfl, ?_⟩ ih
      simp [Piece.dispatched]
  | pending deedsSame sendsSame _ ih => exact .cons ⟨deedsSame, sendsSame⟩ ih

theorem perm_wholes (matched : Matched batch openings endings pieces wholes) :
    (openings.flatMap Prod.fst ++ endings.flatMap Prod.fst).Perm wholes.flatten := by
  induction matched with
  | nil => exact .refl []
  | nothing opening _ ih =>
      rw [List.flatMap_cons, List.flatten_cons, List.append_assoc]
      exact ih.append_left opening
  | pending _ _ _ ih =>
      simp only [List.flatMap_cons, List.flatten_cons, List.append_assoc]
      apply List.Perm.append_left
      exact (List.perm_append_comm_assoc _ _ _).trans (ih.append_left _)

/-- Each command did its part in the call before its part of what followed. -/
theorem collected (matched : Matched batch openings endings pieces wholes) :
    List.flatten <$> (endings.map Prod.snd).mapM id =
      Except.ok (pieces.flatMap (Piece.kept batch)) := by
  induction matched with
  | nil => rfl
  | nothing opening _ ih =>
      rw [ih]
      simp [Piece.kept]
  | @pending openings endings pieces wholes opening follow journal piece _ _ _ ih =>
      rw [List.map_cons, List.mapM_cons]
      cases rest : (endings.map Prod.snd).mapM id with
      | error cause =>
          rw [rest] at ih
          cases ih
      | ok values =>
          rw [rest] at ih
          have flat : values.flatten = pieces.flatMap (Piece.kept batch) := Except.ok.inj ih
          rw [List.flatMap_cons, ← flat]
          rfl

end Matched

/-- Commands that are started one after the other in one call. -/
theorem Start.exists_openings {journal : List (Act S (Action alphabet))}
    {verdicts : List (Verdict S Action (Action alphabet) alphabet)}
    (ends : Prompt.Ends (starts.mapM id) journal verdicts) :
    ∃ openings : List (Opening S Action alphabet), Start.AllOpened starts openings ∧
      journal = openings.flatMap Prod.fst ∧ verdicts = openings.map Prod.snd := by
  induction starts generalizing journal verdicts with
  | nil =>
      have closing := Prompt.Ends.pure_iff.1 ends
      exact ⟨[], .nil, closing.1, closing.2⟩
  | cons start rest ih =>
      rw [List.mapM_cons] at ends
      rcases Prompt.Ends.bind_iff.1 ends with ⟨first, verdict, later, started, onward, rfl⟩
      rcases Prompt.Ends.bind_iff.1 onward with ⟨middle, found, last, restEnds, closing, rfl⟩
      rcases ih restEnds with ⟨openings, opened, rfl, rfl⟩
      rcases Prompt.Ends.pure_iff.1 closing with ⟨rfl, rfl⟩
      refine ⟨(first, verdict) :: openings, .cons started opened, ?_, rfl⟩
      rw [List.append_nil]
      rfl

/-- A parallel list waits for all of its siblings, in whatever order they go on. -/
theorem FollowUp.of_completes_all {found : List (FollowUp S Action A alphabet)}
    {journal : List (Act S A)} {result : Produced Action alphabet}
    (completes : Pending.Completes (all found) journal result) :
    ∃ endings, AllComplete found endings ∧
      journal.Perm (endings.flatMap Prod.fst) ∧ (∀ ending ∈ endings, ending.1.Sublist journal) ∧
      result = List.flatten <$> (endings.map Prod.snd).mapM id := by
  rcases Pending.Completes.of_join completes with
    ⟨parts, values, together, rest, each, interleaves, closing, rfl⟩
  rcases Pending.Completes.done_iff.1 closing with ⟨rfl, rfl⟩
  rw [List.append_nil]
  refine ⟨List.ofFn fun index => (parts index, values index), ?_, ?_, ?_, ?_⟩
  · apply List.forall₂_iff_get.2
    constructor
    · rw [List.length_ofFn]
    · intro index left right
      simpa using each ⟨index, left⟩
  · rw [List.flatMap_def, List.map_ofFn]
    exact interleaves.perm
  · intro ending within
    rcases List.mem_ofFn.1 within with ⟨index, rfl⟩
    exact interleaves.sublist index
  · rw [List.map_ofFn]
    rfl

/-- Starting a parallel list starts all of its commands.  Its verdict is about its siblings. -/
theorem Start.opened_of_startTogether {opening : List (Act S (Action alphabet))}
    {verdict : Verdict S Action (Action alphabet) alphabet}
    (ends : (startTogether batch starts).Ends opening verdict) :
    ∃ openings : List (Opening S Action alphabet), Start.AllOpened starts openings ∧
      opening = openings.flatMap Prod.fst ∧
      (siblings batch (openings.map Prod.snd) = [] ∧ verdict = .ok none ∨
        verdict = .ok (some (.all (siblings batch (openings.map Prod.snd))))) := by
  rcases Prompt.Ends.bind_iff.1 ends with ⟨earlier, verdicts, later, started, closing, rfl⟩
  rcases Start.exists_openings started with ⟨openings, opened, rfl, rfl⟩
  refine ⟨openings, opened, ?_⟩
  cases found : siblings batch (openings.map Prod.snd) with
  | nil =>
      rw [found] at closing
      rcases Prompt.Ends.pure_iff.1 closing with ⟨rfl, rfl⟩
      exact ⟨List.append_nil _, .inl ⟨rfl, rfl⟩⟩
  | cons sibling rest =>
      rw [found] at closing
      rcases Prompt.Ends.pure_iff.1 closing with ⟨rfl, rfl⟩
      exact ⟨List.append_nil _, .inr rfl⟩

/-- A parallel list gathers its commands, whatever the order in which they completed. -/
theorem Start.gathers_of_siblings {endings : List (Ending S Action (Action alphabet) alphabet)}
    {later : List (Act S (Action alphabet))} (succeeds : ∀ start ∈ starts, Start.Succeeds start)
    (opened : Start.AllOpened starts openings)
    (completes : FollowUp.AllComplete (siblings batch (openings.map Prod.snd)) endings)
    (perm : later.Perm (endings.flatMap Prod.fst))
    (inOrder : ∀ ending ∈ endings, ending.1.Sublist later)
    (accepted : Accepted (openings.flatMap Prod.fst ++ later)) :
    ∃ pieces produced, List.Forall₂ Start.ComesTo starts pieces ∧
      Gathers batch pieces (openings.flatMap Prod.fst ++ later) produced ∧
      List.flatten <$> (endings.map Prod.snd).mapM id = Except.ok produced := by
  have both := (accepted_append _ _).1 accepted
  have openingsAccepted (opening) (within : opening ∈ openings) : Accepted opening.1 :=
    both.1.of_subset fun _ inside => List.mem_flatMap.2 ⟨opening, within, inside⟩
  have endingsAccepted (ending) (within : ending ∈ endings) : Accepted ending.1 :=
    both.2.of_subset (inOrder ending within).subset
  rcases Matched.exists_of_siblings succeeds opened openingsAccepted completes endingsAccepted with
    ⟨pieces, wholes, all, matched⟩
  have whole := (perm.append_left _).trans matched.perm_wholes
  have gathers := Gathers.of_wholes matched.pieces_wholes whole
  exact ⟨pieces, _, all, gathers, matched.collected⟩

/-- A parallel list whose commands succeed gathers them. -/
theorem Start.Yields.gathers_of_startTogether {journal : List (Act S (Action alphabet))}
    {result : Produced Action alphabet} (succeeds : ∀ start ∈ starts, Start.Succeeds start)
    (yields : Start.Yields (startTogether batch starts) journal result)
    (accepted : Accepted journal) :
    ∃ pieces produced, List.Forall₂ Start.ComesTo starts pieces ∧
      Gathers batch pieces journal produced ∧ result = .ok produced := by
  cases yields with
  | failed ends =>
      rcases Start.opened_of_startTogether ends with ⟨openings, opened, rfl, ⟨-, same⟩ | same⟩
      · cases same
      · cases same
  | nothing ends =>
      rcases Start.opened_of_startTogether ends with ⟨openings, opened, rfl, ⟨none, -⟩ | same⟩
      · have nobody : FollowUp.AllComplete (siblings batch (openings.map Prod.snd)) [] := by
          rw [none]
          exact .nil
        rw [← List.append_nil (openings.flatMap Prod.fst)] at accepted ⊢
        rcases Start.gathers_of_siblings succeeds opened nobody (.refl []) (by simp) accepted with
          ⟨pieces, produced, all, gathers, kept⟩
        exact ⟨pieces, produced, all, gathers, kept⟩
      · cases same
  | pending ends completes =>
      rcases Start.opened_of_startTogether ends with ⟨openings, opened, rfl, ⟨-, same⟩ | same⟩
      · cases same
      · cases same
        rcases FollowUp.of_completes_all completes with ⟨endings, each, perm, inOrder, rfl⟩
        exact Start.gathers_of_siblings succeeds opened each perm inOrder accepted

/-- A command of a sequential list has come to a piece, with what the list does for it, and the rest
of the journal is how the list goes on. -/
def Start.Precedes (batch : Bool) (start : Start S Action alphabet)
    (onward : List (Action alphabet) → FollowUp S Action (Action alphabet) alphabet)
    (collected : List (Action alphabet)) (journal : List (Act S (Action alphabet)))
    (result : Produced Action alphabet) : Prop :=
  ∃ piece front last, Start.ComesTo start piece ∧ journal = front ++ last ∧
    deeds front = deeds piece.journal ∧
    sends front = sends piece.journal ++ piece.dispatched batch ∧
    (onward (collected ++ piece.kept batch)).Completes last result ∧ Accepted last

theorem Start.precedes_of_arrive {start : Start S Action alphabet}
    {onward : List (Action alphabet) → FollowUp S Action (Action alphabet) alphabet}
    {collected actions : List (Action alphabet)} {earlier later : List (Act S (Action alphabet))}
    {result : Produced Action alphabet} (yields : Start.Yields start earlier (.ok actions))
    (completes : Pending.Completes (arrive batch onward collected actions) later result)
    (accepted : Accepted (earlier ++ later)) :
    Start.Precedes batch start onward collected (earlier ++ later) result := by
  have both := (accepted_append _ _).1 accepted
  cases batch with
  | true =>
      exact ⟨⟨earlier, actions⟩, earlier, later, ⟨yields, both.1⟩, rfl, rfl,
        (List.append_nil _).symm, completes, both.2⟩
  | false =>
      rcases Pending.Completes.of_dispatch completes both.2 with ⟨last, goesOn, kept, rfl⟩
      refine ⟨⟨earlier, actions⟩, earlier ++ Act.dispatching actions, last, ⟨yields, both.1⟩,
        ?_, ?_, ?_, ?_, kept⟩
      · rw [List.append_assoc]
      · rw [deeds_append, deeds_dispatching, List.append_nil]
      · rw [sends_append, sends_dispatching]
        rfl
      · rw [Piece.kept, if_neg Bool.false_ne_true, List.append_nil]
        exact goesOn

/-- The first command of a sequential list is started already. -/
theorem Start.precedes_of_walk {start : Start S Action alphabet}
    {rest : List (Start S Action alphabet)} {opening journal : List (Act S (Action alphabet))}
    {verdict : Verdict S Action (Action alphabet) alphabet} {collected : List (Action alphabet)}
    {result : Produced Action alphabet} (succeeds : Start.Succeeds start)
    (started : start.Ends opening verdict)
    (completes : Pending.Completes (walk batch rest collected verdict) journal result)
    (accepted : Accepted (opening ++ journal)) :
    Start.Precedes batch start (onward batch rest) collected (opening ++ journal) result := by
  have openingAccepted := ((accepted_append _ _).1 accepted).1
  rw [walk_eq] at completes
  rcases verdict with cause | _ | follow
  · rcases succeeds _ _ (.failed started) openingAccepted with ⟨actions, same⟩
    cases same
  · exact Start.precedes_of_arrive (.nothing started) completes accepted
  · rcases FollowUp.of_completes_andThen completes with
      ⟨cause, ends, rfl⟩ | ⟨earlier, actions, later, ends, arrives, rfl⟩
    · rcases succeeds _ _ (.pending started ends) accepted with ⟨actions, same⟩
      cases same
    · rw [← List.append_assoc] at accepted ⊢
      exact Start.precedes_of_arrive (.pending started ends) arrives accepted

theorem Start.gathers_of_walk {start : Start S Action alphabet}
    {rest : List (Start S Action alphabet)} {opening journal : List (Act S (Action alphabet))}
    {verdict : Verdict S Action (Action alphabet) alphabet} {collected : List (Action alphabet)}
    {result : Produced Action alphabet}
    (succeeds : ∀ command ∈ start :: rest, Start.Succeeds command)
    (started : start.Ends opening verdict)
    (completes : Pending.Completes (walk batch rest collected verdict) journal result)
    (accepted : Accepted (opening ++ journal)) :
    ∃ pieces produced, List.Forall₂ Start.ComesTo (start :: rest) pieces ∧
      Gathers batch pieces (opening ++ journal) produced ∧ result = .ok (collected ++ produced) := by
  induction rest generalizing start opening journal verdict collected with
  | nil =>
      rcases Start.precedes_of_walk (succeeds start (List.mem_cons_self ..)) started completes
        accepted with ⟨piece, front, last, comes, same, frontDeeds, frontSends, goesOn, -⟩
      rcases FollowUp.completes_now_iff.1 goesOn with ⟨rfl, rfl⟩
      refine ⟨[piece], piece.kept batch ++ [], .cons comes .nil, ?_, ?_⟩
      · rw [same]
        exact Gathers.nil.cons frontDeeds frontSends
      · rw [List.append_nil]
  | cons next later ih =>
      rcases Start.precedes_of_walk (succeeds start (List.mem_cons_self ..)) started completes
        accepted with ⟨piece, front, last, comes, same, frontDeeds, frontSends, goesOn, kept⟩
      rcases Pending.Completes.of_thenPending goesOn with
        ⟨nextOpening, nextVerdict, nextJournal, nextStarted, nextCompletes, rfl⟩
      have others := fun command within => succeeds command (List.mem_cons_of_mem _ within)
      rcases ih others nextStarted nextCompletes kept with ⟨pieces, produced, all, gathers, rfl⟩
      refine ⟨piece :: pieces, piece.kept batch ++ produced, .cons comes all, ?_, ?_⟩
      · rw [same]
        exact gathers.cons frontDeeds frontSends
      · rw [List.append_assoc]

/-- A sequential list whose commands succeed gathers them. -/
theorem Start.Yields.gathers_of_startInOrder {journal : List (Act S (Action alphabet))}
    {result : Produced Action alphabet} (succeeds : ∀ start ∈ starts, Start.Succeeds start)
    (yields : Start.Yields (startInOrder batch starts) journal result)
    (accepted : Accepted journal) :
    ∃ pieces produced, List.Forall₂ Start.ComesTo starts pieces ∧
      Gathers batch pieces journal produced ∧ result = .ok produced := by
  cases starts with
  | nil =>
      cases yields with
      | failed ends =>
          rcases Prompt.Ends.pure_iff.1 ends with ⟨-, same⟩
          cases same
      | nothing ends =>
          rcases Prompt.Ends.pure_iff.1 ends with ⟨rfl, -⟩
          exact ⟨[], [], .nil, .nil, rfl⟩
      | pending ends _ =>
          rcases Prompt.Ends.pure_iff.1 ends with ⟨-, same⟩
          cases same
  | cons head rest =>
      have opened {opening verdict} (ends : (startInOrder batch (head :: rest)).Ends opening
          verdict) : ∃ found, head.Ends opening found ∧
            verdict = .ok (some (walk batch rest [] found)) := by
        rcases Prompt.Ends.bind_iff.1 ends with ⟨earlier, found, later, started, closing, rfl⟩
        rcases Prompt.Ends.pure_iff.1 closing with ⟨rfl, rfl⟩
        rw [List.append_nil]
        exact ⟨found, started, rfl⟩
      cases yields with
      | failed ends =>
          rcases opened ends with ⟨found, -, same⟩
          cases same
      | nothing ends =>
          rcases opened ends with ⟨found, -, same⟩
          cases same
      | pending ends completes =>
          rcases opened ends with ⟨found, started, same⟩
          cases same
          exact Start.gathers_of_walk succeeds started completes accepted

end Lists

end EffectLoop
