import EffectLoop.Proofs.Program.History
import EffectLoop.Proofs.World.Driving

/-!
# What is driven follows its histories

Whatever a computation does in the world is one of its histories, whether it comes to a good end or not.
For a computation that is over in the call this is `Prompt.run_ends`, and for a pending one, in whatever
world and however it is driven, `Pending.does_of_driven`.  So what holds of all histories of a program
holds of everything that can become of it.

Joins poll their children one after the other, so that the journals of the children are interleaved poll
by poll.
-/

namespace EffectLoop

variable {S ι : Type} {Action : ι → Type} {A α : Type} {answer child : Answer ι}
variable {engine : Engine S Action A}

/-- A computation that is over in the call follows one of its histories. -/
theorem Prompt.run_ends (program : Prompt S Action A α) (engine : Engine S Action A)
    (world : World S Action A) :
    (program.run engine).Leads world fun value _ => ∃ journal, program.Ends journal value := by
  induction program generalizing world with
  | done value => exact .pure ⟨[], .done value⟩
  | call effect next ih =>
      apply (Run.Leads.self _ world).bind
      intro reply middle _
      apply (ih reply middle).mono
      rintro value _ ⟨journal, ends⟩
      exact ⟨_, .call reply ends⟩
  | send action keep next ih =>
      apply (Run.Leads.self _ world).bind
      intro _ middle _
      apply (ih middle).mono
      rintro value _ ⟨journal, ends⟩
      exact ⟨_, .send ends⟩
  | schedule delay repeating task next ih =>
      apply (Run.Leads.self _ world).bind
      intro handle middle _
      apply (ih handle middle).mono
      rintro value _ ⟨journal, ends⟩
      exact ⟨_, .schedule handle ends⟩
  | spawn task next ih =>
      apply (Run.Leads.self _ world).bind
      intro _ middle _
      apply (ih middle).mono
      rintro value _ ⟨journal, ends⟩
      exact ⟨_, .spawn ends⟩

namespace Pending

/-- The computation may have come to this. -/
def Goes (program left : Pending S Action A answer) : Prop := ∃ journal, program.Does journal left

/-- The children of a join may have come to this, each in its own time. -/
def GoTogether {count : Nat} (children left : Fin count → Pending S Action A child) : Prop :=
  ∃ parts journal, (∀ index, (children index).Does (parts index) (left index)) ∧ Interleaves parts journal

theorem Does.onward {program middle left : Pending S Action A answer} {journal : List (Act S A)}
    (does : program.Does journal middle) (goes : middle.Goes left) : program.Goes left := by
  obtain ⟨later, after⟩ := goes
  exact ⟨_, does.trans after⟩

section Together

variable {count : Nat} {children now : Fin count → Pending S Action A child}
variable {parts : Fin count → List (Act S A)} {journal later : List (Act S A)}

/-- One of them goes on, and what it does comes last. -/
theorem does_update {index : Fin count} {last : Pending S Action A child}
    (does : ∀ place, (children place).Does (parts place) (now place))
    (interleaves : Interleaves parts journal) (after : (now index).Does later last) :
    ∃ parts, (∀ place, (children place).Does (parts place) (Function.update now index last place)) ∧
      Interleaves parts (journal ++ later) := by
  refine ⟨_, ?_, interleaves.append (.solo index later)⟩
  intro place
  by_cases same : place = index
  · subst same
    rw [Function.update_self, if_pos rfl]
    exact (does place).trans after
  · rw [Function.update_of_ne same, if_neg same, List.append_nil]
    exact does place

theorem GoTogether.rest (children : Fin count → Pending S Action A child) : GoTogether children children :=
  ⟨_, [], fun index => .rest (children index), .nil⟩

theorem GoTogether.step (together : GoTogether children now) {index : Fin count}
    {last : Pending S Action A child} (goes : (now index).Goes last) :
    GoTogether children (Function.update now index last) := by
  obtain ⟨parts, journal, does, interleaves⟩ := together
  obtain ⟨later, after⟩ := goes
  obtain ⟨further, doesThen, interleavesThen⟩ := does_update does interleaves after
  exact ⟨further, _, doesThen, interleavesThen⟩

end Together

/-- One poll follows a history, if the polls that it makes further in do. -/
theorem poll_goes (waiter : Waiter) (program : Pending S Action A answer) (world : World S Action A)
    (deeper : ∀ {answer : Answer ι} (waiter : Waiter) (program : Pending S Action A answer)
      (world : World S Action A), (engine.poll waiter program).Leads world fun left _ => program.Goes left) :
    (program.poll engine waiter).Leads world fun left _ => program.Goes left := by
  induction program generalizing world with
  | done value => exact .pure ⟨[], .rest _⟩
  | call effect next ih =>
      apply (Run.Leads.self _ world).bind
      intro reply middle _
      exact (ih reply middle).mono fun _ _ goes => Does.onward (.call reply (.rest _)) goes
  | send action keep next ih =>
      apply (Run.Leads.self _ world).bind
      intro _ middle _
      exact (ih middle).mono fun _ _ goes => Does.onward (.send (.rest _)) goes
  | schedule delay repeating task next _ ih =>
      apply (Run.Leads.self _ world).bind
      intro handle middle _
      exact (ih handle middle).mono fun _ _ goes => Does.onward (.schedule handle (.rest _)) goes
  | spawn task next _ ih =>
      apply (Run.Leads.self _ world).bind
      intro _ middle _
      exact (ih middle).mono fun _ _ goes => Does.onward (.spawn (.rest _)) goes
  | wait gate next ih =>
      apply Run.Leads.look
      split
      · exact (ih world).mono fun _ _ goes => Does.onward (.wait (.rest _)) goes
      · exact .update (.pure ⟨[], .rest _⟩)
  | resumeAt moment next ih =>
      have goesOn : (next.poll engine waiter).Leads world fun left _ => (resumeAt moment next).Goes left :=
        (ih world).mono fun _ _ goes => Does.onward (.resumeAt (.rest _)) goes
      apply Run.Leads.look
      split
      · split
        · exact goesOn
        · exact .pure ⟨[], .rest _⟩
      · split
        · exact goesOn
        · exact .update (.pure ⟨[], .rest _⟩)
  | sendAll actions next ih =>
      rw [poll]
      apply (Run.Leads.self _ world).bind
      intro caused begun _
      apply (Run.Leads.self _ begun).bind
      rintro ⟨ticket, left⟩ middle _
      dsimp only
      split
      · exact (ih _ middle).mono fun _ _ goes => Does.onward (.sendAll _ (.rest _)) goes
      · exact .pure ⟨_, .sending⟩
  | settling ticket caused next _ ih =>
      rw [poll]
      apply (Run.Leads.self _ world).bind
      rintro ⟨ticket, left⟩ middle _
      dsimp only
      split
      · exact (ih _ middle).mono fun _ _ goes => Does.onward (.settled _ (.rest _)) goes
      · exact .pure ⟨[], .waiting⟩
  | join ticket children next childrenIH ih =>
      rw [poll]
      have booked (now) (before after : World S Action A) (_ : World.Booked before after)
          (together : GoTogether children now) : GoTogether children now := together
      have step (now) (world : World S Action A) (index waiter) (together : GoTogether children now) :
          (engine.poll waiter (now index)).Leads world
            fun left _ => GoTogether children (Function.update now index left) :=
        (deeper waiter (now index) world).mono fun _ _ goes => together.step goes
      have round : (engine.pollJoin waiter ticket children fun index =>
          (children index).poll engine waiter).Leads world
            fun found _ => GoTogether children found.2.get := by
        apply Engine.pollJoin_leads booked step waiter ticket _ (.rest children)
        intro now world index together same
        have polled := childrenIH index world
        rw [← same] at polled ⊢
        exact polled.mono fun _ _ goes => together.step goes
      apply round.bind
      rintro ⟨ticket, left⟩ middle ⟨parts, journal, does, interleaves⟩
      dsimp only at does ⊢
      split
      next results complete =>
        have ended (index) := done_of_results? complete index
        simp only [ended] at does
        exact (ih _ middle).mono fun _ _ goes => Does.onward (.join does interleaves (.rest _)) goes
      next => exact .pure ⟨journal, .joining does interleaves⟩
  | advanceTo target ticket driven next _ ih =>
      have goesOn (world : World S Action A) : (next.poll engine waiter).Leads world
          fun left _ => (advanceTo target ticket driven next).Goes left :=
        (ih world).mono fun _ _ goes => Does.onward (.advanceTo (.rest _)) goes
      rw [poll]
      apply Run.Leads.look
      split
      · apply (Run.Leads.self _ world).bind
        rintro ⟨ticket, left⟩ middle _
        dsimp only
        split
        · exact .pure ⟨[], .advancing⟩
        · apply (Run.Leads.self _ middle).bind
          intro due later _
          cases due with
          | none => exact goesOn later
          | some driven =>
              exact (deeper waiter _ later).mono fun _ _ goes => Does.onward .advancing goes
      · split
        · exact goesOn world
        · exact .update (.pure ⟨[], .rest _⟩)
  | interval handle period due task running _ _ =>
      rw [poll]
      apply (Run.Leads.self _ world).bind
      rintro ⟨ticket, left⟩ middle _
      dsimp only
      split
      · exact .pure ⟨[], .interval⟩
      · apply Run.Leads.look
        split
        · exact .pure ⟨[], .interval⟩
        · split
          · apply (Run.Leads.self _ middle).bind
            intro _ later _
            exact (deeper waiter _ later).mono fun _ _ goes => Does.onward .interval goes
          · exact .update (.pure ⟨[], .interval⟩)

theorem engine_poll_goes (dispatch : Dispatcher S Action A) (depth : Nat) (waiter : Waiter)
    (program : Pending S Action A answer) (world : World S Action A) :
    ((Engine.ofDispatch dispatch depth).poll waiter program).Leads world fun left _ => program.Goes left := by
  induction depth generalizing answer waiter program world with
  | zero => exact .throw .exhausted
  | succ depth ih => exact poll_goes waiter program world ih

/-- However a computation is driven, whatever it is answered and whatever happens in between, what it has
come to is what one of its histories leaves. -/
theorem does_of_driven {dispatch : Dispatcher S Action A}
    {env : World S Action A → World S Action A → Prop} {program left : Pending S Action A answer}
    {world later : World S Action A} (driven : Driven dispatch env (program, world) (left, later)) :
    ∃ journal, program.Does journal left := by
  apply Driven.invariant _ _ driven ⟨[], .rest program⟩
  · rintro middle world depth waiter ⟨journal, does⟩
    apply (poll_goes waiter middle world fun waiter program world =>
      engine_poll_goes dispatch depth waiter program world).mono
    intro left _ goes
    exact does.onward goes
  · intro middle world later _ goes
    exact goes

end Pending

end EffectLoop
