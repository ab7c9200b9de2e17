import EffectLoop.Proofs.Program.Terms
import EffectLoop.Proofs.World.Following
import EffectLoop.Proofs.World.Preservation

/-!
# Runs keep to their terms

If all that a computation waits for comes to a good end, then one poll of it follows a history in which
everything is answered as its terms expect, and what it leaves still meets the terms
(`Pending.poll_ensures`).  The world stays of its kind meanwhile.
-/

namespace EffectLoop

variable {S ι : Type} {Action : ι → Type} {A α β : Type} {answer child : Answer ι}

/-! ## What computations in the world answer -/

/-- A run that starts in a world of the kind ends in one. -/
abbrev World.Stays (kind : World S Action A → Prop) (before after : World S Action A) : Prop :=
  kind before → kind after

namespace Run

/-- Started in a world of the kind, whenever the computation gives an answer, the answer satisfies
`post` and the world is still of the kind. -/
structure Ensures (kind : World S Action A → Prop) (post : α → Prop)
    (computation : Run S Action A α) : Prop where
  holds : ∀ world value after, kind world → computation world = (.ok value, after) →
    kind after ∧ post value

namespace Ensures

variable {kind : World S Action A → Prop} {post : α → Prop} {last : β → Prop}

theorem pure {value : α} (holds : post value) :
    Ensures kind post (Pure.pure value : Run S Action A α) := by
  constructor
  intro world found after start answered
  cases answered
  exact ⟨start, holds⟩

theorem throw (halt : Halt) : Ensures kind post (MonadExcept.throw halt : Run S Action A α) := by
  constructor
  intro world found after start answered
  cases answered

theorem bind {first : Run S Action A α} {next : α → Run S Action A β}
    (firstEnsures : Ensures kind post first)
    (nextEnsures : ∀ value, post value → Ensures kind last (next value)) :
    Ensures kind last (first >>= next) := by
  constructor
  intro world found after start answered
  rcases outcome : first world with ⟨result, middle⟩
  cases result with
  | ok value =>
      rw [bind_of_ok outcome] at answered
      have reached := firstEnsures.holds world value middle start outcome
      exact (nextEnsures value reached.2).holds middle found after reached.1 answered
  | error halt =>
      rw [bind_of_error outcome] at answered
      cases answered

/-- Whatever the first part answers. -/
theorem after {first : Run S Action A α} {next : α → Run S Action A β}
    (keeps : Keeps (World.Stays kind) first) (nextEnsures : ∀ value, Ensures kind last (next value)) :
    Ensures kind last (first >>= next) := by
  have reached : Ensures kind (fun _ => True) first := by
    constructor
    intro world value middle start answered
    have stays := keeps world start
    rw [answered] at stays
    exact ⟨stays, trivial⟩
  exact reached.bind fun value _ => nextEnsures value

/-- Whatever the world is like. -/
theorem look {next : World S Action A → Run S Action A β}
    (nextEnsures : ∀ world, Ensures kind last (next world)) : Ensures kind last (get >>= next) :=
  after (fun _ => id) nextEnsures

/-- The answer is known, and before it is given the world is changed in ways that do not show. -/
theorem stopping (tolerant : Tolerant (World.Stays kind)) {value : α} (holds : post value)
    {change : World S Action A → World S Action A}
    (same : ∀ world, World.SameFront world (change world)) :
    Ensures kind post (Run.update change >>= fun _ => Pure.pure value) := by
  apply after (.updateRest tolerant same)
  rintro ⟨⟩
  exact pure holds

theorem mono {weaker : α → Prop} {computation : Run S Action A α}
    (ensures : Ensures kind post computation) (implies : ∀ value, post value → weaker value) :
    Ensures kind weaker computation := by
  constructor
  intro world value after start answered
  have reached := ensures.holds world value after start answered
  exact ⟨reached.1, implies value reached.2⟩

theorem mapM {each : α → Run S Action A β} (values : List α)
    (eachEnsures : ∀ value, Ensures kind last (each value)) :
    Ensures kind (fun found => ∀ value ∈ found, last value) (values.mapM each) := by
  induction values with
  | nil => exact pure fun _ within => absurd within List.not_mem_nil
  | cons value rest ih =>
      rw [List.mapM_cons]
      apply bind (eachEnsures value)
      intro first holds
      apply bind ih
      intro others hold
      apply pure
      intro other within
      rcases List.mem_cons.1 within with rfl | within
      · exact holds
      · exact hold other within

theorem ofFnM {count : Nat} {each : Fin count → Run S Action A β} {lasts : Fin count → β → Prop}
    (eachEnsures : ∀ index, Ensures kind (lasts index) (each index)) :
    Ensures kind (fun found => ∀ index, lasts index (found.get index)) (Vector.ofFnM each) := by
  induction count with
  | zero =>
      rw [Vector.ofFnM_zero]
      exact pure fun index => index.elim0
  | succ count ih =>
      rw [Vector.ofFnM_succ]
      apply bind (ih fun index => eachEnsures index.castSucc)
      intro others hold
      apply bind (eachEnsures (Fin.last count))
      intro final holds
      apply pure
      intro index
      cases index using Fin.lastCases with
      | last =>
          change lasts (Fin.last count) (others.push final)[count]
          rw [Vector.getElem_push_eq]
          exact holds
      | cast index =>
          change lasts index.castSucc (others.push final)[index.val]
          rw [Vector.getElem_push_lt index.isLt]
          exact hold index

end Ensures

end Run

section Calls

variable {kind : World S Action A → Prop} (tolerant : Tolerant (World.Stays kind))
variable {engine : Engine S Action A} (keeps : engine.Keeps (World.Stays kind))
include tolerant keeps

/-- A computation that is over in the call follows one of its histories. -/
theorem Prompt.run_ensures (program : Prompt S Action A α) :
    Run.Ensures kind (fun value => ∃ journal, program.Ends journal value) (program.run engine) := by
  constructor
  intro world value after start answered
  have stays := program.run_keeps tolerant keeps world start
  rw [answered] at stays
  exact ⟨stays, (program.run_ends engine world).holds value after answered⟩

end Calls

/-! ## Going on -/

namespace Pending

/-- The computation has gone on, with good ends of all that it waited for; what is left of it still
meets the terms. -/
structure Advances (terms : Terms S Action A) (post : answer.Value Action → Prop)
    (program left : Pending S Action A answer) : Prop where
  does : ∃ journal, program.Does journal left ∧ Accepted journal
  meets : left.Meets terms post

/-- The children of a join have gone on, each in its own time. -/
structure AdvanceTogether {count : Nat} (terms : Terms S Action A)
    (posts : Fin count → child.Value Action → Prop)
    (children left : Fin count → Pending S Action A child) : Prop where
  does : ∃ parts journal, (∀ index, (children index).Does (parts index) (left index)) ∧
    Interleaves parts journal ∧ Accepted journal
  meets : ∀ index, (left index).Meets terms (posts index)

variable {terms : Terms S Action A} {post : answer.Value Action → Prop}

namespace Advances

variable {program middle left : Pending S Action A answer}

theorem rest (meets : program.Meets terms post) : program.Advances terms post program :=
  ⟨⟨[], .rest program, accepted_nil⟩, meets⟩

/-- First it does what the journal says. -/
theorem onward {journal : List (Act S A)} (advances : middle.Advances terms post left)
    (does : program.Does journal middle) (accepted : Accepted journal) :
    program.Advances terms post left := by
  rcases advances.does with ⟨later, after, laterAccepted⟩
  constructor
  · exact ⟨_, does.trans after, (accepted_append _ _).2 ⟨accepted, laterAccepted⟩⟩
  · exact advances.meets

theorem trans (first : program.Advances terms post middle)
    (second : middle.Advances terms post left) : program.Advances terms post left := by
  rcases first.does with ⟨earlier, before, accepted⟩
  exact second.onward before accepted

/-- All that it has done so far is what the journal says. -/
theorem of_does {journal : List (Act S A)} (does : program.Does journal left)
    (accepted : Accepted journal) (meets : left.Meets terms post) :
    program.Advances terms post left :=
  ⟨⟨journal, does, accepted⟩, meets⟩

end Advances

namespace AdvanceTogether

variable {count : Nat} {posts : Fin count → child.Value Action → Prop}
variable {children now left : Fin count → Pending S Action A child}

theorem rest (meets : ∀ index, (children index).Meets terms (posts index)) :
    AdvanceTogether terms posts children children :=
  ⟨⟨_, [], fun index => .rest (children index), .nil, accepted_nil⟩, meets⟩

/-- One after the other. -/
theorem of_each (each : ∀ index, (children index).Advances terms (posts index) (left index)) :
    AdvanceTogether terms posts children left := by
  choose parts does accepted using fun index => (each index).does
  constructor
  · exact ⟨parts, _, does, .ofFn parts, (Interleaves.ofFn parts).accepted accepted⟩
  · intro index
    exact (each index).meets

/-- One of them goes on. -/
theorem step (together : AdvanceTogether terms posts children now) {index : Fin count}
    {last : Pending S Action A child} (advances : (now index).Advances terms (posts index) last) :
    AdvanceTogether terms posts children (Function.update now index last) := by
  rcases together.does with ⟨parts, journal, does, interleaves, accepted⟩
  rcases advances.does with ⟨later, after, laterAccepted⟩
  rcases does_update does interleaves after with ⟨further, doesThen, interleavesThen⟩
  constructor
  · exact ⟨further, _, doesThen, interleavesThen, (accepted_append _ _).2 ⟨accepted, laterAccepted⟩⟩
  · intro place
    by_cases same : place = index
    · subst same
      rw [Function.update_self]
      exact advances.meets
    · rw [Function.update_of_ne same]
      exact together.meets place

end AdvanceTogether

end Pending

/-! ## Families of computations -/

section Rounds

variable {kind : World S Action A → Prop} (tolerant : Tolerant (World.Stays kind))
variable {count : Nat} {good : (Fin count → Pending S Action A child) → Prop}
include tolerant

section Rallies

variable {pollChild : Waiter → Pending S Action A child → Run S Action A (Pending S Action A child)}
variable (step : ∀ now index waiter, good now →
  Run.Ensures kind (fun left => good (Function.update now index left)) (pollChild waiter (now index)))
include step

/-- What holds of a family, and goes on holding whenever one of its members is polled, holds of what a
round of polls leaves. -/
theorem Rally.poll_ensures (waiter : Waiter) (ticket : Nat)
    {children : Vector (Pending S Action A child) count} (start : good children.get)
    (remaining stopped restless fuel : Nat) :
    Run.Ensures kind (fun left => good left.get)
      (Rally.poll pollChild waiter ticket children remaining stopped restless fuel) := by
  induction fuel generalizing children remaining stopped restless with
  | zero => exact .pure start
  | succ fuel ih =>
      apply Run.Ensures.after (takeChild_keeps tolerant ticket)
      intro taken
      cases taken with
      | none => exact .pure start
      | some place =>
          dsimp only
          split
          next inside =>
              apply (step children.get ⟨place, inside⟩ _ start).bind
              intro left holds
              have placed : (children.set place left).get =
                  Function.update children.get ⟨place, inside⟩ left := by
                funext index
                change (children.set place left)[index.val] = _
                rw [Vector.getElem_set, Function.update_apply]
                simp only [Fin.ext_iff, eq_comm]
                rfl
              rw [← placed] at holds
              split
              · apply Run.Ensures.after (finish_keeps tolerant ticket place)
                intro before
                exact ih holds _ _ _
              · apply Run.Ensures.after (isQueued_keeps tolerant ticket place)
                intro queued
                have woken : Run.Keeps (World.Stays kind) (Run.update (·.wake waiter)) :=
                  .updateRest tolerant fun world => world.sameFront_wake waiter
                -- The queue only decides the count of restless children; both cases go on alike.
                split
                all_goals
                  split
                  · apply Run.Ensures.after woken
                    rintro ⟨⟩
                    exact .pure holds
                  · exact ih holds _ _ _
          next => exact .pure start

theorem Rally.resume_ensures (waiter : Waiter) (ticket : Nat)
    {children : Fin count → Pending S Action A child} (start : good children) :
    Run.Ensures kind (fun left => good left.get)
      (Rally.resume pollChild waiter ticket children) := by
  apply Run.Ensures.look
  intro world
  apply Rally.poll_ensures tolerant step
  convert start using 1
  funext index
  exact Vector.getElem_ofFn index.isLt

end Rallies

namespace Engine

variable {engine : Engine S Action A} {children : Fin count → Pending S Action A child}
variable (step : ∀ now index waiter, good now →
  Run.Ensures kind (fun left => good (Function.update now index left))
    (engine.poll waiter (now index)))
variable (start : good children) (waiter : Waiter)
include step start

theorem pollFresh_ensures
    (once : Run.Ensures kind (fun left => good left.get)
      (Vector.ofFnM fun index => engine.poll waiter (children index))) :
    Run.Ensures kind (fun found => good found.2.get) (engine.pollFresh waiter children) := by
  unfold pollFresh
  split
  · apply once.bind
    intro left holds
    exact .pure holds
  · apply Run.Ensures.after (Rally.openRally_keeps tolerant count)
    intro ticket
    apply (Rally.resume_ensures tolerant step waiter ticket start).bind
    intro left holds
    exact .pure holds

/-- One round of polls of a family.  Either each member is polled once, or it is a round of a large
join. -/
theorem pollJoin_ensures (ticket : Option Nat)
    {each : Fin count → Run S Action A (Pending S Action A child)}
    (once : Run.Ensures kind (fun left => good left.get) (Vector.ofFnM each))
    (fresh : Run.Ensures kind (fun left => good left.get)
      (Vector.ofFnM fun index => engine.poll waiter (children index))) :
    Run.Ensures kind (fun found => good found.2.get)
      (engine.pollJoin waiter ticket children each) := by
  unfold pollJoin
  split
  · apply once.bind
    intro left holds
    exact .pure holds
  · cases ticket with
    | none => exact pollFresh_ensures tolerant step start waiter fresh
    | some ticket =>
        apply (Rally.resume_ensures tolerant step waiter ticket start).bind
        intro left holds
        exact .pure holds

end Engine

end Rounds

theorem firstFailure_ok (count : Nat) : firstFailure (fun _ : Fin count => .ok ()) = .ok () := by
  unfold firstFailure
  rw [List.ofFn_const]
  induction count with
  | zero => rfl
  | succ count ih =>
      rw [List.replicate_succ]
      exact ih

/-! ## Polling -/

/-- The engine serves the terms in worlds of the kind: dispatched actions may be waited for, what may
be waited for comes to a good end, and polls are faithful. -/
structure Engine.Serves (engine : Engine S Action A) (kind : World S Action A → Prop)
    (terms : Terms S Action A) : Prop where
  tolerant : Tolerant (World.Stays kind)
  keeps : engine.Keeps (World.Stays kind)
  dispatch : terms.sends → ∀ action, Run.Ensures kind terms.awaited (engine.dispatch action)
  poll : ∀ {answer : Answer ι} (waiter : Waiter) (program : Pending S Action A answer)
    (post : answer.Value Action → Prop), program.Meets terms post →
    Run.Ensures kind (program.Advances terms post) (engine.poll waiter program)
  await : ∀ (waiter : Waiter) caused, terms.awaited caused →
    Run.Ensures kind terms.awaited (engine.poll waiter caused)
  drive : ∀ (waiter : Waiter) caused, terms.awaited caused →
    Run.Ensures kind terms.awaited (caused.poll engine waiter)
  settled : ∀ result, terms.awaited (.done result) → result = .ok ()
  reply : terms.reply (.ok ())

namespace Engine.Serves

variable {engine : Engine S Action A} {kind : World S Action A → Prop} {terms : Terms S Action A}
variable (serves : engine.Serves kind terms)
include serves

/-! ### What is waited for -/

theorem start_awaited (may : terms.sends) (action : Noted A) :
    Run.Ensures kind terms.awaited (engine.start action) := by
  apply Run.Ensures.after (.adopt serves.tolerant action)
  intro received
  exact serves.dispatch may received

theorem awaited_step {count : Nat} (now : Fin count → Pending S Action A .settled)
    (index : Fin count) (waiter : Waiter) (may : ∀ place, terms.awaited (now place)) :
    Run.Ensures kind (fun left => ∀ place, terms.awaited (Function.update now index left place))
      (engine.poll waiter (now index)) := by
  apply (serves.await waiter _ (may index)).mono
  intro left holds place
  by_cases same : place = index
  · subst same
    rw [Function.update_self]
    exact holds
  · rw [Function.update_of_ne same]
    exact may place

/-- If all that is waited for is over, it has come to a good end. -/
theorem firstFailure_eq {count : Nat} {left : Vector (Pending S Action A .settled) count}
    {results : Vector (Except CmdFailure Unit) count} (may : ∀ index, terms.awaited (left.get index))
    (complete : results? left = some results) : firstFailure results.get = .ok () := by
  have good (index : Fin count) : results.get index = .ok () := by
    have awaited := may index
    rw [done_of_results? complete index] at awaited
    exact serves.settled _ awaited
  rw [funext good]
  exact firstFailure_ok count

theorem pollFresh_awaited {waiter : Waiter} {count : Nat}
    {caused : Fin count → Pending S Action A .settled} (may : ∀ index, terms.awaited (caused index)) :
    Run.Ensures kind (fun found => ∀ index, terms.awaited (found.2.get index))
      (engine.pollFresh waiter caused) := by
  apply pollFresh_ensures serves.tolerant serves.awaited_step may
  apply Run.Ensures.ofFnM
  intro index
  exact serves.await waiter _ (may index)

theorem pollJoin_awaited {waiter : Waiter} {count : Nat} {ticket : Option Nat}
    {caused : Fin count → Pending S Action A .settled} (may : ∀ index, terms.awaited (caused index)) :
    Run.Ensures kind (fun found => ∀ index, terms.awaited (found.2.get index))
      (engine.pollJoin waiter ticket caused fun index => (caused index).poll engine waiter) := by
  apply pollJoin_ensures serves.tolerant serves.awaited_step may
  · apply Run.Ensures.ofFnM
    intro index
    exact serves.drive waiter _ (may index)
  · apply Run.Ensures.ofFnM
    intro index
    exact serves.await waiter _ (may index)

/-! ### What is part of the program -/

theorem pollJoin_together {waiter : Waiter} {count : Nat} (ticket : Option Nat)
    {children : Fin count → Pending S Action A child} {posts : Fin count → child.Value Action → Prop}
    (meets : ∀ index, (children index).Meets terms (posts index))
    (each : ∀ index, Run.Ensures kind ((children index).Advances terms (posts index))
      ((children index).poll engine waiter)) :
    Run.Ensures kind (fun found => Pending.AdvanceTogether terms posts children found.2.get)
      (engine.pollJoin waiter ticket children fun index => (children index).poll engine waiter) := by
  have step (now : Fin count → Pending S Action A child) (index : Fin count) (waiter : Waiter)
      (together : Pending.AdvanceTogether terms posts children now) :
      Run.Ensures kind (fun left => Pending.AdvanceTogether terms posts children
        (Function.update now index left)) (engine.poll waiter (now index)) := by
    apply (serves.poll waiter _ _ (together.meets index)).mono
    intro left advances
    exact together.step advances
  apply pollJoin_ensures serves.tolerant step (.rest meets)
  · apply (Run.Ensures.ofFnM each).mono
    intro left advance
    exact .of_each advance
  · apply (Run.Ensures.ofFnM fun index => serves.poll waiter _ _ (meets index)).mono
    intro left advance
    exact .of_each advance

end Engine.Serves

/-- One poll of a computation that meets terms which the engine serves: it goes on, and what it leaves
meets the terms. -/
theorem Pending.poll_ensures {engine : Engine S Action A} {kind : World S Action A → Prop}
    {terms : Terms S Action A} (serves : engine.Serves kind terms) (waiter : Waiter)
    {program : Pending S Action A answer} {post : answer.Value Action → Prop}
    (meets : program.Meets terms post) :
    Run.Ensures kind (program.Advances terms post) (program.poll engine waiter) := by
  have tolerant := serves.tolerant
  have keeps := serves.keeps
  induction program with
  | done value => exact .pure (.rest meets)
  | call effect next ih =>
      apply Run.Ensures.after (Run.perform_keeps tolerant effect)
      intro reply
      apply (ih reply (meets reply)).mono
      intro left advances
      exact advances.onward (.call reply (.rest _)) (by simp)
  | send action keep next ih =>
      apply Run.Ensures.after (Engine.send_keeps tolerant keeps action keep)
      rintro ⟨⟩
      apply (ih meets.2).mono
      intro left advances
      exact advances.onward (.send (.rest _)) (by simp)
  | schedule delay repeating task next _ ih =>
      apply Run.Ensures.after (Run.schedule_keeps tolerant delay repeating task)
      intro handle
      apply (ih handle (meets.2 handle)).mono
      intro left advances
      exact advances.onward (.schedule handle (.rest _)) (by simp)
  | spawn task next _ ih =>
      apply Run.Ensures.after (Run.spawn_keeps tolerant task)
      rintro ⟨⟩
      apply (ih meets.2).mono
      intro left advances
      exact advances.onward (.spawn (.rest _)) (by simp)
  | wait gate next ih =>
      apply Run.Ensures.look
      intro world
      split
      · apply (ih meets).mono
        intro left advances
        exact advances.onward (.wait (.rest _)) (by simp)
      · exact .stopping tolerant (.rest meets) fun _ => ⟨rfl, rfl, rfl⟩
  | resumeAt moment next ih =>
      have goesOn : Run.Ensures kind ((resumeAt moment next).Advances terms post)
          (next.poll engine waiter) := by
        apply (ih meets).mono
        intro left advances
        exact advances.onward (.resumeAt (.rest _)) (by simp)
      apply Run.Ensures.look
      intro world
      split
      · split
        · exact goesOn
        · exact .pure (.rest meets)
      · split
        · exact goesOn
        · exact .stopping tolerant (.rest meets) fun _ => ⟨rfl, rfl, rfl⟩
  | sendAll actions next ih =>
      rw [poll]
      have started := Run.Ensures.mapM actions (serves.start_awaited meets.1)
      apply started.bind
      intro caused may
      apply (serves.pollFresh_awaited fun index => may _ (List.get_mem caused index)).bind
      rintro ⟨ticket, left⟩ mayStill
      dsimp only at mayStill ⊢
      split
      · rename_i results complete
        rw [serves.firstFailure_eq mayStill complete]
        apply (ih _ (meets.2 _ serves.reply)).mono
        intro left advances
        exact advances.onward (.sendAll (.ok ()) (.rest _)) (by simp)
      · exact .pure (.of_does .sending (by simp) ⟨⟨meets.1, mayStill⟩, meets.2⟩)
  | settling ticket caused next _ ih =>
      rw [poll]
      apply (serves.pollJoin_awaited meets.1.2).bind
      rintro ⟨ticket, left⟩ mayStill
      dsimp only at mayStill ⊢
      split
      · rename_i results complete
        rw [serves.firstFailure_eq mayStill complete]
        apply (ih _ (meets.2 _ serves.reply)).mono
        intro left advances
        exact advances.onward (.settled (.ok ()) (.rest _)) (by simp)
      · exact .pure (.of_does .waiting (by simp) ⟨⟨meets.1.1, mayStill⟩, meets.2⟩)
  | join ticket children next childrenIH ih =>
      rcases meets with ⟨posts, childrenMeet, nextMeets⟩
      rw [poll]
      have round := serves.pollJoin_together ticket childrenMeet
        fun index => childrenIH index (childrenMeet index)
      apply round.bind
      rintro ⟨ticket, left⟩ together
      dsimp only at together ⊢
      rcases together.does with ⟨parts, journal, does, interleaves, accepted⟩
      split
      · rename_i results complete
        have ended (index) := done_of_results? complete index
        have hold (index) : posts index (results.get index) := by
          have leftMeets := together.meets index
          rw [ended index] at leftMeets
          exact leftMeets
        apply (ih _ (nextMeets results.get hold)).mono
        intro left advances
        simp only [ended] at does
        exact advances.onward (.join does interleaves (.rest _)) (by simpa using accepted)
      · exact .pure (.of_does (.joining does interleaves) accepted
          ⟨posts, together.meets, nextMeets⟩)
  | advanceTo target ticket driven next _ ih =>
      have goesOn : Run.Ensures kind ((advanceTo target ticket driven next).Advances terms post)
          (next.poll engine waiter) := by
        apply (ih meets).mono
        intro left advances
        exact advances.onward (.advanceTo (.rest _)) (by simp)
      rw [poll]
      apply Run.Ensures.look
      intro world
      split
      · apply Run.Ensures.after (Engine.pollJoin_keeps tolerant keeps waiter ticket driven
          fun index => Pending.poll_keeps tolerant keeps waiter (driven index))
        rintro ⟨ticket, left⟩
        dsimp only
        split
        · exact .pure (.of_does .advancing (by simp) meets)
        · apply Run.Ensures.after (Run.nextDriven_keeps tolerant target)
          intro due
          cases due with
          | none => exact goesOn
          | some driven =>
              apply (serves.poll waiter (.advanceTo target none driven.get next) post meets).mono
              intro left advances
              exact advances.onward .advancing (by simp)
      · split
        · exact goesOn
        · exact .stopping tolerant (.rest meets) fun _ => ⟨rfl, rfl, rfl⟩
  | interval handle period due task running _ _ =>
      rw [poll]
      apply Run.Ensures.after (Engine.pollJoin_keeps tolerant keeps waiter none running
        fun index => Pending.poll_keeps tolerant keeps waiter (running index))
      rintro ⟨ticket, left⟩
      dsimp only
      split
      · exact .pure (.of_does .interval (by simp) meets)
      · apply Run.Ensures.look
        intro world
        split
        · exact .pure (.of_does .interval (by simp) meets)
        · split
          · have logged : Run.Keeps (World.Stays kind)
                (Run.emit (.log (.intervalFired handle)) : Run S Action A Unit) :=
              .update fun world => tolerant.log world _
            apply Run.Ensures.after logged
            rintro ⟨⟩
            apply (serves.poll waiter _ post _).mono
            · intro left advances
              exact advances.onward .interval (by simp)
            · exact meets
          · exact .stopping tolerant (.of_does .interval (by simp) meets) fun _ => ⟨rfl, rfl, rfl⟩

end EffectLoop
