import EffectLoop.Proofs.Program.History

/-!
# Terms

The terms of a program say what it may do and what it may rely on.  A program *meets* its terms, with
a postcondition, if that can be seen from the program alone: on every branch it does only what it may
do, and as long as it is answered as it may expect, it ends with a value that satisfies the
postcondition.

A *quiet* program sends nothing.  Work that a program hands over, for a schedule or to be spawned, has
to be quiet under all terms.
-/

namespace EffectLoop

variable {S ι : Type} {Action : ι → Type} {A B α β : Type} {answer other : Answer ι}

/-- What a program may do, and what it may rely on. -/
structure Terms (S : Type) {ι : Type} (Action : ι → Type) (A : Type) where
  /-- May it send actions? -/
  sends : Prop
  /-- May it go on for ever? -/
  endless : Prop
  /-- How the waiting for sent actions may come out. -/
  reply : Except CmdFailure Unit → Prop
  /-- What may be waited for already. -/
  awaited : Pending S Action A .settled → Prop

namespace Terms

/-- Terms of a program that has not been started: there is nothing that it waits for. -/
def fresh (sends endless : Prop) (reply : Except CmdFailure Unit → Prop) : Terms S Action A :=
  ⟨sends, endless, reply, fun _ => False⟩

/-- Terms of a program that sends nothing. -/
def quiet (endless : Prop) : Terms S Action A := fresh False endless fun _ => True

/-- The first terms allow no more, and rely on no more, than the second. -/
structure Le (strict loose : Terms S Action A) : Prop where
  sends : strict.sends → loose.sends
  endless : strict.endless → loose.endless
  reply : ∀ reply, loose.reply reply → strict.reply reply
  awaited : ∀ caused, strict.awaited caused → loose.awaited caused

end Terms

/-- Every effect can be answered. -/
theorem Primitive.nonempty_reply (S : Type) [Nonempty S] (effect : Primitive) :
    Nonempty (effect.Reply S) := by
  cases effect with
  | readState => assumption
  | clear handle => exact ⟨false⟩
  | inspect => exact ⟨.tasks .zero 0⟩
  | wallClock => exact ⟨.int 0⟩
  | deadline delay => exact ⟨.zero⟩
  | _ => exact ⟨()⟩

namespace Pending

/-- The computation meets the terms and ends with a value that satisfies `post`. -/
def Meets (terms : Terms S Action A) : {answer : Answer ι} → (post : answer.Value Action → Prop) →
    Pending S Action A answer → Prop
  | _, post, .done value => post value
  | _, post, .call _ next => ∀ reply, (next reply).Meets terms post
  | _, post, .send _ _ next => terms.sends ∧ next.Meets terms post
  | _, post, .schedule _ _ task next =>
      task.Meets (.quiet True) (fun _ => True) ∧ ∀ handle, (next handle).Meets terms post
  | _, post, .spawn task next => task.Meets (.quiet True) (fun _ => True) ∧ next.Meets terms post
  | _, post, .wait _ next => next.Meets terms post
  | _, post, .resumeAt _ next => next.Meets terms post
  | _, post, .sendAll _ next =>
      terms.sends ∧ ∀ reply, terms.reply reply → (next reply).Meets terms post
  | _, post, .settling _ caused next =>
      (terms.sends ∧ ∀ index, terms.awaited (caused index)) ∧
        ∀ reply, terms.reply reply → (next reply).Meets terms post
  | _, post, @Pending.join _ _ _ _ _ child count _ children next =>
      ∃ posts : Fin count → child.Value Action → Prop,
        (∀ index, (children index).Meets terms (posts index)) ∧
          ∀ values, (∀ index, posts index (values index)) → (next values).Meets terms post
  | _, post, .advanceTo _ _ _ next => next.Meets terms post
  | _, _, .interval .. => terms.endless

/-- The computation sends nothing, whether it comes to an end or not. -/
abbrev Quiet (program : Pending S Action A answer) : Prop :=
  program.Meets (.quiet True) fun _ => True

variable {terms strict loose : Terms S Action A} {post : answer.Value Action → Prop}
variable {program : Pending S Action A answer}

theorem Meets.mono {weaker : answer.Value Action → Prop} (meets : program.Meets strict post)
    (le : strict.Le loose) (implies : ∀ value, post value → weaker value) :
    program.Meets loose weaker := by
  induction program with
  | done value => exact implies value meets
  | call effect next ih => exact fun reply => ih reply (meets reply) implies
  | send action keep next ih => exact ⟨le.sends meets.1, ih meets.2 implies⟩
  | schedule delay repeating task next _ ih =>
      exact ⟨meets.1, fun handle => ih handle (meets.2 handle) implies⟩
  | spawn task next _ ih => exact ⟨meets.1, ih meets.2 implies⟩
  | wait gate next ih => exact ih meets implies
  | resumeAt moment next ih => exact ih meets implies
  | sendAll actions next ih =>
      exact ⟨le.sends meets.1, fun reply expected =>
        ih reply (meets.2 reply (le.reply reply expected)) implies⟩
  | settling ticket caused next _ ih =>
      obtain ⟨⟨sends, awaited⟩, nextMeets⟩ := meets
      exact ⟨⟨le.sends sends, fun index => le.awaited _ (awaited index)⟩, fun reply expected =>
        ih reply (nextMeets reply (le.reply reply expected)) implies⟩
  | join ticket children next childrenIH ih =>
      obtain ⟨posts, childrenMeet, nextMeets⟩ := meets
      exact ⟨posts, fun index => childrenIH index (childrenMeet index) fun _ => id,
        fun values hold => ih values (nextMeets values hold) implies⟩
  | advanceTo target ticket driven next _ ih => exact ih meets implies
  | interval handle period due task running _ _ => exact le.endless meets

theorem Meets.bind {after : answer.Value Action → Pending S Action A other}
    {last : other.Value Action → Prop} (meets : program.Meets terms post)
    (afterMeets : ∀ value, post value → (after value).Meets terms last) :
    (program.bind after).Meets terms last := by
  induction program with
  | done value => exact afterMeets value meets
  | call effect next ih => exact fun reply => ih reply (meets reply) afterMeets
  | send action keep next ih => exact ⟨meets.1, ih meets.2 afterMeets⟩
  | schedule delay repeating task next _ ih =>
      exact ⟨meets.1, fun handle => ih handle (meets.2 handle) afterMeets⟩
  | spawn task next _ ih => exact ⟨meets.1, ih meets.2 afterMeets⟩
  | wait gate next ih => exact ih meets afterMeets
  | resumeAt moment next ih => exact ih meets afterMeets
  | sendAll actions next ih =>
      exact ⟨meets.1, fun reply expected => ih reply (meets.2 reply expected) afterMeets⟩
  | settling ticket caused next _ ih =>
      exact ⟨meets.1, fun reply expected => ih reply (meets.2 reply expected) afterMeets⟩
  | join ticket children next _ ih =>
      obtain ⟨posts, childrenMeet, nextMeets⟩ := meets
      exact ⟨posts, childrenMeet, fun values hold => ih values (nextMeets values hold) afterMeets⟩
  | advanceTo target ticket driven next _ ih => exact ih meets afterMeets
  | interval handle period due task running _ _ => exact meets

theorem Meets.withNoted {found : Noted α} {next : α → Pending S Action A answer}
    (meets : (next found.value).Meets terms post) : (withNoted found next).Meets terms post := by
  obtain ⟨notes, value⟩ := found
  induction notes with
  | nil => exact meets
  | cons note rest ih => exact fun _ => ih meets

theorem Meets.retag {sends endless : Prop} {reply : Except CmdFailure Unit → Prop}
    (tagger : A → Noted B) (meets : program.Meets (.fresh sends endless reply) post) :
    (program.retag tagger).Meets (.fresh sends endless reply) post := by
  induction program generalizing sends endless reply with
  | done value => exact meets
  | call effect next ih => exact fun reply => ih reply (meets reply)
  | send action keep next ih => exact ⟨meets.1, ih meets.2⟩
  | schedule delay repeating task next taskIH ih =>
      exact ⟨taskIH meets.1, fun handle => ih handle (meets.2 handle)⟩
  | spawn task next taskIH ih => exact ⟨taskIH meets.1, ih meets.2⟩
  | wait gate next ih => exact ih meets
  | resumeAt moment next ih => exact ih meets
  | sendAll actions next ih =>
      exact ⟨meets.1, fun reply expected => ih reply (meets.2 reply expected)⟩
  | settling ticket caused next _ ih =>
      exact ⟨⟨meets.1.1, fun index => (meets.1.2 index).elim⟩, fun reply expected =>
        ih reply (meets.2 reply expected)⟩
  | join ticket children next childrenIH ih =>
      obtain ⟨posts, childrenMeet, nextMeets⟩ := meets
      exact ⟨posts, fun index => childrenIH index (childrenMeet index),
        fun values hold => ih values (nextMeets values hold)⟩
  | advanceTo target ticket driven next _ ih => exact ih meets
  | interval handle period due task running _ _ => exact meets

/-- What a program does that may not send anything: it sends nothing, and what is left of it still
meets its terms. -/
theorem Meets.of_does (meets : program.Meets terms post) (silent : ¬ terms.sends)
    {journal : List (Act S A)} {left : Pending S Action A answer}
    (does : program.Does journal left) :
    left.Meets terms post ∧ sends journal = [] ∧ Accepted journal := by
  induction does with
  | rest program => exact ⟨meets, rfl, accepted_nil⟩
  | call reply _ ih =>
      obtain ⟨leftMeets, quiet, accepted⟩ := ih (meets reply)
      exact ⟨leftMeets, quiet, accepted_did.2 accepted⟩
  | send _ _ => exact absurd meets.1 silent
  | schedule handle _ ih =>
      obtain ⟨leftMeets, quiet, accepted⟩ := ih (meets.2 handle)
      exact ⟨leftMeets, quiet, accepted_did.2 accepted⟩
  | spawn _ ih =>
      obtain ⟨leftMeets, quiet, accepted⟩ := ih meets.2
      exact ⟨leftMeets, quiet, accepted_did.2 accepted⟩
  | wait _ ih =>
      obtain ⟨leftMeets, quiet, accepted⟩ := ih meets
      exact ⟨leftMeets, quiet, accepted_did.2 accepted⟩
  | resumeAt _ ih =>
      obtain ⟨leftMeets, quiet, accepted⟩ := ih meets
      exact ⟨leftMeets, quiet, accepted_did.2 accepted⟩
  | sending => exact absurd meets.1 silent
  | sendAll reply _ _ => exact absurd meets.1 silent
  | waiting => exact absurd meets.1.1 silent
  | settled reply _ _ => exact absurd meets.1.1 silent
  | joining _ interleaves ih =>
      obtain ⟨posts, childrenMeet, nextMeets⟩ := meets
      have each (index) := ih index (childrenMeet index)
      refine ⟨⟨posts, fun index => (each index).1, nextMeets⟩, ?_, ?_⟩
      · exact interleaves.sends_eq_nil fun index => (each index).2.1
      · exact interleaves.accepted fun index => (each index).2.2
  | join _ interleaves _ ih rest =>
      obtain ⟨posts, childrenMeet, nextMeets⟩ := meets
      have each (index) := ih index (childrenMeet index)
      obtain ⟨leftMeets, quiet, accepted⟩ := rest (nextMeets _ fun index => (each index).1)
      refine ⟨leftMeets, ?_, ?_⟩
      · rw [sends_append, quiet, interleaves.sends_eq_nil fun index => (each index).2.1]
        rfl
      · exact (accepted_append _ _).2
          ⟨interleaves.accepted fun index => (each index).2.2, accepted⟩
  | advancing => exact ⟨meets, rfl, accepted_nil⟩
  | advanceTo _ ih =>
      obtain ⟨leftMeets, quiet, accepted⟩ := ih meets
      exact ⟨leftMeets, quiet, accepted_did.2 accepted⟩
  | interval => exact ⟨meets, rfl, accepted_nil⟩

/-- A program that may not go on for ever can always be completed. -/
theorem Meets.exists_completes [Nonempty S] (meets : program.Meets terms post)
    (ends : ¬ terms.endless) (settles : ∃ reply, terms.reply reply) :
    ∃ journal value, program.Completes journal value ∧ post value := by
  obtain ⟨reply, expected⟩ := settles
  induction program with
  | done value => exact ⟨[], value, .rest _, meets⟩
  | call effect next ih =>
      obtain ⟨found⟩ := effect.nonempty_reply S
      obtain ⟨journal, value, completes, holds⟩ := ih found (meets found)
      exact ⟨_, value, .call found completes, holds⟩
  | send action keep next ih =>
      obtain ⟨journal, value, completes, holds⟩ := ih meets.2
      exact ⟨_, value, .send completes, holds⟩
  | schedule delay repeating task next _ ih =>
      obtain ⟨journal, value, completes, holds⟩ := ih .unissued (meets.2 .unissued)
      exact ⟨_, value, .schedule .unissued completes, holds⟩
  | spawn task next _ ih =>
      obtain ⟨journal, value, completes, holds⟩ := ih meets.2
      exact ⟨_, value, .spawn completes, holds⟩
  | wait gate next ih =>
      obtain ⟨journal, value, completes, holds⟩ := ih meets
      exact ⟨_, value, .wait completes, holds⟩
  | resumeAt moment next ih =>
      obtain ⟨journal, value, completes, holds⟩ := ih meets
      exact ⟨_, value, .resumeAt completes, holds⟩
  | sendAll actions next ih =>
      obtain ⟨journal, value, completes, holds⟩ := ih reply (meets.2 reply expected)
      exact ⟨_, value, .sendAll reply completes, holds⟩
  | settling ticket caused next _ ih =>
      obtain ⟨journal, value, completes, holds⟩ := ih reply (meets.2 reply expected)
      exact ⟨_, value, .settled reply completes, holds⟩
  | join ticket children next childrenIH ih =>
      obtain ⟨posts, childrenMeet, nextMeets⟩ := meets
      choose parts values childrenComplete hold using
        fun index => childrenIH index (childrenMeet index)
      obtain ⟨journal, value, completes, holds⟩ := ih values (nextMeets values hold)
      exact ⟨_, value, .join childrenComplete (.ofFn parts) completes, holds⟩
  | advanceTo target ticket driven next _ ih =>
      obtain ⟨journal, value, completes, holds⟩ := ih meets
      exact ⟨_, value, .advanceTo completes, holds⟩
  | interval handle period due task running _ _ => exact absurd meets ends

end Pending

namespace Prompt

/-- The computation meets the terms and ends with a value that satisfies `post`. -/
def Meets (terms : Terms S Action A) (post : α → Prop) : Prompt S Action A α → Prop
  | .done value => post value
  | .call _ next => ∀ reply, (next reply).Meets terms post
  | .send _ _ next => terms.sends ∧ next.Meets terms post
  | .schedule _ _ task next => task.Quiet ∧ ∀ handle, (next handle).Meets terms post
  | .spawn task next => task.Quiet ∧ next.Meets terms post

variable {terms strict loose : Terms S Action A} {post : α → Prop} {program : Prompt S Action A α}

theorem Meets.mono {weaker : α → Prop} (meets : program.Meets strict post) (le : strict.Le loose)
    (implies : ∀ value, post value → weaker value) : program.Meets loose weaker := by
  induction program with
  | done value => exact implies value meets
  | call effect next ih => exact fun reply => ih reply (meets reply)
  | send action keep next ih => exact ⟨le.sends meets.1, ih meets.2⟩
  | schedule delay repeating task next ih =>
      exact ⟨meets.1, fun handle => ih handle (meets.2 handle)⟩
  | spawn task next ih => exact ⟨meets.1, ih meets.2⟩

theorem Meets.bind {after : α → Prompt S Action A β} {last : β → Prop}
    (meets : program.Meets terms post)
    (afterMeets : ∀ value, post value → (after value).Meets terms last) :
    (program >>= after).Meets terms last := by
  induction program with
  | done value => exact afterMeets value meets
  | call effect next ih => exact fun reply => ih reply (meets reply)
  | send action keep next ih => exact ⟨meets.1, ih meets.2⟩
  | schedule delay repeating task next ih =>
      exact ⟨meets.1, fun handle => ih handle (meets.2 handle)⟩
  | spawn task next ih => exact ⟨meets.1, ih meets.2⟩

theorem Meets.retag {sends endless : Prop} {reply : Except CmdFailure Unit → Prop}
    (tagger : A → Noted B) (meets : program.Meets (.fresh sends endless reply) post) :
    (program.retag tagger).Meets (.fresh sends endless reply) post := by
  induction program with
  | done value => exact meets
  | call effect next ih => exact fun reply => ih reply (meets reply)
  | send action keep next ih => exact ⟨meets.1, ih meets.2⟩
  | schedule delay repeating task next ih =>
      exact ⟨meets.1.retag tagger, fun handle => ih handle (meets.2 handle)⟩
  | spawn task next ih => exact ⟨meets.1.retag tagger, ih meets.2⟩

theorem Meets.thenPending {after : α → Pending S Action A answer} {last : answer.Value Action → Prop}
    (meets : program.Meets terms post)
    (afterMeets : ∀ value, post value → (after value).Meets terms last) :
    (program.thenPending after).Meets terms last := by
  induction program with
  | done value => exact afterMeets value meets
  | call effect next ih => exact fun reply => ih reply (meets reply)
  | send action keep next ih => exact ⟨meets.1, ih meets.2⟩
  | schedule delay repeating task next ih =>
      exact ⟨meets.1, fun handle => ih handle (meets.2 handle)⟩
  | spawn task next ih => exact ⟨meets.1, ih meets.2⟩

theorem Meets.ofNoted {found : Noted α} (holds : post found.value) :
    (ofNoted found : Prompt S Action A α).Meets terms post := by
  obtain ⟨notes, value⟩ := found
  induction notes with
  | nil => exact holds
  | cons note rest ih => exact fun _ => ih holds

/-- What a computation sends, its terms allow, and its value satisfies the postcondition. -/
theorem Meets.of_ends (meets : program.Meets terms post) {journal : List (Act S A)} {value : α}
    (ends : program.Ends journal value) :
    post value ∧ (¬ terms.sends → sends journal = []) ∧ Accepted journal := by
  induction ends with
  | done value => exact ⟨meets, fun _ => rfl, accepted_nil⟩
  | call reply _ ih =>
      obtain ⟨holds, silent, accepted⟩ := ih (meets reply)
      exact ⟨holds, silent, accepted_did.2 accepted⟩
  | send _ ih =>
      obtain ⟨holds, _, accepted⟩ := ih meets.2
      exact ⟨holds, fun silent => absurd meets.1 silent, accepted_sent_cons.2 accepted⟩
  | schedule handle _ ih =>
      obtain ⟨holds, silent, accepted⟩ := ih (meets.2 handle)
      exact ⟨holds, silent, accepted_did.2 accepted⟩
  | spawn _ ih =>
      obtain ⟨holds, silent, accepted⟩ := ih meets.2
      exact ⟨holds, silent, accepted_did.2 accepted⟩

/-- A computation that is over in the call comes to an end. -/
theorem exists_ends [Nonempty S] (program : Prompt S Action A α) :
    ∃ journal value, program.Ends journal value := by
  induction program with
  | done value => exact ⟨[], value, .done value⟩
  | call effect next ih =>
      rcases effect.nonempty_reply S with ⟨reply⟩
      rcases ih reply with ⟨journal, value, ends⟩
      exact ⟨_, value, .call reply ends⟩
  | send action keep next ih =>
      rcases ih with ⟨journal, value, ends⟩
      exact ⟨_, value, .send ends⟩
  | schedule delay repeating task next ih =>
      rcases ih .unissued with ⟨journal, value, ends⟩
      exact ⟨_, value, .schedule .unissued ends⟩
  | spawn task next ih =>
      rcases ih with ⟨journal, value, ends⟩
      exact ⟨_, value, .spawn ends⟩

end Prompt

end EffectLoop
