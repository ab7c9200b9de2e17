import EffectLoop.Command.Program
import EffectLoop.Proofs.Program.Interleaving

/-!
# Histories of programs

A program on its own does not say what it is answered, when a gate is opened, or which of several
computations goes on first.  A history is one way in which all this may come about.  It is written
down as a journal: the effects with their replies, the actions sent, and how the waiting for what
they caused came out.

`Prompt.Ends` relates a computation that is over in the call to its journals and results.
`Pending.Does` relates a pending computation to what it may do next and to what is then left of it;
the journals of the children of a join interleave in any way.  What other computations do, such as
those that dispatched actions cause, is not part of the journal.
-/

namespace EffectLoop

/-- Something that a program does without sending anything. -/
inductive Deed (S : Type) where
  | performed (effect : Primitive) (reply : effect.Reply S)
  | scheduled (delay : Duration) (repeating : Bool) (handle : TimerHandle)
  | spawned
  /-- A gate let it go on. -/
  | passed (gate : String)
  /-- The clock let it go on. -/
  | reached (moment : Duration)
  | advanced (target : Duration)

/-- An entry of a journal. -/
inductive Act (S A : Type) where
  | did (deed : Deed S)
  | sent (action : Noted A)
  /-- What sent actions caused is over. -/
  | answered (reply : Except CmdFailure Unit)

variable {S ι : Type} {Action : ι → Type} {A B α β : Type} {answer other : Answer ι}

namespace Act

/-- What was done, if the entry is of that sort. -/
def did? : Act S A → Option (Deed S)
  | did deed => some deed
  | _ => none

/-- The action that was sent, if the entry is of that sort. -/
def sent? : Act S A → Option A
  | sent action => some action.value
  | _ => none

/-- Tag the action that was sent. -/
def retag (tagger : A → Noted B) : Act S A → Act S B
  | did deed => did deed
  | sent action => sent (action >>= tagger)
  | answered reply => answered reply

/-- Leaving notes. -/
def notes (values : List Json) : List (Act S A) :=
  values.map fun value => did (.performed (.note value) ())

/-- Sending actions without notes, with a good end. -/
def dispatching (actions : List A) : List (Act S A) :=
  (actions.map pure).map sent ++ [answered (.ok ())]

end Act

/-! ## Journals -/

/-- All that was done, in order. -/
def deeds (journal : List (Act S A)) : List (Deed S) := journal.filterMap Act.did?

/-- The actions sent, in order. -/
def sends (journal : List (Act S A)) : List A := journal.filterMap Act.sent?

/-- Whatever was sent, what it caused came to a good end. -/
def Accepted (journal : List (Act S A)) : Prop :=
  ∀ reply, Act.answered reply ∈ journal → reply = .ok ()

section Journals

variable {journal : List (Act S A)}

theorem Accepted.of_subset {part : List (Act S A)} (accepted : Accepted journal)
    (subset : part ⊆ journal) : Accepted part :=
  fun reply within => accepted reply (subset within)

@[simp] theorem accepted_nil : Accepted ([] : List (Act S A)) := by
  simp [Accepted]

@[simp] theorem accepted_did {deed : Deed S} :
    Accepted (.did deed :: journal) ↔ Accepted journal := by
  simp [Accepted]

@[simp] theorem accepted_sent_cons {action : Noted A} :
    Accepted (.sent action :: journal) ↔ Accepted journal := by
  simp [Accepted]

@[simp] theorem accepted_answered {reply : Except CmdFailure Unit} :
    Accepted (.answered reply :: journal) ↔ reply = .ok () ∧ Accepted journal := by
  simp [Accepted]

@[simp] theorem sends_did {deed : Deed S} : sends (.did deed :: journal) = sends journal := rfl

@[simp] theorem deeds_did {deed : Deed S} :
    deeds (.did deed :: journal) = deed :: deeds journal := rfl

variable (journal) (first second : List (Act S A)) (tagger : A → Noted B)

@[simp] theorem deeds_append : deeds (first ++ second) = deeds first ++ deeds second :=
  List.filterMap_append

@[simp] theorem sends_append : sends (first ++ second) = sends first ++ sends second :=
  List.filterMap_append

@[simp] theorem accepted_append :
    Accepted (first ++ second) ↔ Accepted first ∧ Accepted second := by
  simp only [Accepted, List.mem_append, or_imp, forall_and]

@[simp] theorem deeds_retag : deeds (journal.map (Act.retag tagger)) = deeds journal := by
  rw [deeds, List.filterMap_map]
  congr 1
  funext act
  cases act <;> rfl

@[simp] theorem sends_retag :
    sends (journal.map (Act.retag tagger)) =
      (sends journal).map fun action => (tagger action).value := by
  rw [sends, sends, List.filterMap_map, List.map_filterMap]
  congr 1
  funext act
  cases act <;> rfl

@[simp] theorem accepted_retag : Accepted (journal.map (Act.retag tagger)) ↔ Accepted journal := by
  have same (reply : Except CmdFailure Unit) (act : Act S A) :
      act.retag tagger = .answered reply ↔ act = .answered reply := by
    cases act <;> simp [Act.retag]
  simp only [Accepted, List.mem_map, same, exists_eq_right]

@[simp] theorem sends_notes (values : List Json) : sends (Act.notes values : List (Act S A)) = [] := by
  induction values with
  | nil => rfl
  | cons value rest ih => exact ih

@[simp] theorem deeds_sent (actions : List (Noted A)) :
    deeds (actions.map Act.sent : List (Act S A)) = [] := by
  induction actions with
  | nil => rfl
  | cons action rest ih => exact ih

@[simp] theorem sends_sent (actions : List (Noted A)) :
    sends (actions.map Act.sent : List (Act S A)) = actions.map Noted.value := by
  induction actions with
  | nil => rfl
  | cons action rest ih =>
      rw [List.map_cons, List.map_cons, ← ih]
      rfl

@[simp] theorem accepted_sent (actions : List (Noted A)) :
    Accepted (actions.map Act.sent : List (Act S A)) := by
  simp [Accepted]

@[simp] theorem deeds_dispatching (actions : List A) :
    deeds (Act.dispatching actions : List (Act S A)) = [] := by
  rw [Act.dispatching, deeds_append, deeds_sent]
  rfl

@[simp] theorem sends_dispatching (actions : List A) :
    sends (Act.dispatching actions : List (Act S A)) = actions := by
  rw [Act.dispatching, sends_append, sends_sent, List.map_map]
  simp [Function.comp_def, sends, Act.sent?]

end Journals

section Interleaved

variable {count : Nat} {parts : Fin count → List (Act S A)} {journal : List (Act S A)}

theorem Interleaves.accepted (interleaves : Interleaves parts journal)
    (each : ∀ index, Accepted (parts index)) : Accepted journal := by
  intro reply within
  obtain ⟨part, listed, inside⟩ := List.mem_flatten.1 (interleaves.perm.subset within)
  obtain ⟨index, rfl⟩ := List.mem_ofFn.1 listed
  exact each index reply inside

theorem Interleaves.sends_eq_nil (interleaves : Interleaves parts journal)
    (each : ∀ index, sends (parts index) = []) : sends journal = [] := by
  refine List.filterMap_eq_nil_iff.2 fun act within => ?_
  obtain ⟨part, listed, inside⟩ := List.mem_flatten.1 (interleaves.perm.subset within)
  obtain ⟨index, rfl⟩ := List.mem_ofFn.1 listed
  exact List.filterMap_eq_nil_iff.1 (each index) act inside

end Interleaved

/-! ## Computations that are over in the call -/

namespace Prompt

/-- The computation may do what the journal says and end with the value. -/
inductive Ends : Prompt S Action A α → List (Act S A) → α → Prop where
  | done (value : α) : Ends (.done value) [] value
  | call {effect : Primitive} {next : effect.Reply S → Prompt S Action A α} {journal value}
      (reply : effect.Reply S) : Ends (next reply) journal value →
      Ends (.call effect next) (.did (.performed effect reply) :: journal) value
  | send {action keep} {next : Prompt S Action A α} {journal value} : Ends next journal value →
      Ends (.send action keep next) (.sent action :: journal) value
  | schedule {delay repeating task} {next : TimerHandle → Prompt S Action A α} {journal value}
      (handle : TimerHandle) : Ends (next handle) journal value →
      Ends (.schedule delay repeating task next)
        (.did (.scheduled delay repeating handle) :: journal) value
  | spawn {task} {next : Prompt S Action A α} {journal value} : Ends next journal value →
      Ends (.spawn task next) (.did .spawned :: journal) value

namespace Ends

theorem pure_iff {value found : α} {journal : List (Act S A)} :
    Ends (pure value : Prompt S Action A α) journal found ↔ journal = [] ∧ found = value := by
  constructor
  · intro ends
    cases ends
    exact ⟨rfl, rfl⟩
  · rintro ⟨rfl, rfl⟩
    exact .done _

theorem bind_iff {first : Prompt S Action A α} {after : α → Prompt S Action A β}
    {journal : List (Act S A)} {found : β} :
    Ends (first >>= after) journal found ↔
      ∃ earlier value later, Ends first earlier value ∧ Ends (after value) later found ∧
        journal = earlier ++ later := by
  change Ends (first.bind after) journal found ↔ _
  constructor
  · intro ends
    induction first generalizing journal with
    | done value => exact ⟨[], value, journal, .done value, ends, rfl⟩
    | call effect next ih =>
        cases ends with
        | call reply ends =>
            obtain ⟨earlier, value, later, first, after, rfl⟩ := ih reply ends
            exact ⟨_, value, later, .call reply first, after, rfl⟩
    | send action keep next ih =>
        cases ends with
        | send ends =>
            obtain ⟨earlier, value, later, first, after, rfl⟩ := ih ends
            exact ⟨_, value, later, .send first, after, rfl⟩
    | schedule delay repeating task next ih =>
        cases ends with
        | schedule handle ends =>
            obtain ⟨earlier, value, later, first, after, rfl⟩ := ih handle ends
            exact ⟨_, value, later, .schedule handle first, after, rfl⟩
    | spawn task next ih =>
        cases ends with
        | spawn ends =>
            obtain ⟨earlier, value, later, first, after, rfl⟩ := ih ends
            exact ⟨_, value, later, .spawn first, after, rfl⟩
  · rintro ⟨earlier, value, later, ends, after, rfl⟩
    induction ends with
    | done value => exact after
    | call reply _ ih => exact .call reply (ih after)
    | send _ ih => exact .send (ih after)
    | schedule handle _ ih => exact .schedule handle (ih after)
    | spawn _ ih => exact .spawn (ih after)

/-- A computation whose sent actions are tagged does the same, with tagged actions. -/
theorem of_retag {tagger : A → Noted B} {program : Prompt S Action A α}
    {journal : List (Act S B)} {value : α} (ends : Ends (program.retag tagger) journal value) :
    ∃ source, Ends program source value ∧ source.map (Act.retag tagger) = journal := by
  induction program generalizing journal with
  | done found =>
      cases ends
      exact ⟨[], .done _, rfl⟩
  | call effect next ih =>
      cases ends with
      | call reply ends =>
          obtain ⟨source, same, rfl⟩ := ih reply ends
          exact ⟨_, .call reply same, rfl⟩
  | send action keep next ih =>
      cases ends with
      | send ends =>
          obtain ⟨source, same, rfl⟩ := ih ends
          exact ⟨_, .send same, rfl⟩
  | schedule delay repeating task next ih =>
      cases ends with
      | schedule handle ends =>
          obtain ⟨source, same, rfl⟩ := ih handle ends
          exact ⟨_, .schedule handle same, rfl⟩
  | spawn task next ih =>
      cases ends with
      | spawn ends =>
          obtain ⟨source, same, rfl⟩ := ih ends
          exact ⟨_, .spawn same, rfl⟩

theorem ofNoted_iff {found : Noted α} {journal : List (Act S A)} {value : α} :
    Ends (ofNoted found : Prompt S Action A α) journal value ↔
      journal = Act.notes found.notes ∧ value = found.value := by
  obtain ⟨notes, held⟩ := found
  induction notes generalizing journal with
  | nil => exact pure_iff
  | cons note rest ih =>
      constructor
      · intro ends
        cases ends with
        | call reply ends =>
            obtain ⟨rfl, rfl⟩ := ih.1 ends
            exact ⟨rfl, rfl⟩
      · rintro ⟨rfl, rfl⟩
        exact @Ends.call _ _ _ _ _ (.note note) (fun _ => ofNoted ⟨rest, value⟩) _ _ ()
          (ih.2 ⟨rfl, rfl⟩)

end Ends

end Prompt

/-! ## Computations driven by polls -/

namespace Pending

/-- The computation may do what the journal says, and then this is left of it.  The computations
that sent actions cause, that a clock drives, or that fire are not part of the program; about them
nothing is said. -/
inductive Does : {answer : Answer ι} → Pending S Action A answer → List (Act S A) →
    Pending S Action A answer → Prop where
  | rest {answer : Answer ι} (program : Pending S Action A answer) : Does program [] program
  | call {answer : Answer ι} {effect : Primitive}
      {next : effect.Reply S → Pending S Action A answer} {journal left} (reply : effect.Reply S) :
      Does (next reply) journal left →
      Does (.call effect next) (.did (.performed effect reply) :: journal) left
  | send {answer : Answer ι} {action keep} {next : Pending S Action A answer} {journal left} :
      Does next journal left → Does (.send action keep next) (.sent action :: journal) left
  | schedule {answer : Answer ι} {delay repeating task}
      {next : TimerHandle → Pending S Action A answer} {journal left} (handle : TimerHandle) :
      Does (next handle) journal left →
      Does (.schedule delay repeating task next)
        (.did (.scheduled delay repeating handle) :: journal) left
  | spawn {answer : Answer ι} {task} {next : Pending S Action A answer} {journal left} :
      Does next journal left → Does (.spawn task next) (.did .spawned :: journal) left
  | wait {answer : Answer ι} {gate} {next : Pending S Action A answer} {journal left} :
      Does next journal left → Does (.wait gate next) (.did (.passed gate) :: journal) left
  | resumeAt {answer : Answer ι} {moment} {next : Pending S Action A answer} {journal left} :
      Does next journal left → Does (.resumeAt moment next) (.did (.reached moment) :: journal) left
  /-- The actions are sent, and what they cause is waited for. -/
  | sending {answer : Answer ι} {actions : List (Noted A)} {count : Nat} {ticket}
      {caused : Fin count → Pending S Action A .settled}
      {next : Except CmdFailure Unit → Pending S Action A answer} :
      Does (.sendAll actions next) (actions.map .sent) (.settling ticket caused next)
  | sendAll {answer : Answer ι} {actions : List (Noted A)}
      {next : Except CmdFailure Unit → Pending S Action A answer} {journal left}
      (reply : Except CmdFailure Unit) : Does (next reply) journal left →
      Does (.sendAll actions next) (actions.map .sent ++ .answered reply :: journal) left
  | waiting {answer : Answer ι} {count further : Nat} {ticket other}
      {caused : Fin count → Pending S Action A .settled}
      {left : Fin further → Pending S Action A .settled}
      {next : Except CmdFailure Unit → Pending S Action A answer} :
      Does (.settling ticket caused next) [] (.settling other left next)
  | settled {answer : Answer ι} {count : Nat} {ticket}
      {caused : Fin count → Pending S Action A .settled}
      {next : Except CmdFailure Unit → Pending S Action A answer} {journal left}
      (reply : Except CmdFailure Unit) : Does (next reply) journal left →
      Does (.settling ticket caused next) (.answered reply :: journal) left
  /-- The children go on. -/
  | joining {answer child : Answer ι} {count : Nat} {ticket other}
      {children left : Fin count → Pending S Action A child}
      {next : (Fin count → child.Value Action) → Pending S Action A answer}
      {parts : Fin count → List (Act S A)} {journal} :
      (∀ index, Does (children index) (parts index) (left index)) → Interleaves parts journal →
      Does (.join ticket children next) journal (.join other left next)
  /-- The children go on to their ends. -/
  | join {answer child : Answer ι} {count : Nat} {ticket}
      {children : Fin count → Pending S Action A child} {values : Fin count → child.Value Action}
      {next : (Fin count → child.Value Action) → Pending S Action A answer}
      {parts : Fin count → List (Act S A)} {together journal left} :
      (∀ index, Does (children index) (parts index) (.done (values index))) →
      Interleaves parts together → Does (next values) journal left →
      Does (.join ticket children next) (together ++ journal) left
  | advancing {answer : Answer ι} {count further : Nat} {target ticket other}
      {driven : Fin count → Pending S Action A .finished}
      {left : Fin further → Pending S Action A .finished} {next : Pending S Action A answer} :
      Does (.advanceTo target ticket driven next) [] (.advanceTo target other left next)
  | advanceTo {answer : Answer ι} {count : Nat} {target ticket}
      {driven : Fin count → Pending S Action A .finished} {next : Pending S Action A answer}
      {journal left} : Does next journal left →
      Does (.advanceTo target ticket driven next) (.did (.advanced target) :: journal) left
  | interval {answer : Answer ι} {count further : Nat} {handle period due later task}
      {running : Fin count → Pending S Action A .finished}
      {left : Fin further → Pending S Action A .finished} :
      Does (.interval handle period due task running : Pending S Action A answer) []
        (.interval handle period later task left)

namespace Does

theorem trans {first middle last : Pending S Action A answer} {earlier later : List (Act S A)}
    (before : Does first earlier middle) (after : Does middle later last) :
    Does first (earlier ++ later) last := by
  induction before generalizing later with
  | rest program => exact after
  | call reply _ ih => exact .call reply (ih after)
  | send _ ih => exact .send (ih after)
  | schedule handle _ ih => exact .schedule handle (ih after)
  | spawn _ ih => exact .spawn (ih after)
  | wait _ ih => exact .wait (ih after)
  | resumeAt _ ih => exact .resumeAt (ih after)
  | sending =>
      cases after with
      | rest =>
          rw [List.append_nil]
          exact .sending
      | waiting =>
          rw [List.append_nil]
          exact .sending
      | settled reply after => exact .sendAll reply after
  | sendAll reply _ ih =>
      rw [List.append_assoc]
      exact .sendAll reply (ih after)
  | waiting =>
      cases after with
      | rest => exact .waiting
      | waiting => exact .waiting
      | settled reply after => exact .settled reply after
  | settled reply _ ih => exact .settled reply (ih after)
  | joining does interleaves ih =>
      cases after with
      | rest =>
          rw [List.append_nil]
          exact .joining does interleaves
      | joining further also =>
          exact .joining (fun index => ih index (further index)) (interleaves.append also)
      | join further also after =>
          rw [← List.append_assoc]
          exact .join (fun index => ih index (further index)) (interleaves.append also) after
  | join does interleaves _ _ ih =>
      rw [List.append_assoc]
      exact .join does interleaves (ih after)
  | advancing =>
      cases after with
      | rest => exact .advancing
      | advancing => exact .advancing
      | advanceTo after => exact .advanceTo after
  | advanceTo _ ih => exact .advanceTo (ih after)
  | interval =>
      cases after with
      | rest => exact .interval
      | interval => exact .interval

end Does

/-- The computation may do what the journal says and end with the value. -/
abbrev Completes (program : Pending S Action A answer) (journal : List (Act S A))
    (value : answer.Value Action) : Prop :=
  Does program journal (.done value)

namespace Completes

variable {journal : List (Act S A)}

theorem done_iff {value found : answer.Value Action} :
    Completes (.done value : Pending S Action A answer) journal found ↔
      journal = [] ∧ found = value := by
  constructor
  · intro completes
    cases completes
    exact ⟨rfl, rfl⟩
  · rintro ⟨rfl, rfl⟩
    exact .rest _

theorem of_call {effect : Primitive} {next : effect.Reply S → Pending S Action A answer}
    {value : answer.Value Action} (completes : Completes (.call effect next) journal value) :
    ∃ reply rest, Completes (next reply) rest value ∧
      journal = .did (.performed effect reply) :: rest := by
  cases completes with
  | call reply completes => exact ⟨reply, _, completes, rfl⟩

theorem of_sendAll {actions : List (Noted A)}
    {next : Except CmdFailure Unit → Pending S Action A answer} {value : answer.Value Action}
    (completes : Completes (.sendAll actions next) journal value) :
    ∃ reply rest, Completes (next reply) rest value ∧
      journal = actions.map .sent ++ .answered reply :: rest := by
  cases completes with
  | sendAll reply completes => exact ⟨reply, _, completes, rfl⟩

theorem of_dispatch {actions : List A}
    {next : Except CmdFailure Unit → Pending S Action A answer} {value : answer.Value Action}
    (completes : Completes (.sendAll (actions.map pure) next) journal value)
    (accepted : Accepted journal) :
    ∃ rest, Completes (next (.ok ())) rest value ∧ Accepted rest ∧
      journal = Act.dispatching actions ++ rest := by
  rcases of_sendAll completes with ⟨reply, rest, last, rfl⟩
  rcases accepted_answered.1 ((accepted_append _ _).1 accepted).2 with ⟨rfl, restAccepted⟩
  refine ⟨rest, last, restAccepted, ?_⟩
  rw [Act.dispatching, List.append_assoc]
  rfl

theorem of_join {child : Answer ι} {count : Nat} {ticket : Option Nat}
    {children : Fin count → Pending S Action A child}
    {next : (Fin count → child.Value Action) → Pending S Action A answer}
    {value : answer.Value Action} (completes : Completes (.join ticket children next) journal value) :
    ∃ parts values together rest, (∀ index, Completes (children index) (parts index) (values index)) ∧
      Interleaves parts together ∧ Completes (next values) rest value ∧
      journal = together ++ rest := by
  cases completes with
  | join completes interleaves after =>
      exact ⟨_, _, _, _, completes, interleaves, after, rfl⟩

/-- What is done after another computation is done when that one has ended. -/
theorem of_bind {first : Pending S Action A answer}
    {after : answer.Value Action → Pending S Action A other} {found : other.Value Action}
    (completes : Completes (first.bind after) journal found) :
    ∃ earlier value later, Completes first earlier value ∧ Completes (after value) later found ∧
      journal = earlier ++ later := by
  induction first generalizing journal with
  | done value => exact ⟨[], value, journal, .rest _, completes, rfl⟩
  | call effect next ih =>
      cases completes with
      | call reply completes =>
          obtain ⟨earlier, value, later, first, after, rfl⟩ := ih reply completes
          exact ⟨_, value, later, .call reply first, after, rfl⟩
  | send action keep next ih =>
      cases completes with
      | send completes =>
          obtain ⟨earlier, value, later, first, after, rfl⟩ := ih completes
          exact ⟨_, value, later, .send first, after, rfl⟩
  | schedule delay repeating task next _ ih =>
      cases completes with
      | schedule handle completes =>
          obtain ⟨earlier, value, later, first, after, rfl⟩ := ih handle completes
          exact ⟨_, value, later, .schedule handle first, after, rfl⟩
  | spawn task next _ ih =>
      cases completes with
      | spawn completes =>
          obtain ⟨earlier, value, later, first, after, rfl⟩ := ih completes
          exact ⟨_, value, later, .spawn first, after, rfl⟩
  | wait gate next ih =>
      cases completes with
      | wait completes =>
          obtain ⟨earlier, value, later, first, after, rfl⟩ := ih completes
          exact ⟨_, value, later, .wait first, after, rfl⟩
  | resumeAt moment next ih =>
      cases completes with
      | resumeAt completes =>
          obtain ⟨earlier, value, later, first, after, rfl⟩ := ih completes
          exact ⟨_, value, later, .resumeAt first, after, rfl⟩
  | sendAll actions next ih =>
      cases completes with
      | sendAll reply completes =>
          obtain ⟨earlier, value, later, first, after, rfl⟩ := ih reply completes
          exact ⟨_, value, later, .sendAll reply first, after, by simp⟩
  | settling ticket caused next _ ih =>
      cases completes with
      | settled reply completes =>
          obtain ⟨earlier, value, later, first, after, rfl⟩ := ih reply completes
          exact ⟨_, value, later, .settled reply first, after, rfl⟩
  | join ticket children next _ ih =>
      cases completes with
      | join ends interleaves completes =>
          obtain ⟨earlier, value, later, first, after, rfl⟩ := ih _ completes
          exact ⟨_, value, later, .join ends interleaves first, after, by simp⟩
  | advanceTo target ticket driven next _ ih =>
      cases completes with
      | advanceTo completes =>
          obtain ⟨earlier, value, later, first, after, rfl⟩ := ih completes
          exact ⟨_, value, later, .advanceTo first, after, rfl⟩
  | interval handle period due task running _ _ => cases completes

theorem of_thenPending {first : Prompt S Action A α} {after : α → Pending S Action A answer}
    {found : answer.Value Action} (completes : Completes (first.thenPending after) journal found) :
    ∃ earlier value later, first.Ends earlier value ∧ Completes (after value) later found ∧
      journal = earlier ++ later := by
  induction first generalizing journal with
  | done value => exact ⟨[], value, journal, .done value, completes, rfl⟩
  | call effect next ih =>
      cases completes with
      | call reply completes =>
          obtain ⟨earlier, value, later, first, after, rfl⟩ := ih reply completes
          exact ⟨_, value, later, .call reply first, after, rfl⟩
  | send action keep next ih =>
      cases completes with
      | send completes =>
          obtain ⟨earlier, value, later, first, after, rfl⟩ := ih completes
          exact ⟨_, value, later, .send first, after, rfl⟩
  | schedule delay repeating task next ih =>
      cases completes with
      | schedule handle completes =>
          obtain ⟨earlier, value, later, first, after, rfl⟩ := ih handle completes
          exact ⟨_, value, later, .schedule handle first, after, rfl⟩
  | spawn task next ih =>
      cases completes with
      | spawn completes =>
          obtain ⟨earlier, value, later, first, after, rfl⟩ := ih completes
          exact ⟨_, value, later, .spawn first, after, rfl⟩

theorem of_withNoted {found : Noted α} {next : α → Pending S Action A answer}
    {value : answer.Value Action} (completes : Completes (withNoted found next) journal value) :
    ∃ rest, Completes (next found.value) rest value ∧ journal = Act.notes found.notes ++ rest := by
  obtain ⟨notes, held⟩ := found
  induction notes generalizing journal with
  | nil => exact ⟨journal, completes, rfl⟩
  | cons note rest ih =>
      obtain ⟨⟨⟩, later, onward, rfl⟩ := of_call completes
      obtain ⟨last, ended, rfl⟩ := ih onward
      exact ⟨last, ended, rfl⟩

/-- A computation whose sent actions are tagged does the same, with tagged actions. -/
theorem of_retag {tagger : A → Noted B} {program : Pending S Action A answer}
    {journal : List (Act S B)} {value : answer.Value Action}
    (completes : Completes (program.retag tagger) journal value) :
    ∃ source, Completes program source value ∧ source.map (Act.retag tagger) = journal := by
  induction program generalizing journal with
  | done found =>
      cases completes
      exact ⟨[], .rest _, rfl⟩
  | call effect next ih =>
      cases completes with
      | call reply completes =>
          obtain ⟨source, same, rfl⟩ := ih reply completes
          exact ⟨_, .call reply same, rfl⟩
  | send action keep next ih =>
      cases completes with
      | send completes =>
          obtain ⟨source, same, rfl⟩ := ih completes
          exact ⟨_, .send same, rfl⟩
  | schedule delay repeating task next _ ih =>
      cases completes with
      | schedule handle completes =>
          obtain ⟨source, same, rfl⟩ := ih handle completes
          exact ⟨_, .schedule handle same, rfl⟩
  | spawn task next _ ih =>
      cases completes with
      | spawn completes =>
          obtain ⟨source, same, rfl⟩ := ih completes
          exact ⟨_, .spawn same, rfl⟩
  | wait gate next ih =>
      cases completes with
      | wait completes =>
          obtain ⟨source, same, rfl⟩ := ih completes
          exact ⟨_, .wait same, rfl⟩
  | resumeAt moment next ih =>
      cases completes with
      | resumeAt completes =>
          obtain ⟨source, same, rfl⟩ := ih completes
          exact ⟨_, .resumeAt same, rfl⟩
  | sendAll actions next ih =>
      cases completes with
      | sendAll reply completes =>
          obtain ⟨source, same, rfl⟩ := ih reply completes
          exact ⟨_, .sendAll reply same, by simp [Function.comp_def, Act.retag]⟩
  | settling ticket caused next _ ih =>
      cases completes with
      | settled reply completes =>
          obtain ⟨source, same, rfl⟩ := ih reply completes
          exact ⟨_, .settled reply same, rfl⟩
  | join ticket children next childrenIH ih =>
      cases completes with
      | join ends interleaves completes =>
          choose sources sourceEnds sourceSame using fun index => childrenIH index (ends index)
          obtain ⟨together, joined, rfl⟩ :=
            Interleaves.exists_of_map (Act.retag tagger) (funext sourceSame ▸ interleaves)
          obtain ⟨source, same, rfl⟩ := ih _ completes
          exact ⟨_, .join sourceEnds joined same, List.map_append⟩
  | advanceTo target ticket driven next _ ih =>
      cases completes with
      | advanceTo completes =>
          obtain ⟨source, same, rfl⟩ := ih completes
          exact ⟨_, .advanceTo same, rfl⟩
  | interval handle period due task running _ _ => cases completes

end Completes

end Pending

end EffectLoop
