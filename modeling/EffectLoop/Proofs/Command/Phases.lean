import EffectLoop.Proofs.Command.Fusion
import EffectLoop.Proofs.World.Driving

/-!
# The phases of a command in a list

Once a command of a list is started, its follow-up actions are awaited.  Without `batch` they are
dispatched when they are known, and all that they cause is awaited before the command counts as over.
`Phase.Step` says what a single poll does to a phase, in which world it does it and which world it
leaves.

Sequential and parallel lists write the programs of their commands alike: a phase and what is to happen
with the command's actions in the end determine the program (`Phase.program`).  A poll of that program
takes steps of the phase, and if the command is over then, it goes on in the very world that the last of
them has left (`Phase.poll_program`).  If the follow-up actions are still awaited, it begins with a step
(`Phase.poll_awaited`).

A context consists of what it makes of dispatched actions and of the taggers that actions pass on the
way to it.
-/

namespace EffectLoop

variable {S ι : Type} {Action : ι → Type} {A : Type} {alphabet : ι}

/-- Where a command of a list stands, once it is started. -/
inductive Phase (S : Type) {ι : Type} (Action : ι → Type) (A : Type) (alphabet : ι) where
  /-- Its follow-up actions are awaited. -/
  | awaited (follow : FollowUp S Action A alphabet)
  /-- Its actions are dispatched, and what they cause is awaited. -/
  | settling (actions : List (Action alphabet)) {count : Nat} (caused : Fin count → Settling S Action A)
  /-- It is over, with its actions or with the failure of its future or of a dispatch. -/
  | final (result : Except CmdFailure (List (Action alphabet)))

namespace Phase

/-- The command waits for something that is not over. -/
def Waits : Phase S Action A alphabet → Prop
  | awaited follow => Pending.result? follow = none
  | settling _ caused => ∃ index, (caused index).result? = none
  | final _ => False

variable (dispatch : Dispatcher S Action A) (tag : Action alphabet → Noted A) (batch : Bool)

/-- What happens with a command of a list.  A step notes the actions that are dispatched in it. -/
inductive Step : Phase S Action A alphabet × World S Action A → List (List (Action alphabet)) →
    Phase S Action A alphabet × World S Action A → Prop where
  /-- Its future is polled and is not over. -/
  | waits {follow left world later} (depth : Nat) (waiter : Waiter) :
      Pending.poll (.ofDispatch dispatch depth) waiter follow world = (.ok left, later) →
      Pending.result? left = none → Step (awaited follow, world) [] (awaited left, later)
  /-- Its future fails. -/
  | fails {follow cause world later} (depth : Nat) (waiter : Waiter) :
      Pending.poll (.ofDispatch dispatch depth) waiter follow world =
        (.ok (FollowUp.failed cause), later) →
      Step (awaited follow, world) [] (final (.error cause), later)
  /-- Its future gives actions, which are collected. -/
  | collects {follow actions world later} (depth : Nat) (waiter : Waiter) : batch = true →
      Pending.poll (.ofDispatch dispatch depth) waiter follow world =
        (.ok (FollowUp.now actions), later) →
      Step (awaited follow, world) [] (final (.ok actions), later)
  /-- Its future gives actions, and all of them are dispatched at once, in order. -/
  | dispatches {follow actions caused world middle later} (depth inner : Nat) (waiter : Waiter) :
      batch = false →
      Pending.poll (.ofDispatch dispatch depth) waiter follow world =
        (.ok (FollowUp.now actions), middle) →
      (actions.map tag).mapM (Engine.ofDispatch dispatch inner).start middle = (.ok caused, later) →
      Step (awaited follow, world) [actions] (settling actions caused.get, later)
  /-- What one of its actions causes is polled. -/
  | settles {actions count} {caused : Fin count → Settling S Action A} {left world later}
      (depth : Nat) (waiter : Waiter) (index : Fin count) :
      (caused index).poll (.ofDispatch dispatch depth) waiter world = (.ok left, later) →
      Step (settling actions caused, world) []
        (settling actions (Function.update caused index left), later)
  /-- All that its actions cause is over. -/
  | ends {actions count} {caused : Fin count → Settling S Action A} {replies world} :
      (∀ index, caused index = .done (replies index)) →
      Step (settling actions caused, world) []
        (final ((firstFailure replies).map fun _ => actions), world)

/-- What becomes of a command in a list. -/
abbrev Goes (env : World S Action A → World S Action A → Prop) :
    Phase S Action A alphabet × World S Action A → List (List (Action alphabet)) →
    Phase S Action A alphabet × World S Action A → Prop :=
  Runs env (Step dispatch tag batch)

variable {dispatch tag batch}

/-! ## Programs -/

section Programs

variable (tag) (batch) (next : List (Action alphabet) → FollowUp S Action A alphabet)

/-- What happens with the actions when what they cause is over. -/
def settled (actions : List (Action alphabet)) :
    Except CmdFailure Unit → FollowUp S Action A alphabet
  | .ok () => next actions
  | .error cause => .failed cause

/-- What happens with the actions when they are known. -/
def arrived (actions : List (Action alphabet)) : FollowUp S Action A alphabet :=
  if batch then next actions else .sendAll (actions.map tag) (settled next actions)

/-- The program of a command in a list, after which it goes on with its actions. -/
def program (ticket : Option Nat) : Phase S Action A alphabet → FollowUp S Action A alphabet
  | awaited follow => follow.andThen (arrived tag batch next)
  | settling actions caused => .settling ticket caused (settled next actions)
  | final (.ok actions) => next actions
  | final (.error cause) => .failed cause

end Programs

theorem result?_program {phase : Phase S Action A alphabet} (waits : phase.Waits)
    (next : List (Action alphabet) → FollowUp S Action A alphabet) (ticket : Option Nat) :
    Pending.result? (phase.program tag batch next ticket) = none := by
  cases phase with
  | awaited follow => exact Pending.result?_bind waits _
  | settling actions caused => rfl
  | final result => exact waits.elim

variable {env : World S Action A → World S Action A → Prop}
variable {next : List (Action alphabet) → FollowUp S Action A alphabet}

/-- How a poll of a command's program ends. -/
inductive Polled (dispatch : Dispatcher S Action A) (tag : Action alphabet → Noted A) (batch : Bool)
    (env : World S Action A → World S Action A → Prop)
    (next : List (Action alphabet) → FollowUp S Action A alphabet) (depth : Nat) (waiter : Waiter)
    (start : Phase S Action A alphabet × World S Action A) :
    FollowUp S Action A alphabet → World S Action A → Prop where
  /-- It waits. -/
  | waits (phase) {blocks later} (ticket : Option Nat) :
      Goes dispatch tag batch env start blocks (phase, later) →
      phase.Waits →
      Polled dispatch tag batch env next depth waiter start (phase.program tag batch next ticket) later
  /-- It has failed. -/
  | fails {cause blocks later} :
      Goes dispatch tag batch env start blocks (final (.error cause), later) →
      Polled dispatch tag batch env next depth waiter start (.failed cause) later
  /-- It is over, and what comes next was polled at once. -/
  | passes {actions blocks middle inner left later} : inner ≤ depth →
      Goes dispatch tag batch env start blocks (final (.ok actions), middle) →
      (next actions).poll (.ofDispatch dispatch inner) waiter middle = (.ok left, later) →
      Polled dispatch tag batch env next depth waiter start left later

/-- What a poll does with a phase, it does with whatever has led to that phase. -/
theorem Polled.since {start now : Phase S Action A alphabet × World S Action A} {depth : Nat}
    {waiter : Waiter} {blocks : List (List (Action alphabet))} {left : FollowUp S Action A alphabet}
    {later : World S Action A} (goes : Goes dispatch tag batch env start blocks now)
    (polled : Polled dispatch tag batch env next depth waiter now left later) :
    Polled dispatch tag batch env next depth waiter start left later := by
  cases polled with
  | waits phase ticket goesOn waits => exact .waits phase ticket (goes.trans goesOn) waits
  | fails goesOn => exact .fails (goes.trans goesOn)
  | passes within goesOn answered => exact .passes within (goes.trans goesOn) answered

section Polls

variable {start : Phase S Action A alphabet × World S Action A} {depth : Nat} {waiter : Waiter}

/-- When all that its actions cause is over. -/
theorem settled_leads {actions : List (Action alphabet)} {count : Nat}
    {blocks : List (List (Action alphabet))} {middle : World S Action A} {inner : Nat}
    {lefts : Vector (Settling S Action A) count} {replies : Vector (Except CmdFailure Unit) count}
    (within : inner ≤ depth)
    (goes : Goes dispatch tag batch env start blocks (settling actions lefts.get, middle))
    (complete : results? lefts = some replies) :
    (Pending.poll (.ofDispatch dispatch inner) waiter
      (settled next actions (firstFailure replies.get))).Leads middle
        (Polled dispatch tag batch env next depth waiter start) := by
  have ended := goes.step (.ends (done_of_results? complete))
  constructor
  intro left later answered
  cases failure : firstFailure replies.get with
  | error cause =>
      rw [failure] at ended answered
      cases answered
      exact .fails ended
  | ok =>
      rw [failure] at ended answered
      exact .passes within ended answered

/-- A poll of one of its actions' effects is a step, and keeping the books is none. -/
theorem Reaches.booked {actions : List (Action alphabet)} {count : Nat}
    (caused : Fin count → Settling S Action A) (before after : World S Action A)
    (books : World.Booked before after)
    (reached : ∃ blocks, Goes dispatch tag batch env start blocks (settling actions caused, before)) :
    ∃ blocks, Goes dispatch tag batch env start blocks (settling actions caused, after) := by
  rcases reached with ⟨blocks, goes⟩
  exact ⟨blocks, goes.booked books⟩

theorem Reaches.polled {actions : List (Action alphabet)} {count : Nat}
    (caused : Fin count → Settling S Action A) (world : World S Action A) (index : Fin count)
    (depth : Nat) (waiter : Waiter)
    (reached : ∃ blocks, Goes dispatch tag batch env start blocks (settling actions caused, world)) :
    ((caused index).poll (.ofDispatch dispatch depth) waiter).Leads world fun left later =>
      ∃ blocks, Goes dispatch tag batch env start blocks
        (settling actions (Function.update caused index left), later) := by
  rcases reached with ⟨blocks, goes⟩
  constructor
  intro left later answered
  exact ⟨_, goes.step (.settles depth waiter index answered)⟩

theorem engine_polled {actions : List (Action alphabet)} {count : Nat}
    (caused : Fin count → Settling S Action A) (world : World S Action A) (index : Fin count)
    (depth : Nat) (waiter : Waiter)
    (reached : ∃ blocks, Goes dispatch tag batch env start blocks (settling actions caused, world)) :
    ((Engine.ofDispatch dispatch depth).poll waiter (caused index)).Leads world fun left later =>
      ∃ blocks, Goes dispatch tag batch env start blocks
        (settling actions (Function.update caused index left), later) := by
  cases depth with
  | zero => exact .throw .exhausted
  | succ depth => exact Reaches.polled caused world index depth waiter reached

/-- The dispatch of its actions is a step, and what follows in the same poll comes after it. -/
theorem arrived_leads {actions : List (Action alphabet)} {follow : FollowUp S Action A alphabet}
    {world middle : World S Action A} {inner : Nat} (within : inner ≤ depth)
    (known : Pending.poll (.ofDispatch dispatch depth) waiter follow world =
      (.ok (FollowUp.now actions), middle)) :
    (Pending.poll (.ofDispatch dispatch inner) waiter (arrived tag batch next actions)).Leads middle
      fun left later => ∃ blocks now, Step dispatch tag batch (awaited follow, world) blocks now ∧
        Polled dispatch tag batch env next depth waiter now left later := by
  cases batch with
  | true =>
      constructor
      intro left later answered
      exact ⟨_, _, .collects depth waiter rfl known, .passes within (.rest _) answered⟩
  | false =>
      simp only [arrived, Bool.false_eq_true, if_false, Pending.poll]
      apply (Run.Leads.self _ middle).bind
      intro caused dispatched started
      have sent := Step.dispatches depth inner waiter rfl known started
      apply Run.Leads.mono _ fun left later polled => ⟨_, _, sent, polled⟩
      apply (Engine.pollFresh_leads Reaches.booked (fun now world index waiter =>
        engine_polled now world index inner waiter) waiter ⟨_, .rest _⟩).bind
      rintro ⟨ticket, lefts⟩ later ⟨blocks, goes⟩
      dsimp only
      split
      next replies complete => exact settled_leads within goes complete
      next incomplete =>
          have waits := exists_of_results?_eq_none incomplete
          exact .pure (.waits (settling actions lefts.get) ticket goes waits)

/-- A poll of the program of a command that is awaited takes a step of the command right away. -/
theorem poll_awaited (follow : FollowUp S Action A alphabet) (ticket : Option Nat)
    (world : World S Action A) :
    (((awaited follow).program tag batch next ticket).poll (.ofDispatch dispatch depth) waiter).Leads
      world fun left later => ∃ blocks now, Step dispatch tag batch (awaited follow, world) blocks now ∧
        Polled dispatch tag batch env next depth waiter now left later := by
  apply ((Pending.poll_bind dispatch depth waiter follow _).leads world).mono
  intro left later ended
  cases ended with
  | waits polled notOver =>
      exact ⟨_, _, .waits depth waiter polled notOver, .waits (awaited _) ticket (.rest _) notOver⟩
  | @passes value middle inner left later within polled answered =>
      cases value with
      | error cause =>
          cases answered
          exact ⟨_, _, .fails depth waiter polled, .fails (.rest _)⟩
      | ok actions => exact (arrived_leads within polled).holds _ _ answered

/-- A poll of its program takes steps of the command. -/
theorem poll_program (phase : Phase S Action A alphabet) (ticket : Option Nat)
    {blocks : List (List (Action alphabet))} {world : World S Action A}
    (goes : Goes dispatch tag batch env start blocks (phase, world)) :
    ((phase.program tag batch next ticket).poll (.ofDispatch dispatch depth) waiter).Leads world
      (Polled dispatch tag batch env next depth waiter start) := by
  cases phase with
  | awaited follow =>
      apply (poll_awaited follow ticket world).mono
      rintro left later ⟨blocks, now, step, polled⟩
      exact polled.since (goes.step step)
  | settling actions caused =>
      simp only [program, Pending.poll]
      apply (Engine.pollJoin_leads Reaches.booked (fun now world index waiter =>
        engine_polled now world index depth waiter) waiter ticket _ ⟨_, goes⟩).bind
      · rintro ⟨ticket, lefts⟩ later ⟨blocks, goes⟩
        dsimp only
        split
        next replies complete => exact settled_leads le_rfl goes complete
        next incomplete =>
          have waits := exists_of_results?_eq_none incomplete
          exact .pure (.waits (settling actions lefts.get) ticket goes waits)
      · intro now world index reached same
        rw [← same]
        exact Reaches.polled now world index depth waiter reached
  | final result =>
      constructor
      intro left later answered
      cases result with
      | error cause =>
          cases answered
          exact .fails goes
      | ok actions => exact .passes le_rfl goes answered

end Polls

end Phase

end EffectLoop
