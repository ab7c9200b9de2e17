import EffectLoop.Proofs.World.Rounds
import EffectLoop.Proofs.World.Scheduling

/-!
# Computations that do not know of later joins

Two worlds that stand *beside* each other differ at most in large joins with tickets from some ticket
on, and nothing at a gate waits for such a join.  A computation that neither opens such joins nor looks
at them does the same in both worlds, and leaves them beside each other.  So it is with every effect:
what it wakes are computations that were there before.
-/

namespace EffectLoop

variable {S ι : Type} {Action : ι → Type} {A α β γ δ : Type}

theorem Gates.find_put_of_ne (gates : Gates) {name other : String} (gate : Gate) (ne : other ≠ name) :
    (gates.put name gate).find other = gates.find other := by
  induction gates with
  | nil => simp [put, find, ne.symm]
  | cons entry rest ih =>
      obtain ⟨known, old⟩ := entry
      simp only [put]
      split
      next same => simp [find, same, ne.symm]
      next => simp only [find, ih]

/-! ## Worlds beside each other -/

namespace World

/-- The world without its books of large joins. -/
def withoutJoins (world : World S Action A) : World S Action A :=
  { world with rallies := [], nextTicket := 0 }

/-- Whatever waits at a gate, waits in joins with tickets below `floor`. -/
def GatesBelow (floor : Nat) (world : World S Action A) : Prop :=
  ∀ gate, ∀ waiter ∈ (world.gates.find gate).waiters, ∀ step ∈ waiter.path, step.1 < floor

/-- The second world differs from the first at most in joins with tickets from `floor` on, and nothing
at a gate waits for these. -/
structure Beside (floor : Nat) (near far : World S Action A) : Prop where
  same : far.withoutJoins = near.withoutJoins
  known : ∀ ticket < floor, far.rally? ticket = near.rally? ticket
  fresh : floor ≤ far.nextTicket
  gates : near.GatesBelow floor

/-- The joins with tickets from `floor` up to `bound` are as they were. -/
structure Undisturbed (floor bound : Nat) (before after : World S Action A) : Prop where
  inside : bound ≤ after.nextTicket
  kept : ∀ ticket, floor ≤ ticket → ticket < bound → after.rally? ticket = before.rally? ticket

variable {floor bound : Nat} {near far before middle after : World S Action A}

theorem gatesBelow_initial (state : S) (keeper : Keeper S Action A) (wallClock : Number) :
    (initial state keeper wallClock).GatesBelow floor := nofun

theorem Beside.refl (gates : near.GatesBelow floor) (fresh : floor ≤ near.nextTicket) :
    Beside floor near near :=
  ⟨rfl, fun _ _ => rfl, fresh, gates⟩

theorem Undisturbed.refl (inside : bound ≤ before.nextTicket) : Undisturbed floor bound before before :=
  ⟨inside, fun _ _ _ => rfl⟩

theorem Undisturbed.trans {upper : Nat} (first : Undisturbed floor bound before middle)
    (le : bound ≤ upper) (second : Undisturbed floor upper middle after) :
    Undisturbed floor bound before after := by
  refine ⟨le.trans second.inside, fun ticket above below => ?_⟩
  rw [second.kept ticket above (below.trans_le le), first.kept ticket above below]

/-- A world beside another is that world with other books of joins. -/
theorem Beside.eq (beside : Beside floor near far) :
    far = { near with rallies := far.rallies, nextTicket := far.nextTicket } := by
  obtain ⟨⟩ := near
  obtain ⟨⟩ := far
  have same := beside.same
  simp only [withoutJoins, World.mk.injEq] at same
  simp only [World.mk.injEq]
  tauto

theorem Beside.gates_eq (beside : Beside floor near far) : far.gates = near.gates := by
  have same := congrArg World.gates beside.same
  exact same

theorem GatesBelow.of_gates (gates : before.GatesBelow floor) (same : after.gates = before.gates) :
    after.GatesBelow floor := by
  rw [GatesBelow, same]
  exact gates

/-- A join with a later ticket may change in the second world. -/
theorem Beside.setRally (beside : Beside floor near far) {ticket : Nat} (above : floor ≤ ticket)
    (rally : Rally) : Beside floor near (far.setRally ticket rally) where
  same := beside.same
  known lower below := by
    rw [far.rally?_setRally_of_ne ticket rally (below.trans_le above).ne]
    exact beside.known lower below
  fresh := beside.fresh
  gates := beside.gates

theorem undisturbed_setRally (rally : Rally) (inside : bound ≤ before.nextTicket) :
    Undisturbed floor bound before (before.setRally bound rally) :=
  ⟨inside, fun _ _ below => before.rally?_setRally_of_ne bound rally below.ne⟩

/-- The second world opens a join of its own. -/
theorem Beside.rallied (beside : Beside floor near far) (count : Nat) :
    Beside floor near (far.rallied count) where
  same := beside.same
  known lower below := by
    rw [← beside.known lower below]
    exact far.rally?_setRally_of_ne far.nextTicket (.full count) (below.trans_le beside.fresh).ne
  fresh := Nat.le_succ_of_le beside.fresh
  gates := beside.gates

theorem undisturbed_rallied (count : Nat) :
    Undisturbed floor before.nextTicket before (before.rallied count) :=
  ⟨Nat.le_succ _, fun _ _ below =>
    before.rally?_setRally_of_ne before.nextTicket (.full count) below.ne⟩

/-! ### Waking -/

/-- Whoever waits only for earlier joins is woken in both worlds alike. -/
theorem Beside.wakeAlong (beside : Beside floor near far) (root : Nat) {path : List (Nat × Nat)}
    (below : ∀ step ∈ path, step.1 < floor) :
    Beside floor (near.wakeAlong root path) (far.wakeAlong root path) ∧
      Undisturbed floor far.nextTicket far (far.wakeAlong root path) := by
  induction path generalizing near far with
  | nil =>
      refine ⟨⟨?_, beside.known, beside.fresh, beside.gates⟩, ⟨le_rfl, fun _ _ _ => rfl⟩⟩
      exact congrArg (wakeRoot · root) beside.same
  | cons step outer ih =>
      obtain ⟨ticket, child⟩ := step
      have early : ticket < floor := below _ List.mem_cons_self
      simp only [World.wakeAlong]
      rw [beside.known ticket early]
      cases near.rally? ticket with
      | none => exact ⟨beside, .refl le_rfl⟩
      | some rally =>
          dsimp only
          split
          · exact ⟨beside, .refl le_rfl⟩
          · have joined (rally : Rally) :
                Beside floor (near.setRally ticket rally) (far.setRally ticket rally) := by
              refine ⟨beside.same, fun lower small => ?_, beside.fresh, beside.gates⟩
              by_cases same : lower = ticket
              · rw [same, rally?_setRally_self, rally?_setRally_self]
              · rw [rally?_setRally_of_ne _ _ _ same, rally?_setRally_of_ne _ _ _ same]
                exact beside.known lower small
            have apart (rally : Rally) :
                Undisturbed floor far.nextTicket far (far.setRally ticket rally) :=
              ⟨le_rfl, fun later above _ =>
                far.rally?_setRally_of_ne ticket rally (early.trans_le above).ne'⟩
            obtain ⟨woken, kept⟩ := ih (joined _) fun step among => below step (.tail _ among)
            exact ⟨woken, (apart _).trans le_rfl kept⟩

theorem Beside.wakeEach (beside : Beside floor near far) {waiters : List Waiter}
    (below : ∀ waiter ∈ waiters, ∀ step ∈ waiter.path, step.1 < floor) :
    Beside floor (waiters.foldl wake near) (waiters.foldl wake far) ∧
      Undisturbed floor far.nextTicket far (waiters.foldl wake far) := by
  induction waiters generalizing near far with
  | nil => exact ⟨beside, .refl le_rfl⟩
  | cons waiter rest ih =>
      obtain ⟨first, kept⟩ := beside.wakeAlong waiter.root (below waiter List.mem_cons_self)
      obtain ⟨others, keptThen⟩ := ih first fun waiter among => below waiter (.tail _ among)
      exact ⟨others, kept.trans kept.inside keptThen⟩

/-- What changes in both worlds alike, the joins apart. -/
theorem Beside.put (beside : Beside floor near far) (name : String) (gate : Gate)
    (below : ∀ waiter ∈ gate.waiters, waiter ∈ (near.gates.find name).waiters) :
    Beside floor { near with gates := near.gates.put name gate }
      { far with gates := far.gates.put name gate } where
  same := by
    rw [beside.gates_eq]
    exact congrArg (fun world => { world with gates := near.gates.put name gate }) beside.same
  known := beside.known
  fresh := beside.fresh
  gates other waiter among := by
    by_cases same : other = name
    · subst same
      rw [Gates.find_put_self] at among
      exact beside.gates other waiter (below waiter among)
    · rw [Gates.find_put_of_ne _ _ same] at among
      exact beside.gates other waiter among

/-- Opening a gate wakes the same computations in both worlds. -/
theorem Beside.unlock (beside : Beside floor near far) (gate : String) :
    Beside floor (near.unlock gate) (far.unlock gate) ∧
      Undisturbed floor far.nextTicket far (far.unlock gate) := by
  have waiters := beside.gates gate
  have opened := (beside.put gate ⟨true, []⟩ nofun).wakeEach waiters
  simp only [World.unlock, Gates.unlock, beside.gates_eq] at opened ⊢
  exact ⟨opened.1, ⟨opened.2.inside, opened.2.kept⟩⟩

theorem Beside.shut (beside : Beside floor near far) (gate : String) :
    Beside floor (near.shut gate) (far.shut gate) := by
  have found : far.gates.find gate = near.gates.find gate := by rw [beside.gates_eq]
  rw [World.shut, World.shut, Gates.shut, Gates.shut, found]
  exact beside.put _ _ fun _ among => among

end World

/-! ## Computations in worlds beside each other -/

open World (Beside Undisturbed)

namespace Run

/-- The first computation has ended in a world, and the second one, started in the world `far`, in one
beside it, with an answer that the relation allows, or both have halted for the same reason.  The joins
of the second world with tickets from `floor` up to `bound` are as they were. -/
inductive Matched (floor bound : Nat) (far : World S Action A) (related : α → β → Prop) :
    Except Halt α × World S Action A → Except Halt β × World S Action A → Prop where
  | answered {value found near after} : related value found → Beside floor near after →
      Undisturbed floor bound far after →
      Matched floor bound far related (.ok value, near) (.ok found, after)
  | halted (halt : Halt) {near after} : Beside floor near after →
      Matched floor bound far related (.error halt, near) (.error halt, after)

namespace Matched

variable {floor bound : Nat} {near far middle : World S Action A}
variable {related : α → β → Prop} {last : γ → δ → Prop}

theorem mono {weaker : α → β → Prop} {one : Except Halt α × World S Action A}
    {other : Except Halt β × World S Action A} (matched : Matched floor bound far related one other)
    (implies : ∀ value found, related value found → weaker value found) :
    Matched floor bound far weaker one other := by
  cases matched with
  | answered holds beside kept => exact .answered (implies _ _ holds) beside kept
  | halted halt beside => exact .halted halt beside

/-- What is so since a later world is so since an earlier one. -/
theorem since {one : Except Halt α × World S Action A} {other : Except Halt β × World S Action A}
    {upper : Nat} (before : Undisturbed floor bound far middle) (le : bound ≤ upper)
    (matched : Matched floor upper middle related one other) :
    Matched floor bound far related one other := by
  cases matched with
  | answered holds beside kept => exact .answered holds beside (before.trans le kept)
  | halted halt beside => exact .halted halt beside

theorem bind {one : Run S Action A α} {other : Run S Action A β} {oneNext : α → Run S Action A γ}
    {otherNext : β → Run S Action A δ} {upper : Nat}
    (first : Matched floor upper far related (one near) (other far))
    (next : ∀ value found nearer farther, one near = (.ok value, nearer) → related value found →
      Beside floor nearer farther → Undisturbed floor upper far farther →
      Matched floor bound far last (oneNext value nearer) (otherNext found farther)) :
    Matched floor bound far last ((one >>= oneNext) near) ((other >>= otherNext) far) := by
  generalize oneEnd : one near = oneLeft at first
  generalize otherEnd : other far = otherLeft at first
  cases first with
  | answered holds beside kept =>
      rw [bind_of_ok oneEnd, bind_of_ok otherEnd]
      exact next _ _ _ _ oneEnd holds beside kept
  | halted halt beside =>
      rw [bind_of_error oneEnd, bind_of_error otherEnd]
      exact .halted halt beside

/-- The first computation changes its answer at the end. -/
theorem image_iff {one : Run S Action A α} {result : γ → β → Prop} {change : α → γ}
    {other : Except Halt β × World S Action A} :
    Matched floor bound far result ((one >>= fun value => Pure.pure (change value)) near) other ↔
      Matched floor bound far (fun value found => result (change value) found) (one near) other := by
  rcases ended : one near with ⟨halt | value, nearer⟩
  · rw [bind_of_error ended]
    constructor
    all_goals
      rintro (_ | ⟨-, beside⟩)
      exact .halted halt beside
  · rw [bind_of_ok ended]
    constructor
    all_goals
      rintro (⟨holds, beside, kept⟩ | _)
      exact .answered holds beside kept

/-- The second computation changes its answer at the end. -/
theorem imageOther {one : Except Halt α × World S Action A} {other : Run S Action A β}
    {result : α → γ → Prop} {change : β → γ} {start : World S Action A}
    (matched : Matched floor bound far (fun value found => result value (change found)) one
      (other start)) :
    Matched floor bound far result one ((other >>= fun found => pure (change found)) start) := by
  generalize ended : other start = left at matched
  cases matched with
  | answered holds beside kept =>
      rw [bind_of_ok ended]
      exact .answered holds beside kept
  | halted halt beside =>
      rw [bind_of_error ended]
      exact .halted halt beside

end Matched

/-- The computation does the same in worlds beside each other. -/
def Unaware (computation : Run S Action A α) : Prop :=
  ∀ floor near far, Beside floor near far →
    Matched floor far.nextTicket far Eq (computation near) (computation far)

namespace Unaware

theorem pure (value : α) : (Pure.pure value : Run S Action A α).Unaware :=
  fun _ _ _ beside => .answered rfl beside (.refl le_rfl)

theorem bind {first : Run S Action A α} {next : α → Run S Action A β} (unaware : first.Unaware)
    (nextUnaware : ∀ value, (next value).Unaware) : (first >>= next).Unaware := by
  intro floor near far beside
  apply (unaware floor near far beside).bind
  rintro value _ nearer farther - rfl beside kept
  exact (nextUnaware value floor nearer farther beside).since kept kept.inside

/-- It is enough that the computation neither looks at the books of joins nor changes them, and leaves
the gates alone. -/
theorem of_apart {computation : Run S Action A α}
    (apart : ∀ (world : World S Action A) rallies nextTicket,
      computation { world with rallies, nextTicket } =
        ((computation world).1, { (computation world).2 with rallies, nextTicket }))
    (gates : ∀ world, (computation world).2.gates = world.gates) : computation.Unaware := by
  intro floor near far beside
  have away := apart near far.rallies far.nextTicket
  rw [← beside.eq] at away
  have home := apart near near.rallies near.nextTicket
  have books : (computation near).2.rallies = near.rallies :=
    congrArg (fun left : Except Halt α × World S Action A => left.2.rallies) home
  have after : Beside floor (computation near).2 (computation far).2 := by
    rw [away]
    refine ⟨rfl, fun ticket below => ?_, beside.fresh, beside.gates.of_gates (gates near)⟩
    have known := beside.known ticket below
    simp only [World.rally?] at known ⊢
    rw [books, known]
  have kept : Undisturbed floor far.nextTicket far (computation far).2 := by
    rw [away]
    exact ⟨le_rfl, fun _ _ _ => rfl⟩
  have answers : (computation far).1 = (computation near).1 := by rw [away]
  rcases oneEnd : computation near with ⟨result, nearer⟩
  rcases otherEnd : computation far with ⟨other, farther⟩
  rw [oneEnd, otherEnd] at answers after
  rw [otherEnd] at kept
  cases answers
  cases result with
  | ok value => exact .answered rfl after kept
  | error halt => exact .halted halt after

/-! ### Effects -/

theorem emit (event : Event S A) : (Run.emit event : Run S Action A Unit).Unaware :=
  of_apart (fun _ _ _ => rfl) fun _ => rfl

theorem adopt (found : Noted α) : (Run.adopt found : Run S Action A α).Unaware := by
  obtain ⟨notes, value⟩ := found
  have noted : (Run.update (·.annotate notes) : Run S Action A Unit).Unaware := by
    induction notes with
    | nil => exact of_apart (fun _ _ _ => rfl) fun _ => rfl
    | cons note rest ih => exact (emit (.note note)).bind fun _ => ih
  exact noted.bind fun _ => pure value

theorem schedule (delay : Duration) (repeating : Bool) (task : Pending S Action A .finished) :
    (Run.schedule delay repeating task).Unaware := by
  apply of_apart
  · intro world rallies nextTicket
    obtain ⟨_, _, _, _, _, _, _, _, keeper, _, _⟩ := world
    cases keeper with
    | virtual clock =>
        simp only [Run.schedule, get_bind]
        rcases clock.schedule delay repeating task with ⟨_ | handle, moved⟩ <;> rfl
    | tasks clock => rfl
  · intro world
    cases keeper : world.keeper with
    | virtual clock => rw [schedule_virtual keeper]
    | tasks clock => rw [schedule_tasks keeper]

theorem clear (handle : TimerHandle) : (Run.clear handle : Run S Action A Bool).Unaware := by
  apply of_apart
  · intro world rallies nextTicket
    obtain ⟨_, _, _, _, _, _, _, _, keeper, _, _⟩ := world
    cases keeper with
    | virtual clock => rfl
    | tasks clock =>
        simp only [Run.clear, get_bind]
        rcases clock.clear handle with ⟨_ | _, moved⟩ <;> rfl
  · intro world
    cases keeper : world.keeper with
    | virtual clock => rw [clear_virtual keeper]
    | tasks clock => rw [clear_tasks keeper]

theorem spawn (task : Pending S Action A .finished) : (Run.spawn task).Unaware :=
  of_apart (fun _ _ _ => rfl) fun _ => rfl

theorem deadline (delay : Duration) : (Run.deadline delay : Run S Action A Duration).Unaware := by
  apply of_apart
  · intro world rallies nextTicket
    obtain ⟨_, _, _, _, _, _, _, _, keeper, _, _⟩ := world
    cases keeper with
    | virtual clock =>
        simp only [Run.deadline, get_bind]
        cases clock.now.add? delay <;> rfl
    | tasks clock => rfl
  · intro world
    obtain ⟨_, _, _, _, _, _, _, _, keeper, _, _⟩ := world
    cases keeper with
    | virtual clock =>
        simp only [Run.deadline, get_bind]
        cases clock.now.add? delay <;> rfl
    | tasks clock => rfl

theorem perform (effect : Primitive) :
    (Run.perform effect : Run S Action A (effect.Reply S)).Unaware := by
  cases effect with
  | setGate gate isOpen =>
      intro floor near far beside
      cases isOpen with
      | true => exact .answered rfl (beside.unlock gate).1 (beside.unlock gate).2
      | false => exact .answered rfl (beside.shut gate) ⟨le_rfl, fun _ _ _ => rfl⟩
  | clear handle => exact clear handle
  | deadline delay => exact deadline delay
  | readState => exact of_apart (fun _ _ _ => rfl) fun _ => rfl
  | note value => exact emit (.note value)
  | log entry => exact emit (.log entry)
  | inspect => exact of_apart (fun _ _ _ => rfl) fun _ => rfl
  | wallClock => exact of_apart (fun _ _ _ => rfl) fun _ => rfl
  | forget handle => exact of_apart (fun _ _ _ => rfl) fun _ => rfl
  | skip => exact pure ()

end Unaware

end Run

/-! ## Programs -/

/-- What the engine makes of a dispatched action does not know of later joins. -/
def Engine.Unaware (engine : Engine S Action A) : Prop := ∀ action, (engine.dispatch action).Unaware

variable {engine : Engine S Action A} (unaware : engine.Unaware)
include unaware

theorem Engine.start_unaware (action : Noted A) : (engine.start action).Unaware :=
  (Run.Unaware.adopt action).bind unaware

theorem Engine.send_unaware (action : Noted A) (keep : Bool) : (engine.send action keep).Unaware := by
  apply (engine.start_unaware unaware action).bind
  intro caused
  split
  · exact .of_apart (fun _ _ _ => rfl) fun _ => rfl
  · exact .pure ()

theorem Prompt.run_unaware (program : Prompt S Action A α) : (program.run engine).Unaware := by
  induction program with
  | done value => exact .pure value
  | call effect next ih => exact (Run.Unaware.perform effect).bind ih
  | send action keep next ih => exact (engine.send_unaware unaware action keep).bind fun _ => ih
  | schedule delay repeating task next ih => exact (Run.Unaware.schedule delay repeating task).bind ih
  | spawn task next ih => exact (Run.Unaware.spawn task).bind fun _ => ih

end EffectLoop
