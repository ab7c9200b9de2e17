import EffectLoop.Proofs.World.Families
import Mathlib.Data.Fin.Tuple.Basic
import Mathlib.Logic.Relation

/-!
# Rounds of polls

A round of polls of a family polls its members one after the other, each in the world that the one
before has left.  Between two members only the books of large joins change.  So what holds of a family
and a world, and goes on holding whenever one member is polled or the books change, holds after the
round (`Engine.pollFresh_leads`, `Engine.pollJoin_leads`).  A round does not pick and choose: it visits
every member of a small join, and at least the one that was woken first of a large join
(`Engine.pollJoin_visits`).

All this is said with `Run.Leads`: what a computation that starts in a given world leads to.
-/

namespace EffectLoop

variable {S ι : Type} {Action : ι → Type} {A α β : Type} {child : Answer ι}

namespace World

/-- The books of large joins are kept: their rallies, the tickets, and the order in which roots are to
be polled. -/
inductive Booking : World S Action A → World S Action A → Prop where
  | rallies (world : World S Action A) (rallies : List (Nat × Rally)) (nextTicket : Nat) :
      Booking world { world with rallies, nextTicket }
  | woken (world : World S Action A) (root : Nat) : Booking world (world.wakeRoot root)

/-- Nothing but the books has changed. -/
abbrev Booked : World S Action A → World S Action A → Prop := Relation.ReflTransGen Booking

theorem booked_setRally (world : World S Action A) (ticket : Nat) (rally : Rally) :
    Booked world (world.setRally ticket rally) :=
  .single (.rallies world _ _)

theorem booked_wakeAlong (world : World S Action A) (root : Nat) (path : List (Nat × Nat)) :
    Booked world (world.wakeAlong root path) := by
  induction path generalizing world with
  | nil => exact .single (.woken world root)
  | cons step outer ih =>
      cases step with
      | mk ticket child =>
      simp only [wakeAlong]
      split
      · exact .refl
      · split
        · exact .refl
        · exact (booked_setRally world ticket _).trans (ih _)

end World

/-! ## What a computation leads to -/

namespace Run

theorem get_bind (next : World S Action A → Run S Action A β) (world : World S Action A) :
    (get >>= next) world = next world world := rfl

/-- Whenever the computation gives an answer, started in this world, the answer and the world that it
leaves are as `post` says. -/
structure Leads (computation : Run S Action A α) (world : World S Action A)
    (post : α → World S Action A → Prop) : Prop where
  holds : ∀ value after, computation world = (.ok value, after) → post value after

namespace Leads

variable {post : α → World S Action A → Prop} {last : β → World S Action A → Prop}
variable {world : World S Action A}

theorem pure {value : α} (holds : post value world) :
    Leads (Pure.pure value : Run S Action A α) world post := by
  constructor
  intro found after answered
  cases answered
  exact holds

theorem throw (halt : Halt) :
    Leads (MonadExcept.throw halt : Run S Action A α) world post := by
  constructor
  intro found after answered
  cases answered

theorem bind {first : Run S Action A α} {next : α → Run S Action A β}
    (firstLeads : Leads first world post)
    (nextLeads : ∀ value middle, post value middle → Leads (next value) middle last) :
    Leads (first >>= next) world last := by
  constructor
  intro found after answered
  rcases outcome : first world with ⟨result, middle⟩
  cases result with
  | ok value =>
      rw [bind_of_ok outcome] at answered
      exact (nextLeads value middle (firstLeads.holds value middle outcome)).holds found after answered
  | error halt =>
      rw [bind_of_error outcome] at answered
      cases answered

/-- The computation goes on after a first part that is known. -/
theorem bindOk {first : Run S Action A α} {next : α → Run S Action A β} {value : α}
    {middle : World S Action A} (answered : first world = (.ok value, middle))
    (nextLeads : Leads (next value) middle last) : Leads (first >>= next) world last := by
  constructor
  rw [bind_of_ok answered]
  exact nextLeads.holds

/-- The computation leads to what it answers. -/
theorem self (computation : Run S Action A α) (world : World S Action A) :
    Leads computation world fun value after => computation world = (.ok value, after) :=
  ⟨fun _ _ answered => answered⟩

theorem mono {stronger : α → World S Action A → Prop} {computation : Run S Action A α}
    (leads : Leads computation world stronger)
    (implies : ∀ value after, stronger value after → post value after) :
    Leads computation world post :=
  ⟨fun value after answered => implies value after (leads.holds value after answered)⟩

/-- The world is looked at. -/
theorem look {next : World S Action A → Run S Action A β} (nextLeads : Leads (next world) world last) :
    Leads (get >>= next) world last := by
  apply bind (self get world)
  intro found middle looked
  cases looked
  exact nextLeads

theorem update {change : World S Action A → World S Action A} {next : PUnit → Run S Action A β}
    (nextLeads : Leads (next ⟨⟩) (change world) last) :
    Leads (Run.update change >>= next) world last := by
  apply bind (self (Run.update change) world)
  intro found middle updated
  cases updated
  exact nextLeads

end Leads

end Run

/-! ## Rounds of polls -/

section Rounds

variable {count : Nat}
variable {good : (Fin count → Pending S Action A child) → World S Action A → Prop}

/-- A member is replaced. -/
theorem get_set_eq_update {children : Vector α count} {place : Nat} (inside : place < count) (left : α) :
    (children.set place left).get = Function.update children.get ⟨place, inside⟩ left := by
  funext index
  change (children.set place left)[index.val] = _
  rw [Vector.getElem_set, Function.update_apply]
  simp only [Fin.ext_iff, eq_comm]
  rfl

theorem get_push_eq_snoc (others : Vector α count) (final : α) :
    (others.push final).get = Fin.snoc (α := fun _ => α) others.get final := by
  funext index
  cases index using Fin.lastCases with
  | last =>
      rw [Fin.snoc_last]
      exact Vector.getElem_push_eq
  | cast index =>
      rw [Fin.snoc_castSucc]
      exact Vector.getElem_push_lt index.isLt

/-- A family is replaced member by member, in order.  What holds of items that stand for the members and of
how many were replaced, and goes on holding whenever the next one is replaced, holds of items that stand
for the members in the end. -/
theorem Run.Leads.ofFnM_through {σ : Type} {each : Fin count → Run S Action A α}
    (good : Nat → (Fin count → σ) → World S Action A → Prop) (image : σ → α) {items : Fin count → σ}
    (step : ∀ now world (index : Fin count), good index now world → now index = items index →
      (each index).Leads world fun left after =>
        ∃ item, left = image item ∧ good (index + 1) (Function.update now index item) after)
    {world : World S Action A} (start : good 0 items world) :
    (Vector.ofFnM each).Leads world fun left after =>
      ∃ now, left.get = (fun index => image (now index)) ∧ good count now after := by
  induction count generalizing world with
  | zero =>
      rw [Vector.ofFnM_zero]
      exact pure ⟨items, funext fun index => index.elim0, start⟩
  | succ count ih =>
      rw [Vector.ofFnM_succ]
      -- The last member is still to be replaced while the others are.
      let others (now : Fin count → σ) : Fin (count + 1) → σ :=
        Fin.snoc (α := fun _ => σ) now (items (Fin.last count))
      have started : good 0 (others fun index => items index.castSucc) world := by
        convert start using 1
        exact Fin.snoc_init_self items
      have replaced : ∀ now world (index : Fin count), good index (others now) world →
          now index = items index.castSucc →
          (each index.castSucc).Leads world fun left after =>
            ∃ item, left = image item ∧
              good (index + 1) (others (Function.update now index item)) after := by
        intro now world index holds same
        have waiting : others now index.castSucc = items index.castSucc :=
          (Fin.snoc_castSucc (α := fun _ => σ) _ _ _).trans same
        apply (step (others now) world index.castSucc holds waiting).mono
        rintro left after ⟨item, stands, holds⟩
        rw [← Fin.snoc_update] at holds
        exact ⟨item, stands, holds⟩
      apply bind (ih (fun place now => good place (others now)) replaced started)
      rintro found middle ⟨now, stand, holds⟩
      apply bind (step _ middle (Fin.last count) holds (Fin.snoc_last (α := fun _ => σ) _ _))
      rintro final after ⟨item, rfl, holds⟩
      apply pure
      rw [Fin.update_snoc_last] at holds
      refine ⟨_, ?_, holds⟩
      rw [get_push_eq_snoc, stand]
      funext index
      cases index using Fin.lastCases with
      | last => simp only [Fin.snoc_last]
      | cast index => simp only [Fin.snoc_castSucc]

/-- The same for what does not depend on how many members were replaced. -/
theorem Run.Leads.ofFnM_of {σ : Type} {each : Fin count → Run S Action A α}
    {good : (Fin count → σ) → World S Action A → Prop} (image : σ → α) {items : Fin count → σ}
    (step : ∀ now world index, good now world → now index = items index →
      (each index).Leads world fun left after =>
        ∃ item, left = image item ∧ good (Function.update now index item) after)
    {world : World S Action A} (start : good items world) :
    (Vector.ofFnM each).Leads world fun left after =>
      ∃ now, left.get = (fun index => image (now index)) ∧ good now after :=
  ofFnM_through (fun _ => good) image step start

/-- What holds of a family, and goes on holding whenever a member is replaced, holds in the end if each
member is replaced once, in order. -/
theorem Run.Leads.ofFnM {each : Fin count → Run S Action A α}
    {good : (Fin count → α) → World S Action A → Prop} {children : Fin count → α}
    (step : ∀ now world index, good now world → now index = children index →
      (each index).Leads world fun left after => good (Function.update now index left) after)
    {world : World S Action A} (start : good children world) :
    (Vector.ofFnM each).Leads world fun left after => good left.get after := by
  have replaced : (Vector.ofFnM each).Leads world fun left after =>
      ∃ now, left.get = (fun index => id (now index)) ∧ good now after := by
    apply ofFnM_of id _ start
    intro now world index holds same
    apply (step now world index holds same).mono
    intro left after holds
    exact ⟨left, rfl, holds⟩
  apply replaced.mono
  rintro left after ⟨now, same, holds⟩
  rw [same]
  exact holds

/-! ### The books of one join -/

namespace World

variable (world : World S Action A) (ticket : Nat) (rally : Rally)

theorem rally?_setRally_self : (world.setRally ticket rally).rally? ticket = some rally := by
  simp [setRally, rally?]

theorem rally?_setRally_of_ne {lower : Nat} (ne : lower ≠ ticket) :
    (world.setRally ticket rally).rally? lower = world.rally? lower := by
  have found : (world.rallies.filter (·.1 ≠ ticket)).find? (·.1 = lower) =
      world.rallies.find? (·.1 = lower) := by
    rw [List.find?_filter]
    congr 1
    funext entry
    by_cases same : entry.1 = lower <;> simp [same, ne]
  simp only [setRally, rally?, List.find?_cons, ne.symm, decide_false, found]

/-- The world after a large join has opened its rally. -/
def rallied (world : World S Action A) (count : Nat) : World S Action A :=
  { world.setRally world.nextTicket (.full count) with nextTicket := world.nextTicket + 1 }

theorem openRally_eq (count : Nat) :
    Rally.openRally count world = (.ok world.nextTicket, world.rallied count) := rfl

theorem rally?_rallied (count : Nat) :
    (world.rallied count).rally? world.nextTicket = some (.full count) :=
  world.rally?_setRally_self world.nextTicket (.full count)

end World

namespace Rally

variable {world : World S Action A} {ticket place : Nat} {queue finished : List Nat}

theorem takeChild_cons (found : world.rally? ticket = some ⟨place :: queue, finished⟩) :
    takeChild ticket world = (.ok (some place), world.setRally ticket ⟨queue, finished⟩) := by
  rw [takeChild, Run.get_bind, found]
  rfl

theorem takeChild_none (found : world.rally? ticket = none) :
    takeChild ticket world = (.ok none, world) := by
  rw [takeChild, Run.get_bind, found]
  rfl

theorem takeChild_nil (found : world.rally? ticket = some ⟨[], finished⟩) :
    takeChild ticket world = (.ok none, world) := by
  rw [takeChild, Run.get_bind, found]
  rfl

theorem finish_eq (found : world.rally? ticket = some ⟨queue, finished⟩) :
    finish ticket place world =
      (.ok finished.length, world.setRally ticket ⟨queue, place :: finished⟩) := by
  rw [finish, Run.get_bind, found]
  rfl

section Children

variable {count : Nat} {children : Vector (Pending S Action A child) count}

/-- A round ends when no child is left in the queue. -/
theorem poll_nil
    {pollChild : Waiter → Pending S Action A child → Run S Action A (Pending S Action A child)}
    (waiter : Waiter) (remaining stopped restless fuel : Nat)
    (found : world.rally? ticket = some ⟨[], finished⟩) :
    Rally.poll pollChild waiter ticket children remaining stopped restless fuel world =
      (.ok children, world) := by
  cases fuel with
  | zero => rfl
  | succ fuel => exact Run.bind_of_ok (takeChild_nil found)

theorem full_eq_range' (count : Nat) : full count = ⟨List.range' 0 count, []⟩ := by
  rw [full, List.range_eq_range']

/-- The first round of a join goes through all children. -/
theorem resume_full
    {pollChild : Waiter → Pending S Action A child → Run S Action A (Pending S Action A child)}
    (waiter : Waiter) (family : Fin count → Pending S Action A child)
    (found : world.rally? ticket = some (.full count)) :
    Rally.resume pollChild waiter ticket family world =
      Rally.poll pollChild waiter ticket (Vector.ofFn family) count 0 0 (count * count + count + 1)
        world := by
  rw [Rally.resume, Run.get_bind, found]
  rfl

/-- The child behind the others is at their number, and what is left of it takes its place. -/
theorem child_of_append {before rest : List (Pending S Action A child)}
    {program : Pending S Action A child} (whole : children.toList = before ++ program :: rest)
    (position : before.length = place) :
    ∃ within : place < count, children[place] = program ∧
      ∀ left, (children.set place left).toList = (before ++ [left]) ++ rest := by
  have size := congrArg List.length whole
  rw [Vector.length_toList, List.length_append, List.length_cons] at size
  have within : place < count := by omega
  refine ⟨within, ?_, fun left => by simp [Vector.toList_set, whole, ← position]⟩
  rw [← Vector.getElem_toList (by rw [Vector.length_toList]; exact within)]
  simp [whole, ← position]

end Children

end Rally

/-! ### Only the books change -/

namespace Rally

variable (world : World S Action A) (ticket : Nat)

theorem openRally_booked (count : Nat) :
    (openRally count).Leads world fun _ after => World.Booked world after := by
  apply Run.Leads.look
  apply Run.Leads.update
  apply Run.Leads.pure
  exact .single (.rallies world _ _)

theorem finish_booked (child : Nat) :
    (finish ticket child).Leads world fun _ after => World.Booked world after := by
  apply Run.Leads.look
  cases world.rally? ticket with
  | none => exact .pure .refl
  | some rally =>
      apply Run.Leads.update
      apply Run.Leads.pure
      exact world.booked_setRally ticket _

end Rally

section Family

variable {good : (Fin count → Pending S Action A child) → World S Action A → Prop}
variable (booked : ∀ now before after, World.Booked before after → good now before → good now after)
include booked

section Rallies

variable {pollChild : Waiter → Pending S Action A child → Run S Action A (Pending S Action A child)}

/-- A round begins with the first child of the queue, whatever holds before it was polled. -/
theorem Rally.poll_leads_of_cons {waiter : Waiter} {ticket place : Nat} {inside : place < count}
    {queue finished : List Nat} {children : Vector (Pending S Action A child) count}
    {world : World S Action A} {fuel : Nat} (remaining stopped restless : Nat)
    (found : world.rally? ticket = some ⟨place :: queue, finished⟩)
    (polled : (pollChild { waiter with path := (ticket, place) :: waiter.path } children[place]).Leads
      (world.setRally ticket ⟨queue, finished⟩)
      fun left after => good (Function.update children.get ⟨place, inside⟩ left) after)
    (goesOn : ∀ {children : Vector (Pending S Action A child) count} {world : World S Action A},
      good children.get world → ∀ remaining stopped restless,
        (Rally.poll pollChild waiter ticket children remaining stopped restless fuel).Leads world
          fun left after => good left.get after) :
    (Rally.poll pollChild waiter ticket children remaining stopped restless (fuel + 1)).Leads world
      fun left after => good left.get after := by
  apply Run.Leads.bindOk (Rally.takeChild_cons found)
  dsimp only
  rw [dif_pos inside]
  apply polled.bind
  intro left later holds
  rw [← get_set_eq_update inside left] at holds
  split
  · apply (Rally.finish_booked later ticket place).bind
    intro before after books
    exact goesOn (booked _ _ _ books holds) _ _ _
  · apply Run.Leads.look
    -- The queue only decides the count of restless children; both cases go on alike.
    split
    all_goals
      split
      · apply Run.Leads.update
        exact .pure (booked _ _ _ (later.booked_wakeAlong _ _) holds)
      · exact goesOn holds _ _ _

variable (step : ∀ now world index waiter, good now world →
  (pollChild waiter (now index)).Leads world fun left after =>
    good (Function.update now index left) after)
include step

theorem Rally.poll_leads (waiter : Waiter) (ticket : Nat)
    {children : Vector (Pending S Action A child) count} {world : World S Action A}
    (start : good children.get world) (remaining stopped restless fuel : Nat) :
    (Rally.poll pollChild waiter ticket children remaining stopped restless fuel).Leads world
      fun left after => good left.get after := by
  induction fuel generalizing children world remaining stopped restless with
  | zero => exact .pure start
  | succ fuel ih =>
      cases found : world.rally? ticket with
      | none => exact Run.Leads.bindOk (Rally.takeChild_none found) (.pure start)
      | some rally =>
          rcases rally with ⟨_ | ⟨place, queue⟩, finished⟩
          · exact Run.Leads.bindOk (Rally.takeChild_nil found) (.pure start)
          · have taken := booked _ _ _ (world.booked_setRally ticket ⟨queue, finished⟩) start
            by_cases inside : place < count
            · exact Rally.poll_leads_of_cons booked _ _ _ found
                (step children.get _ ⟨place, inside⟩ _ taken) ih
            · apply Run.Leads.bindOk (Rally.takeChild_cons found)
              dsimp only
              rw [dif_neg inside]
              exact .pure taken

theorem Rally.resume_leads (waiter : Waiter) (ticket : Nat)
    {children : Fin count → Pending S Action A child} {world : World S Action A}
    (start : good children world) :
    (Rally.resume pollChild waiter ticket children).Leads world
      fun left after => good left.get after := by
  apply Run.Leads.look
  apply Rally.poll_leads booked step
  convert start using 1
  funext index
  exact Vector.getElem_ofFn index.isLt

end Rallies

namespace Engine

variable {engine : Engine S Action A}
variable (step : ∀ now world index waiter, good now world →
  (engine.poll waiter (now index)).Leads world fun left after =>
    good (Function.update now index left) after)
include step

/-- What holds of a family, and goes on holding when one of its members is polled or the books change,
holds of what a round of polls leaves. -/
theorem pollFresh_leads (waiter : Waiter) {children : Fin count → Pending S Action A child}
    {world : World S Action A} (start : good children world) :
    (engine.pollFresh waiter children).Leads world fun found after => good found.2.get after := by
  unfold pollFresh
  split
  · have once : (Vector.ofFnM fun index => engine.poll waiter (children index)).Leads world
        fun left after => good left.get after := by
      apply Run.Leads.ofFnM _ start
      intro now before index holds same
      rw [← same]
      exact step now before index waiter holds
    apply once.bind
    intro left after holds
    exact .pure holds
  · apply (Rally.openRally_booked world count).bind
    intro ticket middle books
    apply (Rally.resume_leads booked step waiter ticket (booked _ _ _ books start)).bind
    intro left after holds
    exact .pure holds

/-- The same for a join that is part of the program, if it holds when each member is polled once, as the
members of a small join are. -/
theorem pollJoin_leads_of_small (waiter : Waiter) (ticket : Option Nat)
    {children : Fin count → Pending S Action A child}
    {each : Fin count → Run S Action A (Pending S Action A child)} {world : World S Action A}
    (small : (Vector.ofFnM each).Leads world fun left after => good left.get after)
    (start : good children world) :
    (engine.pollJoin waiter ticket children each).Leads world
      fun found after => good found.2.get after := by
  unfold pollJoin
  split
  · apply small.bind
    intro left after holds
    exact .pure holds
  · cases ticket with
    | none => exact pollFresh_leads booked step waiter start
    | some ticket =>
        apply (Rally.resume_leads booked step waiter ticket start).bind
        intro left after holds
        exact .pure holds

/-- The same if it goes on holding when a member of a small join is polled. -/
theorem pollJoin_leads (waiter : Waiter) (ticket : Option Nat)
    {children : Fin count → Pending S Action A child}
    {each : Fin count → Run S Action A (Pending S Action A child)}
    (small : ∀ now world index, good now world → now index = children index →
      (each index).Leads world fun left after => good (Function.update now index left) after)
    {world : World S Action A} (start : good children world) :
    (engine.pollJoin waiter ticket children each).Leads world
      fun found after => good found.2.get after :=
  pollJoin_leads_of_small booked step waiter ticket (.ofFnM small start) start

end Engine

end Family

/-! ### Whom a round calls on -/

/-- The ticket of a large join that is under way. -/
def Pending.ticket? : {answer : Answer ι} → Pending S Action A answer → Option Nat
  | _, .join ticket _ _ => ticket
  | _, _ => none

/-- The members of a join that a round calls on in any case: all of a small join, and the one that was
woken first of a large one. -/
inductive Rally.Calls (world : World S Action A) : Option Nat → Fin count → Prop where
  | all {ticket place} : count ≤ Rally.smallJoin → Calls world ticket place
  /-- A large join begins with its first member. -/
  | opens {place} : place.val = 0 → Calls world none place
  | woken {ticket place queue finished} :
      world.rally? ticket = some ⟨place.val :: queue, finished⟩ → Calls world (some ticket) place

section Visits

variable {good : Set (Fin count) → (Fin count → Pending S Action A child) → World S Action A → Prop}

/-- What holds while some members were visited holds, and those that were called on are among them. -/
def Rally.Met (good : Set (Fin count) → (Fin count → Pending S Action A child) → World S Action A → Prop)
    (called : Set (Fin count)) (now : Fin count → Pending S Action A child) (world : World S Action A) :
    Prop :=
  ∃ visited, called ⊆ visited ∧ good visited now world

variable (booked : ∀ visited now before after, World.Booked before after → good visited now before →
  good visited now after)

section Rallies

variable {pollChild : Waiter → Pending S Action A child → Run S Action A (Pending S Action A child)}
variable (step : ∀ visited now world index waiter, good visited now world →
  (pollChild waiter (now index)).Leads world fun left after =>
    good (insert index visited) (Function.update now index left) after)

include booked in
theorem Rally.met_booked (called : Set (Fin count)) (now : Fin count → Pending S Action A child)
    (before after : World S Action A) (books : World.Booked before after)
    (meets : Met good called now before) : Met good called now after := by
  obtain ⟨visited, within, holds⟩ := meets
  exact ⟨visited, within, booked _ _ _ _ books holds⟩

include step in
theorem Rally.met_step (called : Set (Fin count)) (now : Fin count → Pending S Action A child)
    (world : World S Action A) (index : Fin count) (waiter : Waiter) (meets : Met good called now world) :
    (pollChild waiter (now index)).Leads world fun left after =>
      Met good called (Function.update now index left) after := by
  obtain ⟨visited, within, holds⟩ := meets
  apply (step visited now world index waiter holds).mono
  intro left after holds
  exact ⟨_, within.trans (Set.subset_insert index visited), holds⟩

include booked step

/-- A round of a large join visits the child that was woken first, whatever the others are at. -/
theorem Rally.resume_visits (waiter : Waiter) (ticket : Nat)
    {children : Fin count → Pending S Action A child} {world : World S Action A}
    (start : good ∅ children world) :
    (Rally.resume pollChild waiter ticket children).Leads world fun left after =>
      ∃ visited, (∀ place : Fin count, ∀ queue finished,
        world.rally? ticket = some ⟨place :: queue, finished⟩ → place ∈ visited) ∧
        good visited left.get after := by
  by_cases called : ∃ place : Fin count, ∃ queue finished,
      world.rally? ticket = some ⟨place :: queue, finished⟩
  · obtain ⟨place, queue, finished, found⟩ := called
    have taken := booked _ _ _ _ (world.booked_setRally ticket ⟨queue, finished⟩) start
    have visits : (Rally.resume pollChild waiter ticket children).Leads world fun left after =>
        Met good {place} left.get after := by
      apply Run.Leads.look
      apply Rally.poll_leads_of_cons (met_booked booked {place}) _ _ _ found
      · have same : (Vector.ofFn children)[place.val] = children place := Vector.getElem_ofFn place.isLt
        have all : (Vector.ofFn children).get = children :=
          funext fun index => Vector.getElem_ofFn index.isLt
        rw [same, all]
        apply (step ∅ children _ place _ taken).mono
        intro left after holds
        exact ⟨_, Set.singleton_subset_iff.2 (Set.mem_insert place ∅), holds⟩
      · intro children world holds remaining stopped restless
        exact Rally.poll_leads (met_booked booked {place}) (met_step step {place}) waiter ticket holds
          _ _ _ _
    apply visits.mono
    rintro left after ⟨visited, within, holds⟩
    refine ⟨visited, ?_, holds⟩
    intro other rest past again
    rw [found, Option.some.injEq, Rally.mk.injEq, List.cons.injEq] at again
    exact within (Set.mem_singleton_iff.2 (Fin.ext again.1.1.symm))
  · apply (Rally.resume_leads (met_booked booked ∅) (met_step step ∅) waiter ticket
      ⟨∅, Set.Subset.rfl, start⟩).mono
    rintro left after ⟨visited, -, holds⟩
    exact ⟨visited, fun place queue finished found => absurd ⟨place, queue, finished, found⟩ called,
      holds⟩

end Rallies

include booked

/-- A round of a join visits whom it calls on, whatever the others are at.  What holds while some members
were visited, and goes on holding when one more is, holds after the round. -/
theorem Engine.pollJoin_visits {engine : Engine S Action A}
    (step : ∀ visited now world index waiter, good visited now world →
      (engine.poll waiter (now index)).Leads world fun left after =>
        good (insert index visited) (Function.update now index left) after)
    (waiter : Waiter) (ticket : Option Nat) {children : Fin count → Pending S Action A child}
    {each : Fin count → Run S Action A (Pending S Action A child)}
    (small : ∀ visited now world index, good visited now world → now index = children index →
      (each index).Leads world fun left after =>
        good (insert index visited) (Function.update now index left) after)
    {world : World S Action A} (start : good ∅ children world) :
    (engine.pollJoin waiter ticket children each).Leads world fun found after =>
      ∃ visited, (∀ place, Rally.Calls world ticket place → place ∈ visited) ∧
        good visited found.2.get after := by
  by_cases few : count ≤ Rally.smallJoin
  · have through : (Vector.ofFnM each).Leads world fun left after =>
        ∃ now, left.get = (fun index => id (now index)) ∧
          ∃ visited, (∀ place : Fin count, place.val < count → place ∈ visited) ∧
            good visited now after := by
      apply Run.Leads.ofFnM_through (fun reached now world => ∃ visited,
        (∀ place : Fin count, place.val < reached → place ∈ visited) ∧ good visited now world) id
      · rintro now world index ⟨visited, before, holds⟩ same
        apply (small visited now world index holds same).mono
        intro left after holds
        refine ⟨left, rfl, insert index visited, ?_, holds⟩
        intro place reached
        rcases Nat.lt_succ_iff_lt_or_eq.1 reached with earlier | last
        · exact Set.mem_insert_of_mem index (before place earlier)
        · exact Fin.ext last ▸ Set.mem_insert index visited
      · exact ⟨∅, fun _ none => absurd none (Nat.not_lt_zero _), start⟩
    unfold pollJoin
    rw [if_pos few]
    apply through.bind
    rintro left after ⟨now, same, visited, all, holds⟩
    apply Run.Leads.pure
    rw [← show left.get = now from same] at holds
    exact ⟨visited, fun place _ => all place place.isLt, holds⟩
  · unfold pollJoin
    rw [if_neg few]
    cases ticket with
    | none =>
        dsimp only
        rw [pollFresh, if_neg few]
        apply Run.Leads.bindOk (world.openRally_eq count)
        have opened : World.Booked world (world.rallied count) := .single (.rallies world _ _)
        apply (Rally.resume_visits booked step waiter _ (booked _ _ _ _ opened start)).bind
        rintro left after ⟨visited, first, holds⟩
        apply Run.Leads.pure
        refine ⟨visited, fun place calls => ?_, holds⟩
        cases calls with
        | all few' => exact absurd few' few
        | opens zero =>
            apply first place (List.range' 1 (count - 1)) []
            rw [world.rally?_rallied, Rally.full_eq_range', zero, ← Nat.sub_add_cancel place.pos]
            rfl
    | some ticket =>
        apply (Rally.resume_visits booked step waiter ticket start).bind
        rintro left after ⟨visited, first, holds⟩
        apply Run.Leads.pure
        refine ⟨visited, fun place calls => ?_, holds⟩
        cases calls with
        | all few' => exact absurd few' few
        | woken found => exact first place _ _ found

end Visits

end Rounds

end EffectLoop
