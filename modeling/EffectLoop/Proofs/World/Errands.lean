import EffectLoop.Proofs.World.Rounds
import EffectLoop.Proofs.World.Splitting
import EffectLoop.Proofs.World.Tickets

/-!
# Work that one poll completes

When all the pieces of work of a batch are such that one poll completes them, the join of the batch runs
them in order, each of them once, and nothing else.  A large join keeps a queue of the pieces that are
still to be polled.  A piece that is woken while others run comes behind all that were not polled yet,
and by then it is over.
-/

namespace EffectLoop

variable {S ι : Type} {Action : ι → Type} {alphabet : ι}

/-- The work has not begun, and one poll, on a virtual clock, takes it to its end. -/
structure Host.Errand (host : Host S Action alphabet)
    (task : Pending S Action (Action alphabet) .finished) : Prop where
  fresh : task.Fresh
  ends : ∀ depth waiter world clock left after, world.keeper = .virtual clock →
    task.poll (host.engine depth) waiter world = (.ok left, after) → left = .done ()

/-- The pieces of work are run one after the other, each by one poll that takes it to its end; in between
only the books of joins change. -/
inductive Host.RunsEach (host : Host S Action alphabet) :
    List (Pending S Action (Action alphabet) .finished) → World S Action (Action alphabet) →
      World S Action (Action alphabet) → Prop where
  | nil {before after} : World.Booked before after → RunsEach host [] before after
  | cons {task rest before begun later after} (depth : Nat) (waiter : Waiter) :
      World.Booked before begun →
      task.poll (host.engine depth) waiter begun = (.ok (.done ()), later) →
      RunsEach host rest later after → RunsEach host (task :: rest) before after

variable {host : Host S Action alphabet}
variable {tasks more : List (Pending S Action (Action alphabet) .finished)}
variable {task : Pending S Action (Action alphabet) .finished}
variable {world before middle after : World S Action (Action alphabet)}
variable {clock : World.Clock S Action (Action alphabet)}

/-- Booking does not touch a virtual clock. -/
theorem World.Booked.keeper_eq (books : World.Booked before after)
    (keeper : before.keeper = .virtual clock) : after.keeper = .virtual clock := by
  induction books with
  | refl => exact keeper
  | tail _ booking ih =>
      cases booking with
      | rallies => exact ih
      | woken root => simp only [World.wakeRoot, ih]

/-- Polls do not exchange a virtual clock for another kind of scheduler. -/
theorem Pending.poll_virtual {depth : Nat} {waiter : Waiter}
    {left : Pending S Action (Action alphabet) .finished}
    (polled : task.poll (host.engine depth) waiter before = (.ok left, after))
    (keeper : before.keeper = .virtual clock) :
    ∃ moved : World.Clock S Action (Action alphabet), after.keeper = .virtual moved := by
  have happens : host.Happens .lax before (task.poll (host.engine depth) waiter before).2 :=
    .poll depth waiter task.within_lax
  obtain ⟨_, moved, keeperAfter, _⟩ := Host.Lives.moves (.single happens) keeper
  rw [polled] at keeperAfter
  exact ⟨moved, keeperAfter⟩

namespace Host.RunsEach

theorem booked (books : World.Booked before middle) (runs : host.RunsEach tasks middle after) :
    host.RunsEach tasks before after := by
  cases runs with
  | nil more => exact .nil (books.trans more)
  | cons depth waiter more polled rest => exact .cons depth waiter (books.trans more) polled rest

theorem append (first : host.RunsEach tasks before middle)
    (second : host.RunsEach more middle after) : host.RunsEach (tasks ++ more) before after := by
  induction first with
  | nil books => exact second.booked books
  | cons depth waiter books polled _ ih => exact .cons depth waiter books polled (ih second)

theorem single {depth : Nat} {waiter : Waiter}
    (polled : task.poll (host.engine depth) waiter before = (.ok (.done ()), after)) :
    host.RunsEach [task] before after :=
  .cons depth waiter .refl polled (.nil .refl)

theorem virtual (runs : host.RunsEach tasks before after) (keeper : before.keeper = .virtual clock) :
    ∃ moved : World.Clock S Action (Action alphabet), after.keeper = .virtual moved := by
  induction runs generalizing clock with
  | nil books => exact ⟨clock, books.keeper_eq keeper⟩
  | cons depth waiter books polled _ ih =>
      obtain ⟨moved, keeperThen⟩ := Pending.poll_virtual polled (books.keeper_eq keeper)
      exact ih keeperThen

end Host.RunsEach

/-! ## Rounds of errands -/

/-- What a round of polls of the family has done, if all its members are errands. -/
def Host.Rounds (host : Host S Action alphabet)
    (tasks : List (Pending S Action (Action alphabet) .finished))
    (world : World S Action (Action alphabet)) {count : Nat}
    (left : Vector (Pending S Action (Action alphabet) .finished) count)
    (after : World S Action (Action alphabet)) : Prop :=
  host.RunsEach tasks world after ∧ ∀ index, left.get index = .done ()

namespace Host.Errand

theorem polled (errand : host.Errand task) (keeper : world.keeper = .virtual clock) (depth : Nat)
    (waiter : Waiter) : (task.poll (host.engine depth) waiter).Leads world fun left after =>
      left = .done () ∧ host.RunsEach [task] world after := by
  constructor
  intro left after polled
  obtain rfl := errand.ends depth waiter world clock left after keeper polled
  exact ⟨rfl, .single polled⟩

/-- Where a large join polls it, it leaves the joins of others as they are. -/
theorem engine_polled (errand : host.Errand task) (fresh : host.Fresh)
    (keeper : world.keeper = .virtual clock) (depth : Nat) (waiter : Waiter) (floor : Nat) :
    ((host.engine depth).poll waiter task).Leads world fun left after =>
      left = .done () ∧ host.RunsEach [task] world after ∧
        (Regime.aloof floor).Allows world after := by
  constructor
  intro left after polled
  have allowed := ((Host.engine_aloof fresh depth).poll waiter (errand.fresh floor) world).1
  rw [polled] at allowed
  cases depth with
  | zero => cases polled
  | succ depth =>
      obtain ⟨ended, ran⟩ := (errand.polled keeper depth waiter).holds left after polled
      exact ⟨ended, ran, allowed⟩

end Host.Errand

/-- A small join runs its errands in order. -/
theorem Host.ofFnM_rounds {count : Nat}
    {children : Fin count → Pending S Action (Action alphabet) .finished}
    {each : Fin count →
      Run S Action (Action alphabet) (Pending S Action (Action alphabet) .finished)}
    (runs : ∀ index (world : World S Action (Action alphabet)) clock, world.keeper = .virtual clock →
      (each index).Leads world fun left after =>
        left = .done () ∧ host.RunsEach [children index] world after)
    (keeper : world.keeper = .virtual clock) :
    (Vector.ofFnM each).Leads world (host.Rounds (List.ofFn children) world) := by
  induction count generalizing world clock with
  | zero =>
      rw [Vector.ofFnM_zero]
      apply Run.Leads.pure
      refine ⟨?_, fun index => index.elim0⟩
      rw [List.ofFn_zero]
      exact .nil .refl
  | succ count ih =>
      rw [Vector.ofFnM_succ]
      apply (ih (fun index => runs index.castSucc) keeper).bind
      intro others middle found
      obtain ⟨ran, ended⟩ := found
      obtain ⟨moved, keeperThen⟩ := ran.virtual keeper
      apply (runs (Fin.last count) middle moved keeperThen).bind
      rintro final after ⟨rfl, ranThen⟩
      apply Run.Leads.pure
      refine ⟨?_, fun index => ?_⟩
      · rw [List.ofFn_succ_last]
        exact ran.append ranThen
      · rw [get_push_eq_snoc]
        cases index using Fin.lastCases with
        | last => exact Fin.snoc_last (α := fun _ => Pending S Action (Action alphabet) .finished) _ _
        | cast index =>
            exact (Fin.snoc_castSucc (α := fun _ => Pending S Action (Action alphabet) .finished)
              _ _ index).trans (ended index)

section Rally

variable (fresh : host.Fresh) {ticket depth count : Nat} {waiter : Waiter}
variable {children : Vector (Pending S Action (Action alphabet) .finished) count}

/-- Of a large join whose children are ended, only the books change. -/
theorem Rally.poll_over (ended : ∀ index, children.get index = .done ())
    (remaining stopped restless fuel : Nat) :
    (Rally.poll (host.engine depth).poll waiter ticket children remaining stopped restless fuel).Leads
      world (host.Rounds [] world) := by
  have booked (now : Fin count → Pending S Action (Action alphabet) .finished)
      (before after : World S Action (Action alphabet)) (books : World.Booked before after)
      (kept : (∀ index, now index = .done ()) ∧ World.Booked world before) :
      (∀ index, now index = .done ()) ∧ World.Booked world after :=
    ⟨kept.1, kept.2.trans books⟩
  have step (now : Fin count → Pending S Action (Action alphabet) .finished)
      (middle : World S Action (Action alphabet)) (index : Fin count) (waiter : Waiter)
      (kept : (∀ index, now index = .done ()) ∧ World.Booked world middle) :
      ((host.engine depth).poll waiter (now index)).Leads middle fun left after =>
        (∀ place, Function.update now index left place = .done ()) ∧ World.Booked world after := by
    rw [kept.1 index]
    cases depth with
    | zero => exact .throw .exhausted
    | succ depth =>
        apply Run.Leads.pure
        refine ⟨fun place => ?_, kept.2⟩
        by_cases same : place = index
        · rw [same, Function.update_self]
        · rw [Function.update_of_ne same]
          exact kept.1 place
  apply (Rally.poll_leads booked step waiter ticket ⟨ended, .refl⟩ remaining stopped restless fuel).mono
  rintro left after ⟨ended, books⟩
  exact ⟨.nil books, ended⟩

include fresh

/-- A large join runs its errands in the order of its queue, which is their own. -/
theorem Rally.poll_rounds (errands : ∀ task ∈ tasks, host.Errand task) {place : Nat}
    {woken finished : List Nat} (whole : children.toList = List.replicate place (.done ()) ++ tasks)
    (found : world.rally? ticket = some ⟨List.range' place tasks.length ++ woken, finished⟩)
    (inside : ticket < world.nextTicket) (keeper : world.keeper = .virtual clock)
    {remaining fuel : Nat} (enough : tasks.length ≤ fuel) :
    (Rally.poll (host.engine depth).poll waiter ticket children remaining 0 0 fuel).Leads world
      (host.Rounds tasks world) := by
  induction tasks generalizing children world clock place woken finished remaining fuel with
  | nil =>
      apply Rally.poll_over
      intro index
      have member : children.get index ∈ children.toList :=
        Vector.mem_toList_iff.2 (Vector.getElem_mem index.isLt)
      rw [whole, List.append_nil] at member
      exact List.eq_of_mem_replicate member
  | cons task rest ih =>
      cases fuel with
      | zero => simp at enough
      | succ fuel =>
      obtain ⟨errand, others⟩ := List.forall_mem_cons.1 errands
      obtain ⟨within, head, set⟩ := Rally.child_of_append whole List.length_replicate
      rw [List.length_cons, List.range'_succ, List.cons_append] at found
      apply Run.Leads.bindOk (Rally.takeChild_cons found)
      dsimp only
      rw [dif_pos within, head]
      -- While the first one runs, the others stay in the queue, and only this one can be woken.
      have taken := world.booked_setRally ticket ⟨List.range' (place + 1) rest.length ++ woken, finished⟩
      apply (errand.engine_polled fresh (taken.keeper_eq keeper) depth _ (ticket + 1)).bind
      rintro left later ⟨rfl, ran, allowed⟩
      obtain ⟨insideLater, aloof⟩ := allowed inside
      obtain ⟨more, queued⟩ := aloof ticket (Nat.lt_succ_self _) _ _ (world.rally?_setRally_self ticket _)
      obtain ⟨moved, keeperThen⟩ := ran.virtual (taken.keeper_eq keeper)
      apply Run.Leads.bindOk (Rally.finish_eq queued)
      have finished := later.booked_setRally ticket
        ⟨List.range' (place + 1) rest.length ++ (woken ++ more), place :: finished⟩
      rw [List.append_assoc]
      refine (ih others ?_ (later.rally?_setRally_self ticket _) insideLater
        (finished.keeper_eq keeperThen) (Nat.le_of_succ_le_succ enough)).mono ?_
      · rw [set, List.replicate_succ']
      · rintro left after ⟨ranThen, ended⟩
        exact ⟨(ran.booked taken).append (ranThen.booked finished), ended⟩

/-- The join of a batch of errands runs them in their order, each of them once, and nothing else. -/
theorem Engine.pollJoin_rounds (errands : ∀ task ∈ tasks, host.Errand task)
    (keeper : world.keeper = .virtual clock) :
    ((host.engine depth).pollJoin waiter none tasks.get fun index =>
      (tasks.get index).poll (host.engine depth) waiter).Leads world
        fun found after => host.Rounds tasks world found.2 after := by
  unfold Engine.pollJoin
  split
  next small =>
    have rounds := Host.ofFnM_rounds (fun index world clock keeper =>
      (errands _ (List.get_mem tasks index)).polled keeper depth waiter) keeper
    rw [List.ofFn_get] at rounds
    apply rounds.bind
    intro left after found
    exact .pure found
  next large =>
    dsimp only
    rw [Engine.pollFresh, if_neg large]
    apply Run.Leads.bindOk (world.openRally_eq tasks.length)
    have opened := world.rally?_rallied tasks.length
    have books : World.Booked world (world.rallied tasks.length) := .single (.rallies world _ _)
    rw [Rally.resume, bind_assoc]
    apply Run.Leads.look
    have queued : (world.rallied tasks.length).rally? world.nextTicket =
        some ⟨List.range' 0 tasks.length ++ [], []⟩ := by
      rw [opened, List.append_nil, Rally.full_eq_range']
    have whole : (Vector.ofFn tasks.get).toList =
        List.replicate 0 (.done () : Pending S Action (Action alphabet) .finished) ++ tasks := by
      simp [Vector.toList]
    apply (Rally.poll_rounds fresh errands whole queued (Nat.lt_succ_self _) (books.keeper_eq keeper)
      (by omega)).bind
    rintro left after ⟨ran, ended⟩
    exact .pure ⟨ran.booked books, ended⟩

end Rally

end EffectLoop
