import EffectLoop.Proofs.Time.Ledger
import EffectLoop.Proofs.Time.Tasks

/-!
# The entries of a task clock

A task clock enters a schedule when it is asked for, and strikes the entry out when the schedule is
cancelled, or when one that does not repeat begins its firing.  What is entered is what the ledger
of the clock has in use.
-/

namespace EffectLoop

namespace TaskClock

variable {τ : Type} {clock moved : TaskClock τ} {ledger : Ledger} {handle other : TimerHandle}

/-- The clock has entered what the ledger has in use, and has counted its calls. -/
structure Agrees (clock : TaskClock τ) (ledger : Ledger) : Prop where
  sound : ledger.Sound
  counted : clock.issued.toNat = ledger.calls
  distinct : (clock.active.map Prod.fst).Nodup
  entered : ∀ handle, ledger.InUse handle ↔ clock.Active handle

theorem active_iff : clock.Active handle ↔ handle ∈ clock.active.map Prod.fst := by
  simp [Active]

theorem initial_agrees : (initial : TaskClock τ).Agrees [] where
  sound := Ledger.sound_nil
  counted := rfl
  distinct := List.nodup_nil
  entered := by simp [Ledger.InUse, Ledger.Live, Active, initial]

theorem clear_eq_true_iff : (clock.clear handle).1 = true ↔ clock.Active handle := by
  cases clock.clear_cases handle with
  | inl absent => simp [absent.1, absent.2.1]
  | inr present =>
      obtain ⟨task, entered, answer, -⟩ := present
      exact ⟨fun _ => ⟨task, entered⟩, fun _ => answer⟩

theorem clear_eq_of_false (refused : (clock.clear handle).1 = false) :
    (clock.clear handle).2 = clock := by
  cases clock.clear_cases handle with
  | inl absent => exact absent.2.2
  | inr present =>
      obtain ⟨task, -, answer, -⟩ := present
      rw [refused] at answer
      cases answer

theorem enqueue_issued (clock : TaskClock τ) (task : Nat) :
    (clock.enqueue task).issued = clock.issued := by
  unfold enqueue
  split <;> rfl

theorem abort_issued (clock : TaskClock τ) (task : Nat) :
    (clock.abort task).issued = clock.issued := by
  unfold abort
  split <;> rfl

theorem clear_issued (clock : TaskClock τ) (handle : TimerHandle) :
    (clock.clear handle).2.issued = clock.issued := by
  cases clock.clear_cases handle with
  | inl absent => rw [absent.2.2]
  | inr present =>
      obtain ⟨task, -, -, same⟩ := present
      rw [same]
      exact (clock.forget handle).abort_issued task

theorem mem_of_mem_abort (clock : TaskClock τ) {task : Nat} {entry : Nat × τ}
    (within : entry ∈ (clock.abort task).tasks) : entry ∈ clock.tasks := by
  unfold abort at within
  split at within
  · exact within
  · exact List.mem_of_mem_filter within

theorem mem_of_mem_clear (clock : TaskClock τ) {handle : TimerHandle} {entry : Nat × τ}
    (within : entry ∈ (clock.clear handle).2.tasks) : entry ∈ clock.tasks := by
  cases clock.clear_cases handle with
  | inl absent =>
      rw [absent.2.2] at within
      exact within
  | inr present =>
      obtain ⟨task, -, -, same⟩ := present
      rw [same] at within
      exact (clock.forget handle).mem_of_mem_abort within

theorem clear_active (clock : TaskClock τ) (handle : TimerHandle) :
    (clock.clear handle).2.active = (clock.forget handle).active := by
  cases clock.clear_cases handle with
  | inl absent =>
      have others : ∀ entry ∈ clock.active, entry.1 ≠ handle := by
        intro entry within same
        exact absent.2.1 ⟨entry.2, same ▸ within⟩
      rw [absent.2.2]
      exact (List.filter_eq_self.2 (by simpa using others)).symm
  | inr present =>
      obtain ⟨task, -, -, same⟩ := present
      rw [same, abort_active]

theorem active_forget_iff :
    (clock.forget handle).Active other ↔ clock.Active other ∧ other ≠ handle := by
  constructor
  · intro active
    refine ⟨active.of_forget, ?_⟩
    intro same
    subst same
    exact clock.forget_inactive other active
  · intro active
    obtain ⟨⟨task, within⟩, different⟩ := active
    exact ⟨task, List.mem_filter.2 ⟨within, by simpa using different⟩⟩

theorem active_clear_iff :
    (clock.clear handle).2.Active other ↔ clock.Active other ∧ other ≠ handle := by
  change (∃ task, (other, task) ∈ (clock.clear handle).2.active) ↔ _
  rw [clear_active]
  exact active_forget_iff

/-! ## Running -/

/-- The task that runs next is one of the tasks, and no schedule is concerned. -/
theorem takeReady_entries {taken : TaskClock τ} {task : Nat} {body : τ}
    (ready : clock.takeReady = (some (task, body), taken)) :
    (task, body) ∈ clock.tasks ∧ taken.issued = clock.issued ∧ taken.active = clock.active ∧
      ∀ entry ∈ taken.tasks, entry ∈ clock.tasks := by
  obtain ⟨within, rest, -, rfl⟩ := takeReady_eq ready
  exact ⟨within, rfl, rfl, fun _ left => List.mem_of_mem_filter left⟩

theorem takeReady_none_issued {taken : TaskClock τ} (ready : clock.takeReady = (none, taken)) :
    taken.issued = clock.issued := by
  obtain ⟨queue, rfl, -⟩ := takeReady_none_eq ready
  rfl

theorem putBack_issued (clock : TaskClock τ) (task : Nat) (body : τ) :
    (clock.putBack task body).issued = clock.issued := by
  unfold putBack
  split <;> rfl

theorem mem_of_mem_putBack (clock : TaskClock τ) {task : Nat} {body : τ} {entry : Nat × τ}
    (within : entry ∈ (clock.putBack task body).tasks) :
    entry ∈ clock.tasks ∨ entry = (task, body) := by
  unfold putBack at within
  split at within
  · exact .inl within
  · exact (List.mem_append.1 within).imp_right List.mem_singleton.1

namespace Agrees

variable (agrees : clock.Agrees ledger)
include agrees

/-- What the clock can cancel is in use. -/
theorem clear_iff : (clock.clear handle).1 = true ↔ ledger.InUse handle :=
  clear_eq_true_iff.trans (agrees.entered handle).symm

/-- As many schedules are active as can be cancelled. -/
theorem length_active :
    clock.active.length = {handle | (clock.clear handle).1 = true}.ncard := by
  have same : {handle | (clock.clear handle).1 = true} =
      ((clock.active.map Prod.fst).toFinset : Set TimerHandle) := by
    ext handle
    simp [clear_eq_true_iff, active_iff]
  rw [same, Set.ncard_coe_finset, List.toFinset_card_of_nodup agrees.distinct, List.length_map]

/-- As long as handles last, the next one bears the number of the call. -/
theorem next_number (few : ledger.calls + 1 < 2 ^ 64) :
    (clock.issued + 1).toNat = ledger.calls + 1 := by
  rw [← agrees.counted] at few ⊢
  simp only [UInt64.toNat_add, UInt64.reduceToNat]
  omega

theorem same (issued : moved.issued = clock.issued) (active : moved.active = clock.active) :
    moved.Agrees ledger := by
  constructor
  · exact agrees.sound
  · rw [issued]
    exact agrees.counted
  · rw [active]
    exact agrees.distinct
  · intro handle
    rw [agrees.entered, Active, Active, active]

/-- A schedule is entered under the next handle. -/
theorem scheduled (repeating : Bool) {task : Nat} (few : ledger.calls + 1 < 2 ^ 64)
    (issued : moved.issued = clock.issued + 1)
    (active : moved.active = clock.active ++ [(⟨clock.issued + 1⟩, task)]) :
    moved.Agrees (.scheduled (some ⟨clock.issued + 1⟩) repeating :: ledger) := by
  have number := agrees.next_number few
  have fresh : ¬clock.Active ⟨clock.issued + 1⟩ := by
    intro known
    obtain ⟨kind, listed, -⟩ := (agrees.entered _).2 known
    have least := (agrees.sound.numbered listed).2
    simp only [number] at least
    omega
  constructor
  · apply agrees.sound.cons
    intro handle answered
    cases answered
    exact number
  · rw [issued, Ledger.calls_scheduled]
    exact number
  · rw [active, List.map_append, List.map_singleton, List.nodup_append]
    refine ⟨agrees.distinct, List.nodup_singleton _, ?_⟩
    intro old known new made same
    cases List.mem_singleton.1 made
    rw [same] at known
    exact fresh (active_iff.2 known)
  · intro handle
    have inUse : Ledger.InUse (.scheduled (some ⟨clock.issued + 1⟩) repeating :: ledger) handle ↔
        ledger.InUse handle ∨ handle = ⟨clock.issued + 1⟩ := by
      simp only [Ledger.InUse, agrees.sound.live_answered number, exists_or]
      simp
    rw [inUse, agrees.entered, active_iff, active_iff, active]
    simp

theorem cleared (handle : TimerHandle) :
    (clock.clear handle).2.Agrees (.cleared handle (clock.clear handle).1 :: ledger) where
  sound := agrees.sound.cons agrees.clear_iff
  counted := by
    rw [clear_issued, Ledger.calls_cleared]
    exact agrees.counted
  distinct := by
    rw [clear_active]
    exact agrees.distinct.sublist (List.filter_sublist.map _)
  entered := by
    intro other
    cases answer : (clock.clear handle).1 with
    | true =>
        have inUse : Ledger.InUse (.cleared handle true :: ledger) other ↔
            ledger.InUse other ∧ other ≠ handle := by
          simp [Ledger.InUse]
        rw [inUse, agrees.entered, active_clear_iff]
    | false =>
        have inUse : Ledger.InUse (.cleared handle false :: ledger) other ↔ ledger.InUse other := by
          simp [Ledger.InUse]
        rw [inUse, agrees.entered, clear_eq_of_false answer]

/-- A schedule that does not repeat is struck out when its firing begins. -/
theorem expired (single : .scheduled (some handle) false ∈ ledger) (active : clock.Active handle) :
    (clock.forget handle).Agrees (.fired handle :: ledger) where
  sound := agrees.sound.cons ((agrees.entered handle).2 active)
  counted := by
    rw [Ledger.calls_fired]
    exact agrees.counted
  distinct := agrees.distinct.sublist (List.filter_sublist.map _)
  entered := by
    intro other
    have inUse : Ledger.InUse (.fired handle :: ledger) other ↔
        ledger.InUse other ∧ other ≠ handle := by
      simp only [Ledger.InUse, Ledger.live_fired]
      constructor
      · intro found
        obtain ⟨kind, live, repeats | different⟩ := found
        · refine ⟨⟨kind, live⟩, ?_⟩
          intro same
          subst same
          have also := agrees.sound.unique single live.1
          rw [repeats] at also
          cases also
        · exact ⟨⟨kind, live⟩, different⟩
      · intro found
        obtain ⟨⟨kind, live⟩, different⟩ := found
        exact ⟨kind, live, .inr different⟩
    rw [inUse, agrees.entered, active_forget_iff]

end Agrees

end TaskClock

end EffectLoop
