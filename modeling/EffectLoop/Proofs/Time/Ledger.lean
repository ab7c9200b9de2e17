import Mathlib.Data.Set.Card
import EffectLoop.Proofs.Time.Motion

/-!
# Handle ledgers

A scheduler hands out handles, cancels them, and fires the schedules that they name.  Its ledger is the
list of these dealings with the answers that were given.  A ledger is *sound* if every entry is right
where it stands: a handle bears the number of its call, an answer to a cancellation says whether the
handle was in use, and only what is in use fires.  The ledger itself says what is in use, so that
soundness refers to nothing but the ledger.

What a virtual clock has registered is what its ledger has in use, after every move.
-/

namespace EffectLoop

/-- A dealing with a scheduler. -/
inductive Dealing where
  /-- A schedule was asked for.  The answer is its handle, if the call has answered. -/
  | scheduled (answer : Option TimerHandle) (repeating : Bool)
  /-- A cancellation was asked for. -/
  | cleared (handle : TimerHandle) (answer : Bool)
  /-- A firing begins. -/
  | fired (handle : TimerHandle)
  deriving DecidableEq

/-- All dealings with a scheduler, the latest first. -/
abbrev Ledger := List Dealing

namespace Ledger

/-- Is the entry a call for a schedule? -/
def isCall : Dealing → Bool
  | .scheduled _ _ => true
  | .cleared _ _ | .fired _ => false

/-- How many schedules were asked for. -/
def calls (ledger : Ledger) : Nat := ledger.countP isCall

/-- The handle that the entry hands out. -/
def handedOut? : Dealing → Option TimerHandle
  | .scheduled answer _ => answer
  | .cleared _ _ | .fired _ => none

/-- The handles that were handed out, the earliest first. -/
def handedOut (ledger : Ledger) : List TimerHandle := ledger.reverse.filterMap handedOut?

/-- The handle was handed out for a schedule of that kind and was not cancelled since; a schedule that
does not repeat has not fired yet. -/
def Live (ledger : Ledger) (handle : TimerHandle) (repeating : Bool) : Prop :=
  .scheduled (some handle) repeating ∈ ledger ∧ .cleared handle true ∉ ledger ∧
    (repeating = true ∨ .fired handle ∉ ledger)

/-- The handle names a schedule that may still fire. -/
def InUse (ledger : Ledger) (handle : TimerHandle) : Prop := ∃ repeating, ledger.Live handle repeating

variable {ledger earlier : Ledger} {entry : Dealing} {handle other : TimerHandle} {repeating kind : Bool}
variable {answer : Bool}

@[simp] theorem calls_nil : calls [] = 0 := rfl

@[simp] theorem calls_scheduled (answer : Option TimerHandle) :
    calls (.scheduled answer repeating :: ledger) = ledger.calls + 1 :=
  List.countP_cons_of_pos rfl

@[simp] theorem calls_cleared : calls (.cleared handle answer :: ledger) = ledger.calls := by
  simp [calls, isCall]

@[simp] theorem calls_fired : calls (.fired handle :: ledger) = ledger.calls := by
  simp [calls, isCall]

theorem handedOut_cons (entry : Dealing) (ledger : Ledger) :
    handedOut (entry :: ledger) = handedOut ledger ++ (handedOut? entry).toList := by
  cases given : handedOut? entry <;> simp [handedOut, given]

theorem calls_le_of_suffix (suffix : earlier <:+ ledger) : earlier.calls ≤ ledger.calls :=
  suffix.sublist.countP_le

@[simp] theorem live_refused :
    Live (.scheduled none repeating :: ledger) handle kind ↔ ledger.Live handle kind := by
  simp [Live]

@[simp] theorem live_cleared_false :
    Live (.cleared other false :: ledger) handle kind ↔ ledger.Live handle kind := by
  simp [Live]

@[simp] theorem live_cleared_true :
    Live (.cleared other true :: ledger) handle kind ↔ ledger.Live handle kind ∧ handle ≠ other := by
  simp [Live]
  tauto

@[simp] theorem live_fired :
    Live (.fired other :: ledger) handle kind ↔
      ledger.Live handle kind ∧ (kind = true ∨ handle ≠ other) := by
  simp [Live]
  tauto

/-! ## Sound ledgers -/

/-- The entry is right after such a ledger. -/
def Admits (ledger : Ledger) : Dealing → Prop
  | .scheduled answer _ => ∀ handle, answer = some handle → handle.id.toNat = ledger.calls + 1
  | .cleared handle answer => answer = true ↔ ledger.InUse handle
  | .fired handle => ledger.InUse handle

/-- Every entry is right where it stands. -/
def Sound (ledger : Ledger) : Prop := 
  ∀ entry (earlier : Ledger), entry :: earlier <:+ ledger → earlier.Admits entry

theorem sound_nil : Sound [] := by
  intro entry earlier suffix
  cases List.suffix_nil.1 suffix

theorem Sound.cons (sound : ledger.Sound) (admits : ledger.Admits entry) : Sound (entry :: ledger) := by
  intro other earlier suffix
  cases List.suffix_cons_iff.1 suffix with
  | inl whole =>
      cases whole
      exact admits
  | inr within => exact sound other earlier within

namespace Sound

variable (sound : ledger.Sound)
include sound

/-- Handles bear the numbers of the calls that were made. -/
theorem numbered (within : .scheduled (some handle) repeating ∈ ledger) :
    0 < handle.id.toNat ∧ handle.id.toNat ≤ ledger.calls := by
  obtain ⟨later, earlier, rfl⟩ := List.append_of_mem within
  have suffix : .scheduled (some handle) repeating :: earlier <:+
      later ++ .scheduled (some handle) repeating :: earlier := List.suffix_append _ _
  have number := sound _ _ suffix handle rfl
  have most := calls_le_of_suffix suffix
  rw [calls_scheduled] at most
  omega

/-- What is settled about a handle is settled after the call for it. -/
theorem scheduled_of_fired (within : .fired handle ∈ ledger) :
    ∃ repeating, .scheduled (some handle) repeating ∈ ledger := by
  obtain ⟨later, earlier, rfl⟩ := List.append_of_mem within
  obtain ⟨repeating, known, -⟩ := sound _ _ (List.suffix_append _ _)
  exact ⟨repeating, by simp [known]⟩

theorem scheduled_of_cleared (within : .cleared handle true ∈ ledger) :
    ∃ repeating, .scheduled (some handle) repeating ∈ ledger := by
  obtain ⟨later, earlier, rfl⟩ := List.append_of_mem within
  obtain ⟨repeating, known, -⟩ := (sound _ _ (List.suffix_append _ _)).1 rfl
  exact ⟨repeating, by simp [known]⟩

/-- No handle is handed out twice. -/
theorem unique (within : .scheduled (some handle) repeating ∈ ledger)
    (again : .scheduled (some handle) kind ∈ ledger) : repeating = kind := by
  induction ledger with
  | nil => cases within
  | cons entry ledger ih =>
      have before : Sound ledger := fun other earlier suffix =>
        sound other earlier (suffix.trans (List.suffix_cons _ _))
      have fresh {kind : Bool} (first : .scheduled (some handle) kind = entry) :
          handle.id.toNat = calls ledger + 1 := by
        subst first
        exact sound _ _ List.suffix_rfl handle rfl
      cases List.mem_cons.1 within with
      | inl first =>
          cases List.mem_cons.1 again with
          | inl same =>
              rw [← first] at same
              cases same
              rfl
          | inr old =>
              have number := fresh first
              have least := (before.numbered old).2
              omega
      | inr old =>
          cases List.mem_cons.1 again with
          | inl first =>
              have number := fresh first
              have least := (before.numbered old).2
              omega
          | inr also => exact ih before old also

/-- The handle of the next call is not known before. -/
theorem live_answered (number : other.id.toNat = ledger.calls + 1) :
    Live (.scheduled (some other) repeating :: ledger) handle kind ↔
      ledger.Live handle kind ∨ handle = other ∧ kind = repeating := by
  have unknown (kind : Bool) : .scheduled (some other) kind ∉ ledger := by
    intro known
    have least := (sound.numbered known).2
    omega
  have uncleared : .cleared other true ∉ ledger := by
    intro cleared
    obtain ⟨kind, known⟩ := sound.scheduled_of_cleared cleared
    exact unknown kind known
  have unfired : .fired other ∉ ledger := by
    intro fired
    obtain ⟨kind, known⟩ := sound.scheduled_of_fired fired
    exact unknown kind known
  by_cases same : handle = other
  · subst same
    simp [Live, unknown, uncleared, unfired]
  · simp [Live, same]

/-- After a cancellation that was answered with yes, nothing fires. -/
theorem silent (later earlier : Ledger) (whole : ledger = later ++ .cleared handle true :: earlier) :
    .fired handle ∉ later := by
  intro fired
  obtain ⟨latest, between, rfl⟩ := List.append_of_mem fired
  have suffix : .fired handle :: (between ++ .cleared handle true :: earlier) <:+ ledger := by
    rw [whole, List.append_assoc]
    exact List.suffix_append _ _
  obtain ⟨-, -, uncleared, -⟩ := sound _ _ suffix
  exact uncleared (by simp)

/-- What does not repeat fires once at most. -/
theorem once (single : .scheduled (some handle) false ∈ ledger) :
    ledger.count (.fired handle) ≤ 1 := by
  apply Nat.le_of_not_lt
  intro twice
  have first : .fired handle ∈ ledger := List.count_pos_iff.1 (by omega)
  obtain ⟨later, earlier, rfl, fresh⟩ := List.eq_append_cons_of_mem first
  have unfired : List.count (.fired handle) later = 0 := List.count_eq_zero.2 fresh
  rw [List.count_append, List.count_cons_self, unfired] at twice
  have again : .fired handle ∈ earlier := List.count_pos_iff.1 (by omega)
  obtain ⟨repeating, known, -, may⟩ := sound _ _ (List.suffix_append _ _)
  cases may with
  | inl repeats =>
      subst repeats
      have also : .scheduled (some handle) true ∈ later ++ .fired handle :: earlier := by simp [known]
      cases sound.unique single also
  | inr never => exact never again

/-- Unless a call fails to answer, the handles are one, two, three and so on. -/
theorem sequence (answered : ∀ repeating, .scheduled none repeating ∉ ledger) :
    (handedOut ledger).map (·.id.toNat) = List.range' 1 ledger.calls := by
  induction ledger with
  | nil => rfl
  | cons entry ledger ih =>
      have before := ih
        (fun other earlier suffix => sound other earlier (suffix.trans (List.suffix_cons _ _)))
        fun repeating within => answered repeating (List.mem_cons_of_mem _ within)
      cases entry with
      | scheduled answer repeating =>
          cases answer with
          | none => exact (answered repeating List.mem_cons_self).elim
          | some handle =>
              have number := sound _ _ List.suffix_rfl handle rfl
              rw [handedOut_cons, calls_scheduled, List.range'_1_concat, List.map_append, before]
              simp [handedOut?, number, Nat.add_comm]
      | cleared handle answer => simpa [handedOut_cons, handedOut?] using before
      | fired handle => simpa [handedOut_cons, handedOut?] using before

end Sound

/-- What can be read off a ledger that is kept well. -/
structure Upheld (ledger : Ledger) : Prop where
  /-- A handle bears the number of its call. -/
  numbered : ∀ handle repeating (earlier : Ledger), .scheduled (some handle) repeating :: earlier <:+ ledger →
    handle.id.toNat = earlier.calls + 1
  /-- If every call has answered, the handles are one, two, three and so on. -/
  sequence : (∀ repeating, .scheduled none repeating ∉ ledger) →
    (handedOut ledger).map (·.id.toNat) = List.range' 1 ledger.calls
  /-- A cancellation is answered with yes exactly if the handle is in use. -/
  truthful : ∀ handle answer (earlier : Ledger), .cleared handle answer :: earlier <:+ ledger →
    (answer = true ↔ earlier.InUse handle)
  /-- After that it never fires. -/
  silent : ∀ handle later earlier, ledger = later ++ .cleared handle true :: earlier →
    .fired handle ∉ later
  /-- What does not repeat fires once at most. -/
  once : ∀ handle, .scheduled (some handle) false ∈ ledger → ledger.count (.fired handle) ≤ 1
  /-- Only what is in use fires. -/
  justified : ∀ handle (earlier : Ledger), .fired handle :: earlier <:+ ledger → earlier.InUse handle

theorem Sound.upheld (sound : ledger.Sound) : ledger.Upheld where
  numbered handle _ earlier suffix := sound _ earlier suffix handle rfl
  sequence := sound.sequence
  truthful _ _ earlier suffix := sound _ earlier suffix
  silent _ later earlier := sound.silent later earlier
  once _ := sound.once
  justified _ earlier suffix := sound _ earlier suffix

end Ledger

/-! ## The ledger of a virtual clock -/

namespace VirtualClock

variable {τ : Type} {clock after : VirtualClock τ} {move : Move τ} {ledger : Ledger}

/-- The clock has registered what the ledger has in use, and has counted its calls. -/
structure Agrees (clock : VirtualClock τ) (ledger : Ledger) : Prop where
  sound : ledger.Sound
  counted : clock.issued.toNat = ledger.calls
  distinct : (clock.timers.map Timer.handle).Nodup
  registered : ∀ handle repeating, ledger.Live handle repeating ↔
    ∃ timer ∈ clock.timers, timer.handle = handle ∧ timer.period.isSome = repeating

/-- The entry of the ledger for a move, if it has one. -/
def Move.dealings (clock : VirtualClock τ) : Move τ → Ledger
  | scheduled delay repeating task =>
      [.scheduled (clock.schedule delay repeating task).1 repeating]
  | cleared handle => [.cleared handle (clock.clear handle).1]
  | fired _ timer => [.fired timer.handle]
  | spawned _ | drained | strained _ _ | arrived _ => []

theorem initial_agrees : (initial : VirtualClock τ).Agrees [] where
  sound := Ledger.sound_nil
  counted := rfl
  distinct := List.nodup_nil
  registered := by simp [Ledger.Live, initial]

/-- A schedule is registered unless its due time is no duration. -/
theorem schedule_answer {delay : Duration} {repeating : Bool} (task : τ)
    (sum : (clock.now.add? (if repeating then repeatPeriod delay else delay)).isSome) :
    (clock.schedule delay repeating task).1 = some ⟨clock.issued + 1⟩ := by
  have delayed : (if repeating then some (repeatPeriod delay) else none).getD delay =
      if repeating then repeatPeriod delay else delay := by
    cases repeating <;> rfl
  obtain ⟨due, sum⟩ := Option.isSome_iff_exists.1 sum
  simp only [schedule, delayed, sum]

namespace Agrees

variable (agrees : clock.Agrees ledger)
include agrees

/-- What the clock can cancel is in use. -/
theorem clear_iff (handle : TimerHandle) :
    (clock.clear handle).1 = true ↔ ledger.InUse handle := by
  simp only [Ledger.InUse, agrees.registered, clear, List.any_eq_true, decide_eq_true_eq]
  constructor
  · rintro ⟨timer, within, same⟩
    exact ⟨timer.period.isSome, timer, within, same, rfl⟩
  · rintro ⟨_, timer, within, same, -⟩
    exact ⟨timer, within, same⟩

/-- Schedules with the same handle are the same. -/
theorem eq_of_handle_eq {left right : Timer τ} (within : left ∈ clock.timers)
    (also : right ∈ clock.timers) (same : left.handle = right.handle) : left = right :=
  List.inj_on_of_nodup_map agrees.distinct within also same

theorem inUse_of_mem {timer : Timer τ} (within : timer ∈ clock.timers) :
    ledger.InUse timer.handle :=
  ⟨_, (agrees.registered _ _).2 ⟨timer, within, rfl, rfl⟩⟩

/-- As many schedules are registered as can be cancelled. -/
theorem pending_eq :
    clock.pending = {handle | (clock.clear handle).1 = true}.ncard := by
  have same : {handle | (clock.clear handle).1 = true} =
      ((clock.timers.map Timer.handle).toFinset : Set TimerHandle) := by
    ext handle
    simp [clear]
  rw [same, Set.ncard_coe_finset, List.toFinset_card_of_nodup agrees.distinct, List.length_map]
  rfl

/-- As long as handles last, the next one bears the number of the call. -/
theorem number_eq (few : ledger.calls + 1 < 2 ^ 64) :
    (clock.issued + 1).toNat = ledger.calls + 1 := by
  rw [← agrees.counted] at few ⊢
  simp only [UInt64.toNat_add, UInt64.reduceToNat]
  omega

theorem scheduled (delay : Duration) (repeating : Bool) (task : τ)
    (few : ledger.calls + 1 < 2 ^ 64) :
    (clock.schedule delay repeating task).2.Agrees
      (.scheduled (clock.schedule delay repeating task).1 repeating :: ledger) := by
  have number := agrees.number_eq few
  simp only [schedule]
  split
  next =>
    constructor
    · apply agrees.sound.cons
      intro handle answered
      cases answered
    · simpa using number
    · exact agrees.distinct
    · simpa using agrees.registered
  next due sum =>
    constructor
    · apply agrees.sound.cons
      intro handle answered
      cases answered
      exact number
    · simpa using number
    · rw [List.map_append, List.nodup_append]
      refine ⟨agrees.distinct, List.nodup_singleton _, ?_⟩
      intro old known new made same
      cases List.mem_singleton.1 made
      obtain ⟨timer, within, rfl⟩ := List.mem_map.1 known
      obtain ⟨kind, listed, -⟩ := agrees.inUse_of_mem within
      have least := (agrees.sound.numbered listed).2
      rw [same] at least
      simp only at least
      omega
    · intro handle kind
      rw [agrees.sound.live_answered number, agrees.registered]
      simp only [List.mem_append, List.mem_singleton, or_and_right, exists_or, exists_eq_left]
      cases repeating <;> simp [eq_comm]

theorem cleared (handle : TimerHandle) :
    (clock.clear handle).2.Agrees (.cleared handle (clock.clear handle).1 :: ledger) where
  sound := agrees.sound.cons (agrees.clear_iff handle)
  counted := by
    rw [Ledger.calls_cleared]
    exact agrees.counted
  distinct := agrees.distinct.sublist (List.filter_sublist.map _)
  registered := by
    intro other repeating
    cases found : (clock.clear handle).1 with
    | true =>
        rw [Ledger.live_cleared_true, agrees.registered]
        simp only [clear, List.mem_filter, decide_eq_true_eq]
        constructor
        · rintro ⟨⟨timer, within, rfl, kind⟩, different⟩
          exact ⟨timer, ⟨within, different⟩, rfl, kind⟩
        · rintro ⟨timer, ⟨within, different⟩, rfl, kind⟩
          exact ⟨⟨timer, within, rfl, kind⟩, different⟩
    | false =>
        have all : clock.timers.filter (·.handle ≠ handle) = clock.timers := by
          simpa [clear, List.filter_eq_self] using found
        rw [Ledger.live_cleared_false, agrees.registered]
        simp only [clear, all]

/-- A schedule that fires stays registered if it repeats. -/
theorem fired {target : Duration} {timer : Timer τ}
    (moved : Moves clock (.fired target timer) after) :
    after.Agrees (.fired timer.handle :: ledger) := by
  have within := (mem_of_due? moved.of_fired.2).1
  have counted : after.issued.toNat = Ledger.calls (.fired timer.handle :: ledger) := by
    rw [moved.issued_eq]
    simpa using agrees.counted
  have sound : Ledger.Sound (.fired timer.handle :: ledger) :=
    agrees.sound.cons (agrees.inUse_of_mem within)
  have itself {other : Timer τ} (also : other ∈ clock.timers) (same : other.handle = timer.handle) :
      other = timer := agrees.eq_of_handle_eq also within same
  cases moved with
  | fired idle found taken =>
  obtain ⟨first, foundFirst, -, change⟩ := takeDue_eq_task taken
  rw [found] at foundFirst
  cases foundFirst
  cases change with
  | inl removed =>
      obtain ⟨single, rfl⟩ := removed
      refine ⟨sound, counted, agrees.distinct.sublist (List.filter_sublist.map _), ?_⟩
      intro handle repeating
      rw [Ledger.live_fired, agrees.registered]
      simp only [List.mem_filter, decide_eq_true_eq]
      constructor
      · rintro ⟨⟨other, also, rfl, kind⟩, repeats | different⟩
        · refine ⟨other, ⟨also, ?_⟩, rfl, kind⟩
          intro same
          rw [itself also same, single, repeats] at kind
          cases kind
        · exact ⟨other, ⟨also, different⟩, rfl, kind⟩
      · rintro ⟨other, ⟨also, different⟩, rfl, kind⟩
        exact ⟨⟨other, also, rfl, kind⟩, .inr different⟩
  | inr again =>
      obtain ⟨period, due, repeats, -, rfl⟩ := again
      have handles : (clock.timers.map fun other =>
          if other.handle = timer.handle then { other with due } else other).map Timer.handle =
            clock.timers.map Timer.handle := by
        rw [List.map_map]
        apply List.map_congr_left
        intro other _
        simp only [Function.comp]
        split <;> rfl
      refine ⟨sound, counted, ?_, ?_⟩
      · rw [handles]
        exact agrees.distinct
      · intro handle repeating
        rw [Ledger.live_fired, agrees.registered]
        constructor
        · rintro ⟨⟨other, also, rfl, kind⟩, -⟩
          refine ⟨_, List.mem_map_of_mem also, ?_⟩
          split <;> exact ⟨rfl, kind⟩
        · rintro ⟨_, listed, rfl, kind⟩
          obtain ⟨other, also, rfl⟩ := List.mem_map.1 listed
          split at kind
          next same =>
            simp only [if_pos same]
            refine ⟨⟨other, also, rfl, kind⟩, .inl ?_⟩
            rw [← kind, itself also same, repeats]
            rfl
          next different =>
            simp only [if_neg different]
            exact ⟨⟨other, also, rfl, kind⟩, .inr different⟩

end Agrees

/-- Every move keeps the clock and its ledger in agreement, as long as handles last. -/
theorem Moves.agrees (moved : Moves clock move after) (agrees : clock.Agrees ledger)
    (few : Ledger.calls (move.dealings clock ++ ledger) < 2 ^ 64) :
    after.Agrees (move.dealings clock ++ ledger) := by
  have same (silent : move.dealings clock = []) (issued : after.issued = clock.issued)
      (timers : after.timers = clock.timers) : after.Agrees (move.dealings clock ++ ledger) := by
    rw [silent]
    exact ⟨agrees.sound, issued ▸ agrees.counted, timers ▸ agrees.distinct, timers ▸ agrees.registered⟩
  cases moved with
  | scheduled delay repeating task =>
      exact agrees.scheduled delay repeating task (by simpa [Move.dealings] using few)
  | cleared handle => exact agrees.cleared handle
  | spawned task => exact same rfl rfl rfl
  | drained queued => exact same rfl rfl rfl
  | fired idle found taken => exact agrees.fired (.fired idle found taken)
  | strained idle found taken =>
      obtain ⟨_, -, unchanged⟩ := takeDue_eq_overflow taken
      rw [unchanged] at same ⊢
      exact same rfl rfl rfl
  | arrived idle none_due => exact same rfl rfl rfl

end VirtualClock

end EffectLoop
