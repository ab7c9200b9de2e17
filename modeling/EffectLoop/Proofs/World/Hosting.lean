import EffectLoop.Proofs.World.Adequacy
import EffectLoop.World.Host

/-!
# Programs on a host

A host's engine serves the terms of every program, as far as the host accepts what the program sends.
A host *accepts* if everything that a dispatch causes, however it is polled, comes to a good end.  A
store can only accept while it is open, so all this is said of worlds of some kind that lasts as long
as nobody closes the store.
-/

namespace EffectLoop

variable {S ι : Type} {Action : ι → Type} {alphabet : ι} {answer : Answer ι}

namespace World

/-- Worlds of the kind last until the store is closed or opened. -/
def Lasting (kind : World S Action (Action alphabet) → Prop) : Prop :=
  ∀ before after, after.isOpen = before.isOpen → Stays kind before after

variable {kind : World S Action (Action alphabet) → Prop}

theorem lasting_any : Lasting fun _ : World S Action (Action alphabet) => True :=
  fun _ _ _ => id

theorem lasting_open : Lasting fun world : World S Action (Action alphabet) => world.isOpen = true :=
  fun _ _ same isOpen => same.trans isOpen

theorem Lasting.tolerant (lasting : Lasting kind) : Tolerant (Stays kind) where
  refl _ := id
  trans first second := second ∘ first
  sameFront same := lasting _ _ same.2.2
  note world _ := lasting world _ rfl
  log world _ := lasting world _ rfl

end World

/-! ## The store stays open -/

section Lasting

variable {kind : World S Action (Action alphabet) → Prop} (lasting : World.Lasting kind)
include lasting

theorem Run.emit_stays (event : Event S (Action alphabet)) :
    Run.Keeps (World.Stays kind) (Run.emit event : Run S Action (Action alphabet) Unit) :=
  .update fun world => lasting world _ rfl

namespace Store

variable (store : Store S Action alphabet) {engine : Engine S Action (Action alphabet)}

theorem observe_stays (seen : Observation (Action alphabet)) :
    Run.Keeps (World.Stays kind) (store.observe seen) := by
  have tolerant := lasting.tolerant
  apply Run.Keeps.bind tolerant (Run.emit_stays lasting _)
  rintro ⟨⟩
  apply Run.Keeps.forM tolerant
  intro delivery
  exact Run.emit_stays lasting _

theorem reduce_stays (action : Action alphabet) :
    Run.Keeps (World.Stays kind) (store.reduce action) := by
  have tolerant := lasting.tolerant
  apply Run.Keeps.bind tolerant (Run.perform_keeps tolerant .readState)
  intro state
  apply Run.Keeps.bind tolerant (.adopt tolerant _)
  intro reduced
  cases reduced with
  | ok loop => exact .pure tolerant loop
  | error refused => exact .throw tolerant _

theorem launch_stays (keeps : engine.Keeps (World.Stays kind)) (cmd : Cmd S Action alphabet) :
    Run.Keeps (World.Stays kind) (store.launch engine cmd) := by
  have tolerant := lasting.tolerant
  unfold launch
  split
  · exact .pure tolerant _
  · apply Run.Keeps.bind tolerant (store.observe_stays lasting _)
    rintro ⟨⟩
    apply Run.Keeps.bind tolerant (Prompt.run_keeps tolerant keeps _)
    intro verdict
    split <;> exact .pure tolerant _

theorem commit_stays (state : S) :
    Run.Keeps (World.Stays kind) (commit state : Run S Action (Action alphabet) Unit) :=
  .bind lasting.tolerant (.update fun world => lasting world _ rfl) fun _ => Run.emit_stays lasting _

theorem dispatch_stays (keeps : engine.Keeps (World.Stays kind)) (action : Action alphabet) :
    Run.Keeps (World.Stays kind) (store.dispatch engine action) := by
  have tolerant := lasting.tolerant
  apply Run.Keeps.bind tolerant (store.observe_stays lasting _)
  rintro ⟨⟩
  apply Run.Keeps.bind tolerant (store.reduce_stays lasting action)
  intro loop
  apply Run.Keeps.bind tolerant (commit_stays lasting _)
  rintro ⟨⟩
  exact store.launch_stays lasting keeps _

end Store

theorem Host.engine_stays (host : Host S Action alphabet) (depth : Nat) :
    (host.engine depth).Keeps (World.Stays kind) := by
  have tolerant := lasting.tolerant
  induction depth with
  | zero =>
      constructor
      · exact fun _ => .throw tolerant _
      · exact fun _ _ => .throw tolerant _
  | succ depth ih =>
      constructor
      · intro action
        cases host with
        | recording options plan =>
            apply Run.Keeps.bind tolerant (Run.emit_stays lasting _)
            rintro ⟨⟩
            exact .pure tolerant _
        | store held =>
            apply Run.Keeps.look tolerant
            intro world
            split
            · exact held.dispatch_stays lasting ih action
            · exact .pure tolerant _
      · intro answer waiter pending
        exact Pending.poll_keeps tolerant ih waiter pending

end Lasting

/-! ## Acceptance -/

namespace Host

variable (host : Host S Action alphabet) (kind : World S Action (Action alphabet) → Prop)

/-- Polls of the computation in worlds of the kind, however many and by whomever, have left this. -/
inductive Polled : Pending S Action (Action alphabet) answer →
    Pending S Action (Action alphabet) answer → Prop where
  | rest (program) : Polled program program
  | poll {program middle left before after} (depth : Nat) (waiter : Waiter) : kind before →
      program.poll (host.engine depth) waiter before = (.ok middle, after) → Polled middle left →
      Polled program left

/-- However it is polled, the computation comes to a good end or to none. -/
def Settles (caused : Settling S Action (Action alphabet)) : Prop :=
  ∀ result, host.Polled kind caused (.done result) → result = .ok ()

/-- Whatever is dispatched in a world of the kind, what it causes comes to a good end or to none. -/
def Accepts : Prop :=
  ∀ depth action, Run.Ensures kind (host.Settles kind) (host.dispatch (host.engine depth) action)

/-- Terms of a program under way on the host. -/
def terms (sends endless : Prop) : Terms S Action (Action alphabet) :=
  ⟨sends, endless, fun reply => reply = .ok (), host.Settles kind⟩

variable {host kind} {sends endless : Prop} (lasting : World.Lasting kind)
include lasting

theorem Settles.poll {caused : Settling S Action (Action alphabet)}
    (settles : host.Settles kind caused) (depth : Nat) (waiter : Waiter) :
    Run.Ensures kind (host.Settles kind) (caused.poll (host.engine depth) waiter) := by
  have keeps := Pending.poll_keeps lasting.tolerant (host.engine_stays lasting depth) waiter caused
  constructor
  intro before left after start answered
  have stays := keeps before start
  rw [answered] at stays
  refine ⟨stays, ?_⟩
  intro result polled
  exact settles result (.poll depth waiter start answered polled)

/-- However deep dispatches may nest, the engine of a host serves the terms of programs on it. -/
theorem engine_serves (accepts : sends → host.Accepts kind) (depth : Nat) :
    (host.engine depth).Serves kind (host.terms kind sends endless) := by
  induction depth with
  | zero =>
      refine ⟨lasting.tolerant, host.engine_stays lasting 0, ?_, ?_, ?_, ?_, ?_, rfl⟩
      · exact fun _ _ => .throw _
      · exact fun _ _ _ _ => .throw _
      · exact fun _ _ _ => .throw _
      · exact fun waiter caused settles => Settles.poll lasting settles 0 waiter
      · exact fun result settles => settles result (.rest _)
  | succ depth ih =>
      refine ⟨lasting.tolerant, host.engine_stays lasting (depth + 1), ?_, ?_, ?_, ?_, ?_, rfl⟩
      · exact fun may action => accepts may depth action
      · exact fun waiter program post meets => Pending.poll_ensures ih waiter meets
      · exact fun waiter caused settles => Settles.poll lasting settles depth waiter
      · exact fun waiter caused settles => Settles.poll lasting settles (depth + 1) waiter
      · exact fun result settles => settles result (.rest _)

theorem Polled.advances (accepts : sends → host.Accepts kind)
    {program left : Pending S Action (Action alphabet) answer} {post : answer.Value Action → Prop}
    (polled : host.Polled kind program left)
    (meets : program.Meets (host.terms kind sends endless) post) :
    program.Advances (host.terms kind sends endless) post left := by
  induction polled with
  | rest program => exact .rest meets
  | poll depth waiter start answered _ ih =>
      have goesOn := Pending.poll_ensures (engine_serves lasting accepts depth) waiter meets
      have advances := (goesOn.holds _ _ _ start answered).2
      exact advances.trans (ih advances.meets)

/-- A recording host accepts if its plans do not fail. -/
theorem accepts_recording (options : Options) {plan : Action alphabet → Plan}
    (unfailing : ∀ action, (plan action).failure = none) :
    (recording options plan : Host S Action alphabet).Accepts kind := by
  intro depth action
  apply Run.Ensures.after (Run.emit_stays lasting _)
  rintro ⟨⟩
  apply Run.Ensures.pure
  intro result polled
  -- What a plan has pending ends well on its own terms, and polls do not change that.
  have meets : ((plan action).pending : Settling S Action (Action alphabet)).Meets
      ((recording options plan).terms kind False True)
      fun result : Except CmdFailure Unit => result = .ok () := by
    rw [Plan.pending, unfailing action]
    cases (plan action).gate with
    | none => exact rfl
    | some gate => exact fun _ => rfl
  exact (polled.advances lasting False.elim meets).meets

end Host

end EffectLoop
