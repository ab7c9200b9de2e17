import EffectLoop.Proofs.Program.Retag

/-!
# Rules

Rules say which effects a program may ask for, and whether it may move a virtual clock or hold an
interval of a task clock.  A program is *within* the rules if that can be seen from the program
alone: on every branch, in everything that it waits for, and in all the work that it hands over.
-/

namespace EffectLoop

variable {S ι : Type} {Action : ι → Type} {A B α β : Type} {answer other : Answer ι}

/-- What a program may contain. -/
structure Rules where
  /-- The effects it may ask for. -/
  effect : Primitive → Prop
  /-- May it advance a virtual clock? -/
  advance : Prop
  /-- May it hold an interval of a task clock? -/
  interval : Prop

namespace Rules

/-- Anything goes. -/
def lax : Rules := ⟨fun _ => True, True, True⟩

/-- Anything but advancing a virtual clock. -/
def still : Rules := ⟨fun _ => True, False, True⟩

/-- What is within the rules is within the looser ones. -/
structure Loosened (rules looser : Rules) : Prop where
  effect : ∀ effect, rules.effect effect → looser.effect effect
  advance : rules.advance → looser.advance
  interval : rules.interval → looser.interval

end Rules

namespace Pending

/-- The computation, and all the work that it hands over, is within the rules. -/
def Within (rules : Rules) : {answer : Answer ι} → Pending S Action A answer → Prop
  | _, .done _ => True
  | _, .call effect next => rules.effect effect ∧ ∀ reply, (next reply).Within rules
  | _, .send _ _ next => next.Within rules
  | _, .schedule _ _ task next => task.Within rules ∧ ∀ handle, (next handle).Within rules
  | _, .spawn task next => task.Within rules ∧ next.Within rules
  | _, .wait _ next => next.Within rules
  | _, .resumeAt _ next => next.Within rules
  | _, .sendAll _ next => ∀ reply, (next reply).Within rules
  | _, .settling _ caused next =>
      (∀ index, (caused index).Within rules) ∧ ∀ reply, (next reply).Within rules
  | _, .join _ children next =>
      (∀ index, (children index).Within rules) ∧ ∀ values, (next values).Within rules
  | _, .advanceTo _ _ driven next =>
      rules.advance ∧ (∀ index, (driven index).Within rules) ∧ next.Within rules
  | _, .interval _ _ _ task running =>
      rules.interval ∧ task.Within rules ∧ ∀ index, (running index).Within rules

variable {rules : Rules}

theorem within_lax (program : Pending S Action A answer) : program.Within .lax := by
  induction program with
  | done value => exact trivial
  | call effect next ih => exact ⟨trivial, ih⟩
  | send action keep next ih => exact ih
  | schedule delay repeating task next taskIH ih => exact ⟨taskIH, ih⟩
  | spawn task next taskIH ih => exact ⟨taskIH, ih⟩
  | wait gate next ih => exact ih
  | resumeAt moment next ih => exact ih
  | sendAll actions next ih => exact ih
  | settling ticket caused next causedIH ih => exact ⟨causedIH, ih⟩
  | join ticket children next childrenIH ih => exact ⟨childrenIH, ih⟩
  | advanceTo target ticket driven next drivenIH ih => exact ⟨trivial, drivenIH, ih⟩
  | interval handle period due task running taskIH runningIH => exact ⟨trivial, taskIH, runningIH⟩

theorem Within.loosen {looser : Rules} (loosened : rules.Loosened looser)
    {program : Pending S Action A answer} (within : program.Within rules) :
    program.Within looser := by
  induction program with
  | done value => exact trivial
  | call effect next ih =>
      exact ⟨loosened.effect effect within.1, fun reply => ih reply (within.2 reply)⟩
  | send action keep next ih => exact ih within
  | schedule delay repeating task next taskIH ih =>
      exact ⟨taskIH within.1, fun handle => ih handle (within.2 handle)⟩
  | spawn task next taskIH ih => exact ⟨taskIH within.1, ih within.2⟩
  | wait gate next ih => exact ih within
  | resumeAt moment next ih => exact ih within
  | sendAll actions next ih => exact fun reply => ih reply (within reply)
  | settling ticket caused next causedIH ih =>
      exact ⟨fun index => causedIH index (within.1 index), fun reply => ih reply (within.2 reply)⟩
  | join ticket children next childrenIH ih =>
      exact ⟨fun index => childrenIH index (within.1 index),
        fun values => ih values (within.2 values)⟩
  | advanceTo target ticket driven next drivenIH ih =>
      exact ⟨loosened.advance within.1, fun index => drivenIH index (within.2.1 index),
        ih within.2.2⟩
  | interval handle period due task running taskIH runningIH =>
      exact ⟨loosened.interval within.1, taskIH within.2.1,
        fun index => runningIH index (within.2.2 index)⟩

theorem Within.bind {first : Pending S Action A answer}
    {after : answer.Value Action → Pending S Action A other} (within : first.Within rules)
    (afterWithin : ∀ value, (after value).Within rules) : (first.bind after).Within rules := by
  induction first with
  | done value => exact afterWithin value
  | call effect next ih => exact ⟨within.1, fun reply => ih reply (within.2 reply) afterWithin⟩
  | send action keep next ih => exact ih within afterWithin
  | schedule delay repeating task next _ ih =>
      exact ⟨within.1, fun handle => ih handle (within.2 handle) afterWithin⟩
  | spawn task next _ ih => exact ⟨within.1, ih within.2 afterWithin⟩
  | wait gate next ih => exact ih within afterWithin
  | resumeAt moment next ih => exact ih within afterWithin
  | sendAll actions next ih => exact fun reply => ih reply (within reply) afterWithin
  | settling ticket caused next _ ih =>
      exact ⟨within.1, fun reply => ih reply (within.2 reply) afterWithin⟩
  | join ticket children next _ ih =>
      exact ⟨within.1, fun values => ih values (within.2 values) afterWithin⟩
  | advanceTo target ticket driven next _ ih =>
      exact ⟨within.1, within.2.1, ih within.2.2 afterWithin⟩
  | interval handle period due task running _ _ => exact within

theorem Within.retag {program : Pending S Action A answer} (within : program.Within rules)
    (tagger : A → Noted B) : (program.retag tagger).Within rules := by
  induction program with
  | done value => exact trivial
  | call effect next ih => exact ⟨within.1, fun reply => ih reply (within.2 reply)⟩
  | send action keep next ih => exact ih within
  | schedule delay repeating task next taskIH ih =>
      exact ⟨taskIH within.1, fun handle => ih handle (within.2 handle)⟩
  | spawn task next taskIH ih => exact ⟨taskIH within.1, ih within.2⟩
  | wait gate next ih => exact ih within
  | resumeAt moment next ih => exact ih within
  | sendAll actions next ih => exact fun reply => ih reply (within reply)
  | settling ticket caused next causedIH ih =>
      exact ⟨fun index => causedIH index (within.1 index), fun reply => ih reply (within.2 reply)⟩
  | join ticket children next childrenIH ih =>
      exact ⟨fun index => childrenIH index (within.1 index),
        fun values => ih values (within.2 values)⟩
  | advanceTo target ticket driven next drivenIH ih =>
      exact ⟨within.1, fun index => drivenIH index (within.2.1 index), ih within.2.2⟩
  | interval handle period due task running taskIH runningIH =>
      exact ⟨within.1, taskIH within.2.1, fun index => runningIH index (within.2.2 index)⟩

end Pending

namespace Prompt

/-- The computation, and all the work that it hands over, is within the rules, and its result
satisfies `post`. -/
def Within (rules : Rules) (post : α → Prop) : Prompt S Action A α → Prop
  | .done value => post value
  | .call effect next => rules.effect effect ∧ ∀ reply, (next reply).Within rules post
  | .send _ _ next => next.Within rules post
  | .schedule _ _ task next => task.Within rules ∧ ∀ handle, (next handle).Within rules post
  | .spawn task next => task.Within rules ∧ next.Within rules post

variable {rules : Rules} {post : α → Prop}

theorem within_lax (program : Prompt S Action A α) : program.Within .lax fun _ => True := by
  induction program with
  | done value => exact trivial
  | call effect next ih => exact ⟨trivial, ih⟩
  | send action keep next ih => exact ih
  | schedule delay repeating task next ih => exact ⟨task.within_lax, ih⟩
  | spawn task next ih => exact ⟨task.within_lax, ih⟩

theorem Within.mono {image : α → Prop} {program : Prompt S Action A α}
    (within : program.Within rules post) (implies : ∀ value, post value → image value) :
    program.Within rules image := by
  induction program with
  | done value => exact implies value within
  | call effect next ih => exact ⟨within.1, fun reply => ih reply (within.2 reply)⟩
  | send action keep next ih => exact ih within
  | schedule delay repeating task next ih =>
      exact ⟨within.1, fun handle => ih handle (within.2 handle)⟩
  | spawn task next ih => exact ⟨within.1, ih within.2⟩

theorem Within.loosen {looser : Rules} (loosened : rules.Loosened looser)
    {program : Prompt S Action A α} (within : program.Within rules post) :
    program.Within looser post := by
  induction program with
  | done value => exact within
  | call effect next ih =>
      exact ⟨loosened.effect effect within.1, fun reply => ih reply (within.2 reply)⟩
  | send action keep next ih => exact ih within
  | schedule delay repeating task next ih =>
      exact ⟨within.1.loosen loosened, fun handle => ih handle (within.2 handle)⟩
  | spawn task next ih => exact ⟨within.1.loosen loosened, ih within.2⟩

theorem Within.bind {last : β → Prop} {first : Prompt S Action A α}
    {after : α → Prompt S Action A β} (within : first.Within rules post)
    (afterWithin : ∀ value, post value → (after value).Within rules last) :
    (first >>= after).Within rules last := by
  change (first.bind after).Within rules last
  induction first with
  | done value => exact afterWithin value within
  | call effect next ih => exact ⟨within.1, fun reply => ih reply (within.2 reply)⟩
  | send action keep next ih => exact ih within
  | schedule delay repeating task next ih =>
      exact ⟨within.1, fun handle => ih handle (within.2 handle)⟩
  | spawn task next ih => exact ⟨within.1, ih within.2⟩

theorem Within.map {image : α → β} {last : β → Prop} {program : Prompt S Action A α}
    (within : program.Within rules post) (implies : ∀ value, post value → last (image value)) :
    (image <$> program).Within rules last := by
  rw [map_eq_pure_bind]
  apply within.bind
  intro value holds
  exact implies value holds

theorem Within.mapM {programs : List (Prompt S Action A α)}
    (each : ∀ program ∈ programs, program.Within rules post) :
    (programs.mapM id).Within rules fun values => ∀ value ∈ values, post value := by
  induction programs with
  | nil =>
      intro value within
      cases within
  | cons program rest ih =>
      rw [List.mapM_cons]
      apply (each program List.mem_cons_self).bind
      intro first holds
      apply (ih fun program within => each program (List.mem_cons_of_mem _ within)).bind
      intro others hold value within
      rcases List.mem_cons.1 within with rfl | within
      · exact holds
      · exact hold value within

theorem Within.retag {program : Prompt S Action A α} (within : program.Within rules post)
    (tagger : A → Noted B) {image : α → Prop} (implies : ∀ value, post value → image value) :
    (program.retag tagger).Within rules image := by
  induction program with
  | done value => exact implies value within
  | call effect next ih => exact ⟨within.1, fun reply => ih reply (within.2 reply)⟩
  | send action keep next ih => exact ih within
  | schedule delay repeating task next ih =>
      exact ⟨within.1.retag tagger, fun handle => ih handle (within.2 handle)⟩
  | spawn task next ih => exact ⟨within.1.retag tagger, ih within.2⟩

end Prompt

end EffectLoop
