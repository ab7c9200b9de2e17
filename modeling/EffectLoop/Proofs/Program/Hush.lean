import EffectLoop.Proofs.Program.Editing
import EffectLoop.Proofs.Program.Rules

/-!
# Programs that keep silent

`Pending.hush mute` is a program without the lines of the log that `mute` tells.  Where it would write
such a line it does nothing, so it takes just as many steps, and is over exactly when the program is.
Silencing is an edit (`Pending.hush_eq_edit`) that changes nothing in a program that writes no such line.
-/

namespace EffectLoop

variable {S ι : Type} {Action : ι → Type} {A B α β γ δ : Type} {answer other : Answer ι}
variable (mute : LogEntry → Bool)

/-- The effect, without its line if that is muted. -/
def Primitive.hush : Primitive → Primitive
  | .log entry => if mute entry then .skip else .log entry
  | effect => effect

/-- What is silenced is answered in the same way. -/
theorem Primitive.reply_hush (effect : Primitive) : (effect.hush mute).Reply S = effect.Reply S := by
  cases effect with
  | log entry => cases muted : mute entry <;> simp only [hush, muted] <;> rfl
  | _ => rfl

namespace Edit

/-- The lines are muted, and all notes are left as they are. -/
def muting : Edit := ⟨some, mute⟩

theorem effect_muting (effect : Primitive) :
    ((muting mute).effect effect : Edited S effect) = .made (effect.hush mute) (effect.reply_hush mute) := by
  cases effect with
  | log entry => cases muted : mute entry <;> simp [Edit.effect, Primitive.hush, muting, muted]
  | _ => rfl

end Edit

theorem Noted.edit_muting (found : Noted α) : found.edit (.muting mute) = found := by
  ext1
  · exact List.filterMap_some
  · rfl

/-- Anything but writing a muted line. -/
def Rules.sparing : Rules := ⟨fun effect => ∀ entry, effect = .log entry → mute entry = false, True, True⟩

theorem Rules.sparing_never : sparing (fun _ => false) = lax := by
  simp [sparing, lax]

namespace Pending

/-- The computation without the muted lines. -/
def hush : {answer : Answer ι} → Pending S Action A answer → Pending S Action A answer
  | _, .done value => .done value
  | _, .call effect next =>
      .call (effect.hush mute) fun reply => (next (cast (effect.reply_hush mute) reply)).hush
  | _, .send action keep next => .send action keep next.hush
  | _, .schedule delay repeating task next =>
      .schedule delay repeating task.hush fun handle => (next handle).hush
  | _, .spawn task next => .spawn task.hush next.hush
  | _, .wait gate next => .wait gate next.hush
  | _, .resumeAt moment next => .resumeAt moment next.hush
  | _, .sendAll actions next => .sendAll actions fun reply => (next reply).hush
  | _, .settling ticket caused next =>
      .settling ticket (fun index => (caused index).hush) fun reply => (next reply).hush
  | _, .join ticket children next =>
      .join ticket (fun index => (children index).hush) fun values => (next values).hush
  | _, .advanceTo target ticket driven next =>
      .advanceTo target ticket (fun index => (driven index).hush) next.hush
  | _, .interval handle period due task running =>
      .interval handle period due task.hush fun index => (running index).hush

@[simp] theorem result?_hush (program : Pending S Action A answer) :
    (program.hush mute).result? = program.result? := by
  cases program <;> rfl

/-- An effect whose answer does not matter. -/
theorem hush_call_of {effect soft : Primitive} (same : effect.hush mute = soft)
    (next : Pending S Action A answer) :
    (call effect fun _ => next).hush mute = .call soft fun _ => next.hush mute := by
  cases same
  rfl

variable {mute} in
/-- Silencing changes nothing in a program that writes no muted line. -/
theorem Within.hush {program : Pending S Action A answer} (within : program.Within (.sparing mute)) :
    program.hush mute = program := by
  induction program with
  | done value => rfl
  | call effect next ih =>
      have same (reply) : (next reply).hush mute = next reply := ih reply (within.2 reply)
      cases effect with
      | log entry =>
          have logged : (Primitive.log entry).hush mute = .log entry := by
            rw [Primitive.hush, within.1 entry rfl, if_neg Bool.false_ne_true]
          change (call (.log entry) fun _ => next ()).hush mute = _
          rw [hush_call_of mute logged, same]
      | _ => exact congrArg (call _) (funext same)
  | send action keep next ih => simp only [Pending.hush, ih within]
  | schedule delay repeating task next taskIH ih =>
      simp only [Pending.hush, taskIH within.1, fun handle => ih handle (within.2 handle)]
  | spawn task next taskIH ih => simp only [Pending.hush, taskIH within.1, ih within.2]
  | wait gate next ih => simp only [Pending.hush, ih within]
  | resumeAt moment next ih => simp only [Pending.hush, ih within]
  | sendAll actions next ih => simp only [Pending.hush, fun reply => ih reply (within reply)]
  | settling ticket caused next causedIH ih =>
      simp only [Pending.hush, fun index => causedIH index (within.1 index),
        fun reply => ih reply (within.2 reply)]
  | join ticket children next childrenIH ih =>
      simp only [Pending.hush, fun index => childrenIH index (within.1 index),
        fun values => ih values (within.2 values)]
  | advanceTo target ticket driven next drivenIH ih =>
      simp only [Pending.hush, fun index => drivenIH index (within.2.1 index), ih within.2.2]
  | interval handle period due task running taskIH runningIH =>
      simp only [Pending.hush, taskIH within.2.1, fun index => runningIH index (within.2.2 index)]

theorem hush_never (program : Pending S Action A answer) :
    program.hush (fun _ => false) = program := by
  apply Within.hush
  rw [Rules.sparing_never]
  exact program.within_lax

theorem hush_eq_edit (program : Pending S Action A answer) :
    program.hush mute = program.edit (.muting mute) := by
  have noted : (Noted.edit (.muting mute) : Noted A → Noted A) = id := funext (Noted.edit_muting mute)
  induction program with
  | done value => rfl
  | call effect next ih => simp only [hush, edit, Edit.effect_muting, ih]
  | send action keep next ih => simp only [hush, edit, Noted.edit_muting, ih]
  | schedule delay repeating task next taskIH ih => simp only [hush, edit, taskIH, ih]
  | spawn task next taskIH ih => simp only [hush, edit, taskIH, ih]
  | wait gate next ih => simp only [hush, edit, ih]
  | resumeAt moment next ih => simp only [hush, edit, ih]
  | sendAll actions next ih => simp only [hush, edit, noted, List.map_id, ih]
  | settling ticket caused next causedIH ih => simp only [hush, edit, causedIH, ih]
  | join ticket children next childrenIH ih => simp only [hush, edit, childrenIH, ih]
  | advanceTo target ticket driven next drivenIH ih => simp only [hush, edit, drivenIH, ih]
  | interval handle period due task running taskIH runningIH =>
      simp only [hush, edit, taskIH, runningIH]

theorem hush_bind (first : Pending S Action A answer)
    (after : answer.Value Action → Pending S Action A other) :
    (first.bind after).hush mute = (first.hush mute).bind fun value => (after value).hush mute := by
  simp only [hush_eq_edit, edit_bind]

end Pending

namespace Prompt

/-- The computation without the muted lines; `image` is what becomes of the result. -/
def hush (image : α → β) : Prompt S Action A α → Prompt S Action A β
  | .done value => .done (image value)
  | .call effect next =>
      .call (effect.hush mute) fun reply => (next (cast (effect.reply_hush mute) reply)).hush image
  | .send action keep next => .send action keep (next.hush image)
  | .schedule delay repeating task next =>
      .schedule delay repeating (task.hush mute) fun handle => (next handle).hush image
  | .spawn task next => .spawn (task.hush mute) (next.hush image)

variable {image : α → β}

/-- An effect whose answer does not matter. -/
theorem hush_call_of {effect soft : Primitive} (same : effect.hush mute = soft)
    (next : Prompt S Action A α) :
    (call effect fun _ => next).hush mute image = .call soft fun _ => next.hush mute image := by
  cases same
  rfl

variable {mute} in
/-- Silencing changes nothing in a program that writes no muted line, if its result stays the same. -/
theorem Within.hush {image : α → α} {program : Prompt S Action A α}
    (within : program.Within (.sparing mute) fun value => image value = value) :
    program.hush mute image = program := by
  induction program with
  | done value => exact congrArg done within
  | call effect next ih =>
      have same (reply) : (next reply).hush mute image = next reply := ih reply (within.2 reply)
      cases effect with
      | log entry =>
          have logged : (Primitive.log entry).hush mute = .log entry := by
            rw [Primitive.hush, within.1 entry rfl, if_neg Bool.false_ne_true]
          change (call (.log entry) fun _ => next ()).hush mute image = _
          rw [hush_call_of mute logged, same]
      | _ => exact congrArg (call _) (funext same)
  | send action keep next ih => simp only [Prompt.hush, ih within]
  | schedule delay repeating task next ih =>
      simp only [Prompt.hush, within.1.hush, fun handle => ih handle (within.2 handle)]
  | spawn task next ih => simp only [Prompt.hush, within.1.hush, ih within.2]

theorem hush_never (program : Prompt S Action A α) : program.hush (fun _ => false) id = program := by
  apply Within.hush
  rw [Rules.sparing_never]
  exact program.within_lax.mono fun _ _ => rfl

theorem hush_eq_edit (program : Prompt S Action A α) :
    program.hush mute image = program.edit (.muting mute) image := by
  induction program with
  | done value => rfl
  | call effect next ih => simp only [hush, edit, Edit.effect_muting, ih]
  | send action keep next ih => simp only [hush, edit, Noted.edit_muting, ih]
  | schedule delay repeating task next ih => simp only [hush, edit, Pending.hush_eq_edit, ih]
  | spawn task next ih => simp only [hush, edit, Pending.hush_eq_edit, ih]

theorem hush_bind {last : γ → δ} (first : Prompt S Action A α) {after : α → Prompt S Action A γ}
    {soft : β → Prompt S Action A δ}
    (same : ∀ value, (after value).hush mute last = soft (image value)) :
    (first >>= after).hush mute last = first.hush mute image >>= soft := by
  simp only [hush_eq_edit] at same ⊢
  exact edit_bind _ first same

end Prompt

end EffectLoop
