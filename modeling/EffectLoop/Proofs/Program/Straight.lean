import EffectLoop.Proofs.Program.Rules
import EffectLoop.World.Poll

/-!
# Computations that never stop

A pending computation is *unhindered* if it waits for nothing but dispatched actions and children that
are unhindered themselves.  Where dispatches are answered at once, such a computation never stops.  It
is then as good as a computation that is over when the call returns: `Pending.straight` is that
computation, with the children of a join one after the other.
-/

namespace EffectLoop

variable {S ι : Type} {Action : ι → Type} {A B α β : Type} {answer other : Answer ι}

namespace Prompt

/-- Dispatch actions one after the other. -/
def sendEach : List (Noted A) → Prompt S Action A Unit
  | [] => .done ()
  | action :: rest => .send action false (sendEach rest)

/-- What comes after a computation needs to be known only for the results that it may have. -/
theorem Within.bind_congr {rules : Rules} {post : α → Prop} {program : Prompt S Action A α}
    (within : program.Within rules post) {after other : α → Prompt S Action A β}
    (same : ∀ value, post value → after value = other value) :
    (program >>= after) = program >>= other := by
  change program.bind after = program.bind other
  induction program with
  | done value => exact same value within
  | call effect next ih => simp only [Prompt.bind, fun reply => ih reply (within.2 reply)]
  | send action keep next ih => simp only [Prompt.bind, ih within]
  | schedule delay repeating task next ih =>
      simp only [Prompt.bind, fun handle => ih handle (within.2 handle)]
  | spawn task next ih => simp only [Prompt.bind, ih within.2]

end Prompt

namespace Pending

/-- Nothing has to be waited for but dispatched actions, and children for which that is so. -/
def Unhindered : {answer : Answer ι} → Pending S Action A answer → Prop
  | _, .done _ => True
  | _, .call _ next => ∀ reply, (next reply).Unhindered
  | _, .send _ _ next => next.Unhindered
  | _, .schedule _ _ _ next => ∀ handle, (next handle).Unhindered
  | _, .spawn _ next => next.Unhindered
  | _, .sendAll _ next => ∀ reply, (next reply).Unhindered
  | _, .join ticket children next =>
      ticket = none ∧ (∀ index, (children index).Unhindered) ∧ ∀ values, (next values).Unhindered
  | _, _ => False

theorem Unhindered.bind {first : Pending S Action A answer}
    {after : answer.Value Action → Pending S Action A other} (unhindered : first.Unhindered)
    (afterwards : ∀ value, (after value).Unhindered) : (first.bind after).Unhindered := by
  induction first with
  | done value => exact afterwards value
  | call effect next ih => exact fun reply => ih reply (unhindered reply) afterwards
  | send action keep next ih => exact ih unhindered afterwards
  | schedule delay repeating task next _ ih =>
      exact fun handle => ih handle (unhindered handle) afterwards
  | spawn task next _ ih => exact ih unhindered afterwards
  | sendAll actions next ih => exact fun reply => ih reply (unhindered reply) afterwards
  | join ticket children next _ ih =>
      exact ⟨unhindered.1, unhindered.2.1, fun values => ih values (unhindered.2.2 values) afterwards⟩
  | _ => exact unhindered.elim

theorem Unhindered.retag {program : Pending S Action A answer} (unhindered : program.Unhindered)
    (tagger : A → Noted B) : (program.retag tagger).Unhindered := by
  induction program with
  | done value => exact trivial
  | call effect next ih => exact fun reply => ih reply (unhindered reply)
  | send action keep next ih => exact ih unhindered
  | schedule delay repeating task next _ ih => exact fun handle => ih handle (unhindered handle)
  | spawn task next _ ih => exact ih unhindered
  | sendAll actions next ih => exact fun reply => ih reply (unhindered reply)
  | join ticket children next childrenIH ih =>
      exact ⟨unhindered.1, fun index => childrenIH index (unhindered.2.1 index),
        fun values => ih values (unhindered.2.2 values)⟩
  | _ => exact unhindered.elim

theorem Unhindered.thenPending {rules : Rules} {post : α → Prop} {first : Prompt S Action A α}
    (within : first.Within rules post) {after : α → Pending S Action A answer}
    (afterwards : ∀ value, post value → (after value).Unhindered) :
    (first.thenPending after).Unhindered := by
  induction first with
  | done value => exact afterwards value within
  | call effect next ih => exact fun reply => ih reply (within.2 reply)
  | send action keep next ih => exact ih within
  | schedule delay repeating task next ih => exact fun handle => ih handle (within.2 handle)
  | spawn task next ih => exact ih within.2

theorem Unhindered.withNoted (found : Noted α) {next : α → Pending S Action A answer}
    (unhindered : (next found.value).Unhindered) : (Pending.withNoted found next).Unhindered := by
  obtain ⟨notes, value⟩ := found
  induction notes with
  | nil => exact unhindered
  | cons note rest ih => exact fun _ => ih unhindered

/-- How dispatches of actions are answered by verdicts. -/
def replies (verdict : A → Except CmdFailure Unit) (actions : List (Noted A)) :
    List (Except CmdFailure Unit) :=
  actions.map fun action => verdict action.value

/-- How the actions are answered together: by the failure of the first that fails. -/
def replied (verdict : A → Except CmdFailure Unit) (actions : List (Noted A)) : Except CmdFailure Unit :=
  (replies verdict actions).forM id

/-- Some value, for computations that never end. -/
def anyValue : (answer : Answer ι) → answer.Value Action
  | .actions _ => .ok []
  | .outcome => .ok .null
  | .settled => .ok ()
  | .finished => ()
  | .report => .null

/-- What the computation does if it never has to stop, and dispatches are answered by verdicts.  The
children of a join are taken one after the other. -/
def straight (verdict : A → Except CmdFailure Unit) : {answer : Answer ι} →
    Pending S Action A answer → Prompt S Action A (answer.Value Action)
  | _, .done value => .done value
  | _, .call effect next => .call effect fun reply => (next reply).straight verdict
  | _, .send action keep next => .send action keep (next.straight verdict)
  | _, .schedule delay repeating task next =>
      .schedule delay repeating task fun handle => (next handle).straight verdict
  | _, .spawn task next => .spawn task (next.straight verdict)
  | _, .wait _ next => next.straight verdict
  | _, .resumeAt _ next => next.straight verdict
  | _, .sendAll actions next =>
      .bind (.sendEach actions) fun _ => (next (replied verdict actions)).straight verdict
  | _, .settling _ caused next =>
      .bind (Vector.ofFnM fun index => (caused index).straight verdict) fun values =>
        (next (firstFailure values.get)).straight verdict
  | _, .join _ children next =>
      .bind (Vector.ofFnM fun index => (children index).straight verdict) fun values =>
        (next values.get).straight verdict
  | _, .advanceTo _ _ _ next => next.straight verdict
  | _, .interval .. => .done (anyValue _)

variable (verdict : A → Except CmdFailure Unit)

theorem straight_bind {first : Pending S Action A answer} (unhindered : first.Unhindered)
    (after : answer.Value Action → Pending S Action A other) :
    (first.bind after).straight verdict =
      first.straight verdict >>= fun value => (after value).straight verdict := by
  change _ = (first.straight verdict).bind _
  induction first with
  | done value => rfl
  | call effect next ih =>
      simp only [bind, straight, Prompt.bind, fun reply => ih reply (unhindered reply)]
  | send action keep next ih => simp only [bind, straight, Prompt.bind, ih unhindered]
  | schedule delay repeating task next _ ih =>
      simp only [bind, straight, Prompt.bind, fun handle => ih handle (unhindered handle)]
  | spawn task next _ ih => simp only [bind, straight, Prompt.bind, ih unhindered]
  | sendAll actions next ih =>
      simp only [bind, straight, Prompt.bind_assoc, fun reply => ih reply (unhindered reply)]
  | join ticket children next _ ih =>
      simp only [bind, straight, Prompt.bind_assoc, fun values => ih values (unhindered.2.2 values)]
  | _ => exact unhindered.elim

theorem straight_thenPending (first : Prompt S Action A α) (after : α → Pending S Action A answer) :
    (first.thenPending after).straight verdict =
      first >>= fun value => (after value).straight verdict := by
  change _ = first.bind _
  induction first with
  | done value => rfl
  | call effect next ih => simp only [Prompt.thenPending, straight, Prompt.bind, ih]
  | send action keep next ih => simp only [Prompt.thenPending, straight, Prompt.bind, ih]
  | schedule delay repeating task next ih => simp only [Prompt.thenPending, straight, Prompt.bind, ih]
  | spawn task next ih => simp only [Prompt.thenPending, straight, Prompt.bind, ih]

end Pending

end EffectLoop
