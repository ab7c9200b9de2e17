import EffectLoop.Command.Execute

/-!
# Renderings

A program is a *rendering* of another one if it does the same and only its result is changed by a
function.  The changes may be made wherever the result takes shape: a join whose children have their
results changed, and a join that changes the results once all children are over, render each other.
Such programs differ as trees.  `Proofs/World/Mirroring` shows that no world tells them apart.
-/

namespace EffectLoop

variable {S ι : Type} {Action : ι → Type} {A α : Type} {answer other last : Answer ι}

namespace Pending

/-- The second program does what the first one does, and `image` changes the result. -/
inductive Renders : {answer other : Answer ι} →
    (image : answer.Value Action → other.Value Action) →
    Pending S Action A answer → Pending S Action A other → Prop where
  | done {answer other : Answer ι} {image : answer.Value Action → other.Value Action}
      (value : answer.Value Action) : Renders image (.done value) (.done (image value))
  | call {answer other : Answer ι} {image : answer.Value Action → other.Value Action}
      (effect : Primitive) {next : effect.Reply S → Pending S Action A answer}
      {after : effect.Reply S → Pending S Action A other} :
      (∀ reply, Renders image (next reply) (after reply)) →
      Renders image (.call effect next) (.call effect after)
  | send {answer other : Answer ι} {image : answer.Value Action → other.Value Action}
      (action : Noted A) (keep : Bool) {next : Pending S Action A answer}
      {after : Pending S Action A other} : Renders image next after →
      Renders image (.send action keep next) (.send action keep after)
  | schedule {answer other : Answer ι} {image : answer.Value Action → other.Value Action}
      (delay : Duration) (repeating : Bool) (task : Pending S Action A .finished)
      {next : TimerHandle → Pending S Action A answer}
      {after : TimerHandle → Pending S Action A other} :
      (∀ handle, Renders image (next handle) (after handle)) →
      Renders image (.schedule delay repeating task next) (.schedule delay repeating task after)
  | spawn {answer other : Answer ι} {image : answer.Value Action → other.Value Action}
      (task : Pending S Action A .finished) {next : Pending S Action A answer}
      {after : Pending S Action A other} : Renders image next after →
      Renders image (.spawn task next) (.spawn task after)
  | wait {answer other : Answer ι} {image : answer.Value Action → other.Value Action}
      (gate : String) {next : Pending S Action A answer} {after : Pending S Action A other} :
      Renders image next after → Renders image (.wait gate next) (.wait gate after)
  | resumeAt {answer other : Answer ι} {image : answer.Value Action → other.Value Action}
      (moment : Duration) {next : Pending S Action A answer} {after : Pending S Action A other} :
      Renders image next after → Renders image (.resumeAt moment next) (.resumeAt moment after)
  | sendAll {answer other : Answer ι} {image : answer.Value Action → other.Value Action}
      (actions : List (Noted A)) {next : Except CmdFailure Unit → Pending S Action A answer}
      {after : Except CmdFailure Unit → Pending S Action A other} :
      (∀ reply, Renders image (next reply) (after reply)) →
      Renders image (.sendAll actions next) (.sendAll actions after)
  | settling {answer other : Answer ι} {image : answer.Value Action → other.Value Action}
      {count : Nat} (ticket : Option Nat) (caused : Fin count → Pending S Action A .settled)
      {next : Except CmdFailure Unit → Pending S Action A answer}
      {after : Except CmdFailure Unit → Pending S Action A other} :
      (∀ reply, Renders image (next reply) (after reply)) →
      Renders image (.settling ticket caused next) (.settling ticket caused after)
  /-- The results of the children may be changed on the way. -/
  | join {answer other child kin : Answer ι} {image : answer.Value Action → other.Value Action}
      (part : child.Value Action → kin.Value Action) {count : Nat} (ticket : Option Nat)
      {children : Fin count → Pending S Action A child}
      {changed : Fin count → Pending S Action A kin}
      {next : (Fin count → child.Value Action) → Pending S Action A answer}
      {after : (Fin count → kin.Value Action) → Pending S Action A other} :
      (∀ index, Renders part (children index) (changed index)) →
      (∀ values, Renders image (next values) (after fun index => part (values index))) →
      Renders image (.join ticket children next) (.join ticket changed after)
  | advanceTo {answer other : Answer ι} {image : answer.Value Action → other.Value Action}
      {count : Nat} (target : Duration) (ticket : Option Nat)
      (driven : Fin count → Pending S Action A .finished) {next : Pending S Action A answer}
      {after : Pending S Action A other} : Renders image next after →
      Renders image (.advanceTo target ticket driven next) (.advanceTo target ticket driven after)
  | interval {answer other : Answer ι} {image : answer.Value Action → other.Value Action}
      {count : Nat} (handle : TimerHandle) (period due : Duration)
      (task : Pending S Action A .finished) (running : Fin count → Pending S Action A .finished) :
      Renders image (.interval handle period due task running)
        (.interval handle period due task running)

namespace Renders

/-- Changing the result when all else is done. -/
theorem bind_done (image : answer.Value Action → other.Value Action)
    (program : Pending S Action A answer) :
    Renders image program (program.bind fun value => .done (image value)) := by
  induction program generalizing other with
  | done value => exact .done value
  | call effect next ih => exact .call effect fun reply => ih reply image
  | send action keep next ih => exact .send action keep (ih image)
  | schedule delay repeating task next _ ih =>
      exact .schedule delay repeating task fun handle => ih handle image
  | spawn task next _ ih => exact .spawn task (ih image)
  | wait gate next ih => exact .wait gate (ih image)
  | resumeAt moment next ih => exact .resumeAt moment (ih image)
  | sendAll actions next ih => exact .sendAll actions fun reply => ih reply image
  | settling ticket caused next _ ih => exact .settling ticket caused fun reply => ih reply image
  | join ticket children next childrenIH ih =>
      -- Here the results of the children are not changed.
      have same (index) : Renders id (children index) (children index) := by
        simpa only [id, Pending.bind_done] using childrenIH index id
      exact .join id ticket same fun values => ih values image
  | advanceTo target ticket driven next _ ih => exact .advanceTo target ticket driven (ih image)
  | interval handle period due task running _ _ => exact .interval handle period due task running

/-- The result of a rendering is the image of the result. -/
theorem result? {image : answer.Value Action → other.Value Action}
    {program : Pending S Action A answer} {rendered : Pending S Action A other}
    (renders : Renders image program rendered) :
    rendered.result? = program.result?.map image := by
  cases renders <;> rfl

end Renders

end Pending

end EffectLoop
