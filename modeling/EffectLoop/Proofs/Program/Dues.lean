import EffectLoop.Proofs.Program.Announcements

/-!
# The calls that are due

Calls are accounted for as debts.  `Prompt.Calls` says which calls a computation makes that is over when
it returns, and in which order.  `Pending.Owes` says of a pending computation which calls are due: each
call pays one off, children of a join each have debts of their own, and the postcondition says how much may
be due in the end.  Whatever a computation does, the calls that it has made and those that are then due are
what was due before (`Pending.Owes.of_does`).
-/

namespace EffectLoop

variable {S ι : Type} {Action : ι → Type} {A B α β : Type} {answer other : Answer ι}

namespace Pending

variable (allows : Pending S Action A .finished → Prop)

/-- The calls that are due.  The work that is handed over is allowed, and what is still due in the end
satisfies the postcondition. -/
def Owes : {answer : Answer ι} → Multiset Site → (answer.Value Action → Multiset Site → Prop) →
    Pending S Action A answer → Prop
  | _, due, post, .done value => post value due
  | _, due, post, .call effect next =>
      ∃ rest, due = effect.calls + rest ∧ ∀ reply, (next reply).Owes rest post
  | _, due, post, .send _ _ next => next.Owes due post
  | _, due, post, .schedule _ _ task next => allows task ∧ ∀ handle, (next handle).Owes due post
  | _, due, post, .spawn task next => allows task ∧ next.Owes due post
  | _, due, post, .wait _ next => next.Owes due post
  | _, due, post, .resumeAt _ next => next.Owes due post
  | _, due, post, .sendAll _ next => ∀ reply, (next reply).Owes due post
  | _, due, post, .settling _ _ next => ∀ reply, (next reply).Owes due post
  | _, due, post, @Pending.join _ _ _ _ _ child count _ children next =>
      ∃ (parts : Fin count → Multiset Site)
        (posts : Fin count → child.Value Action → Multiset Site → Prop) (rest : Multiset Site),
        due = ∑ index, parts index + rest ∧
          (∀ index, (children index).Owes (parts index) (posts index)) ∧
          ∀ (values : Fin count → child.Value Action) (still : Fin count → Multiset Site),
            (∀ index, posts index (values index) (still index)) →
              (next values).Owes (∑ index, still index + rest) post
  | _, due, post, .advanceTo _ _ _ next => next.Owes due post
  | _, _, _, .interval _ _ _ _ _ => True

section Rules

variable {allows permits : Pending S Action A .finished → Prop} {due extra : Multiset Site}
variable {post last : answer.Value Action → Multiset Site → Prop} {program : Pending S Action A answer}

/-- More may be due than a computation is to call: the rest stays due. -/
theorem Owes.frame (owes : program.Owes allows due post) (extra : Multiset Site)
    (loose : ∀ task, allows task → permits task)
    (keeps : ∀ value still, post value still → last value (still + extra)) :
    program.Owes permits (due + extra) last := by
  induction program generalizing due extra with
  | done value => exact keeps value due owes
  | call effect next ih =>
      rcases owes with ⟨rest, rfl, onward⟩
      exact ⟨rest + extra, add_assoc _ _ _, fun reply => ih reply (onward reply) extra keeps⟩
  | send action keep next ih => exact ih owes extra keeps
  | schedule delay repeating task next _ ih =>
      exact ⟨loose _ owes.1, fun handle => ih handle (owes.2 handle) extra keeps⟩
  | spawn task next _ ih => exact ⟨loose _ owes.1, ih owes.2 extra keeps⟩
  | wait gate next ih => exact ih owes extra keeps
  | resumeAt moment next ih => exact ih owes extra keeps
  | sendAll actions next ih => exact fun reply => ih reply (owes reply) extra keeps
  | settling ticket caused next _ ih => exact fun reply => ih reply (owes reply) extra keeps
  | join ticket children next childrenIH ih =>
      rcases owes with ⟨parts, posts, rest, rfl, each, onward⟩
      refine ⟨parts, posts, rest + extra, add_assoc _ _ _, fun index => ?_, ?_⟩
      · have part : (children index).Owes permits (parts index + 0) (posts index) :=
          childrenIH index (each index) 0 fun value still holds => by rwa [add_zero]
        rwa [add_zero] at part
      · intro values still hold
        rw [← add_assoc]
        exact ih values (onward values still hold) extra keeps
  | advanceTo target ticket driven next _ ih => exact ih owes extra keeps
  | interval handle period due task running _ _ => exact trivial

/-- What is due in the end is due for what comes after. -/
theorem Owes.bind {after : answer.Value Action → Pending S Action A other}
    {final : other.Value Action → Multiset Site → Prop} (owes : program.Owes allows due post)
    (afterOwes : ∀ value still, post value still → (after value).Owes allows still final) :
    (program.bind after).Owes allows due final := by
  induction program generalizing due with
  | done value => exact afterOwes value due owes
  | call effect next ih =>
      rcases owes with ⟨rest, rfl, onward⟩
      exact ⟨rest, rfl, fun reply => ih reply (onward reply) afterOwes⟩
  | send action keep next ih => exact ih owes afterOwes
  | schedule delay repeating task next _ ih =>
      exact ⟨owes.1, fun handle => ih handle (owes.2 handle) afterOwes⟩
  | spawn task next _ ih => exact ⟨owes.1, ih owes.2 afterOwes⟩
  | wait gate next ih => exact ih owes afterOwes
  | resumeAt moment next ih => exact ih owes afterOwes
  | sendAll actions next ih => exact fun reply => ih reply (owes reply) afterOwes
  | settling ticket caused next _ ih => exact fun reply => ih reply (owes reply) afterOwes
  | join ticket children next _ ih =>
      rcases owes with ⟨parts, posts, rest, rfl, each, onward⟩
      exact ⟨parts, posts, rest, rfl, each,
        fun values still hold => ih values (onward values still hold) afterOwes⟩
  | advanceTo target ticket driven next _ ih => exact ih owes afterOwes
  | interval handle period due task running _ _ => exact trivial

/-- Tagging what is sent changes nothing in what is due. -/
theorem Owes.retag {permits : Pending S Action B .finished → Prop} (owes : program.Owes allows due post)
    (tagger : A → Noted B) (loose : ∀ task, allows task → permits (task.retag tagger)) :
    (program.retag tagger).Owes permits due post := by
  induction program generalizing due with
  | done value => exact owes
  | call effect next ih =>
      rcases owes with ⟨rest, rfl, onward⟩
      exact ⟨rest, rfl, fun reply => ih reply (onward reply)⟩
  | send action keep next ih => exact ih owes
  | schedule delay repeating task next _ ih =>
      exact ⟨loose _ owes.1, fun handle => ih handle (owes.2 handle)⟩
  | spawn task next _ ih => exact ⟨loose _ owes.1, ih owes.2⟩
  | wait gate next ih => exact ih owes
  | resumeAt moment next ih => exact ih owes
  | sendAll actions next ih => exact fun reply => ih reply (owes reply)
  | settling ticket caused next _ ih => exact fun reply => ih reply (owes reply)
  | join ticket children next childrenIH ih =>
      rcases owes with ⟨parts, posts, rest, rfl, each, onward⟩
      exact ⟨parts, posts, rest, rfl, fun index => childrenIH index (each index),
        fun values still hold => ih values (onward values still hold)⟩
  | advanceTo target ticket driven next _ ih => exact ih owes
  | interval handle period due task running _ _ => exact trivial

/-- A computation that announces nothing leaves everything due. -/
theorem Within.owes (within : program.Within .unannounced)
    (silent : ∀ task, task.Within .unannounced → allows task) (due : Multiset Site) :
    program.Owes allows due fun _ still => still = due := by
  induction program generalizing due with
  | done value => rfl
  | call effect next ih =>
      refine ⟨due, ?_, fun reply => ih reply (within.2 reply) due⟩
      rw [within.1, Multiset.coe_nil, zero_add]
  | send action keep next ih => exact ih within due
  | schedule delay repeating task next _ ih =>
      exact ⟨silent _ within.1, fun handle => ih handle (within.2 handle) due⟩
  | spawn task next _ ih => exact ⟨silent _ within.1, ih within.2 due⟩
  | wait gate next ih => exact ih within due
  | resumeAt moment next ih => exact ih within due
  | sendAll actions next ih => exact fun reply => ih reply (within reply) due
  | settling ticket caused next _ ih => exact fun reply => ih reply (within.2 reply) due
  | join ticket children next childrenIH ih =>
      refine ⟨fun _ => 0, fun _ _ still => still = 0, due, by simp, fun index => ?_, ?_⟩
      · exact childrenIH index (within.1 index) 0
      · intro values still none
        rw [Finset.sum_eq_zero fun index _ => none index, zero_add]
        exact ih values (within.2 values) due
  | advanceTo target ticket driven next _ ih => exact ih within.2.2 due
  | interval handle period due task running _ _ => exact trivial

/-- Leaving notes that announce nothing. -/
theorem Owes.withNoted {found : Noted α} {next : α → Pending S Action A answer}
    (unannounced : found.Unannounced) (owes : (next found.value).Owes allows due post) :
    (withNoted found next).Owes allows due post := by
  rcases found with ⟨notes, value⟩
  induction notes with
  | nil => exact owes
  | cons note rest ih =>
      have silent : Primitive.calls (.note note) = [] := unannounced note List.mem_cons_self
      have others : Noted.Unannounced ⟨rest, value⟩ := fun other within =>
        unannounced other (List.mem_cons_of_mem _ within)
      refine ⟨due, ?_, fun _ => ih others owes⟩
      rw [silent, Multiset.coe_nil, zero_add]

/-- Whatever a computation does: the calls that it has made and those that are due then are what was due
before. -/
theorem Owes.of_does {journal : List (Act S A)} {left : Pending S Action A answer}
    (owes : program.Owes allows due post) (does : program.Does journal left) :
    ∃ still, left.Owes allows still post ∧ due = calls journal + still := by
  induction does generalizing due with
  | rest program => exact ⟨due, owes, (zero_add due).symm⟩
  | call reply _ ih =>
      rcases owes with ⟨rest, rfl, onward⟩
      rcases ih (onward reply) with ⟨still, leftOwes, rfl⟩
      refine ⟨still, leftOwes, ?_⟩
      rw [calls_cons, ← Multiset.coe_add, add_assoc]
      rfl
  | send _ ih => exact ih owes
  | schedule handle _ ih => exact ih (owes.2 handle)
  | spawn _ ih => exact ih owes.2
  | wait _ ih => exact ih owes
  | resumeAt _ ih => exact ih owes
  | sending =>
      refine ⟨due, owes, ?_⟩
      rw [calls_sent, Multiset.coe_nil, zero_add]
  | sendAll reply _ ih =>
      rcases ih (owes reply) with ⟨still, leftOwes, rfl⟩
      refine ⟨still, leftOwes, ?_⟩
      rw [calls_append, calls_sent]
      rfl
  | waiting => exact ⟨due, owes, (zero_add due).symm⟩
  | settled reply _ ih => exact ih (owes reply)
  | joining _ interleaves ih =>
      rcases owes with ⟨parts, posts, rest, rfl, each, onward⟩
      choose still leftOwes same using fun index => ih index (each index)
      refine ⟨∑ index, still index + rest, ⟨still, posts, rest, rfl, leftOwes, onward⟩, ?_⟩
      rw [interleaves.calls_eq_sum, ← add_assoc, ← Finset.sum_add_distrib, funext same]
  | join _ interleaves _ ih last =>
      rcases owes with ⟨parts, posts, rest, rfl, each, onward⟩
      choose still done same using fun index => ih index (each index)
      rcases last (onward _ still done) with ⟨final, leftOwes, closing⟩
      refine ⟨final, leftOwes, ?_⟩
      rw [calls_append, ← Multiset.coe_add, add_assoc, ← closing, interleaves.calls_eq_sum,
        ← add_assoc, ← Finset.sum_add_distrib, funext same]
  | advancing => exact ⟨due, owes, (zero_add due).symm⟩
  | advanceTo _ ih => exact ih owes
  | interval => exact ⟨due, trivial, (zero_add due).symm⟩

/-- The computation hands over the work, to be scheduled or to be run by itself. -/
inductive Gives : {answer : Answer ι} → Pending S Action A answer →
    Pending S Action A .finished → Prop where
  | schedule {answer : Answer ι} {delay repeating task}
      {next : TimerHandle → Pending S Action A answer} :
      Gives (.schedule delay repeating task next) task
  | spawn {answer : Answer ι} {task} {next : Pending S Action A answer} : Gives (.spawn task next) task
  | called {answer : Answer ι} {effect : Primitive} {next : effect.Reply S → Pending S Action A answer}
      {task} (reply : effect.Reply S) : Gives (next reply) task → Gives (.call effect next) task
  | sent {answer : Answer ι} {action keep task} {next : Pending S Action A answer} :
      Gives next task → Gives (.send action keep next) task
  | scheduled {answer : Answer ι} {delay repeating other task}
      {next : TimerHandle → Pending S Action A answer} (handle : TimerHandle) :
      Gives (next handle) task → Gives (.schedule delay repeating other next) task
  | spawned {answer : Answer ι} {other task} {next : Pending S Action A answer} :
      Gives next task → Gives (.spawn other next) task
  | waited {answer : Answer ι} {gate task} {next : Pending S Action A answer} :
      Gives next task → Gives (.wait gate next) task
  | resumed {answer : Answer ι} {moment task} {next : Pending S Action A answer} :
      Gives next task → Gives (.resumeAt moment next) task
  | sentAll {answer : Answer ι} {actions task} {next : Except CmdFailure Unit → Pending S Action A answer}
      (reply : Except CmdFailure Unit) : Gives (next reply) task → Gives (.sendAll actions next) task
  | settled {answer : Answer ι} {count : Nat} {ticket task}
      {caused : Fin count → Pending S Action A .settled}
      {next : Except CmdFailure Unit → Pending S Action A answer} (reply : Except CmdFailure Unit) :
      Gives (next reply) task → Gives (.settling ticket caused next) task
  | child {answer child : Answer ι} {count : Nat} {ticket task}
      {children : Fin count → Pending S Action A child}
      {next : (Fin count → child.Value Action) → Pending S Action A answer} (index : Fin count) :
      Gives (children index) task → Gives (.join ticket children next) task
  | joined {answer child : Answer ι} {count : Nat} {ticket task}
      {children : Fin count → Pending S Action A child}
      {next : (Fin count → child.Value Action) → Pending S Action A answer}
      {parts : Fin count → List (Act S A)} {values : Fin count → child.Value Action}
      (completes : ∀ index, Completes (children index) (parts index) (values index)) :
      Gives (next values) task → Gives (.join ticket children next) task
  | advanced {answer : Answer ι} {count : Nat} {target ticket task}
      {driven : Fin count → Pending S Action A .finished} {next : Pending S Action A answer} :
      Gives next task → Gives (.advanceTo target ticket driven next) task

/-- All work that a computation hands over is allowed. -/
theorem Owes.allows_of_gives {task : Pending S Action A .finished} (owes : program.Owes allows due post)
    (gives : program.Gives task) : allows task := by
  induction gives generalizing due with
  | schedule | spawn => exact owes.1
  | called reply _ ih =>
      rcases owes with ⟨rest, -, onward⟩
      exact ih (onward reply)
  | sent _ ih => exact ih owes
  | scheduled handle _ ih => exact ih (owes.2 handle)
  | spawned _ ih => exact ih owes.2
  | waited _ ih => exact ih owes
  | resumed _ ih => exact ih owes
  | sentAll reply _ ih => exact ih (owes reply)
  | settled reply _ ih => exact ih (owes reply)
  | child index _ ih =>
      rcases owes with ⟨parts, posts, rest, -, each, -⟩
      exact ih (each index)
  | joined completes _ ih =>
      rcases owes with ⟨parts, posts, rest, -, each, onward⟩
      choose still done using fun index => (each index).of_does (completes index)
      exact ih (onward _ still fun index => (done index).1)
  | advanced _ ih => exact ih owes

end Rules

end Pending

namespace Prompt

variable (allows : Pending S Action A .finished → Prop)

/-- The calls that the computation makes, in order.  The work that it hands over is allowed, and its
result satisfies the postcondition. -/
def Calls : List Site → (α → Prop) → Prompt S Action A α → Prop
  | sites, post, .done value => sites = [] ∧ post value
  | sites, post, .call effect next =>
      ∃ rest, sites = effect.calls ++ rest ∧ ∀ reply, (next reply).Calls rest post
  | sites, post, .send _ _ next => next.Calls sites post
  | sites, post, .schedule _ _ task next => allows task ∧ ∀ handle, (next handle).Calls sites post
  | sites, post, .spawn task next => allows task ∧ next.Calls sites post

/-- The computation hands over the work, to be scheduled or to be run by itself. -/
inductive Gives : Prompt S Action A α → Pending S Action A .finished → Prop where
  | schedule {delay repeating task} {next : TimerHandle → Prompt S Action A α} :
      Gives (.schedule delay repeating task next) task
  | spawn {task} {next : Prompt S Action A α} : Gives (.spawn task next) task
  | called {effect : Primitive} {next : effect.Reply S → Prompt S Action A α} {task}
      (reply : effect.Reply S) : Gives (next reply) task → Gives (.call effect next) task
  | sent {action keep task} {next : Prompt S Action A α} :
      Gives next task → Gives (.send action keep next) task
  | scheduled {delay repeating other task} {next : TimerHandle → Prompt S Action A α}
      (handle : TimerHandle) : Gives (next handle) task →
      Gives (.schedule delay repeating other next) task
  | spawned {other task} {next : Prompt S Action A α} : Gives next task → Gives (.spawn other next) task

section Rules

variable {allows : Pending S Action A .finished → Prop} {sites : List Site} {post : α → Prop}
variable {program : Prompt S Action A α}

theorem Calls.mono {permits : Pending S Action A .finished → Prop} {image : α → Prop}
    (calls : program.Calls allows sites post) (loose : ∀ task, allows task → permits task)
    (implies : ∀ value, post value → image value) : program.Calls permits sites image := by
  induction program generalizing sites with
  | done value => exact ⟨calls.1, implies value calls.2⟩
  | call effect next ih =>
      rcases calls with ⟨rest, rfl, onward⟩
      exact ⟨rest, rfl, fun reply => ih reply (onward reply)⟩
  | send action keep next ih => exact ih calls
  | schedule delay repeating task next ih =>
      exact ⟨loose _ calls.1, fun handle => ih handle (calls.2 handle)⟩
  | spawn task next ih => exact ⟨loose _ calls.1, ih calls.2⟩

theorem Calls.bind {after : α → Prompt S Action A β} {further : List Site} {last : β → Prop}
    (calls : program.Calls allows sites post)
    (afterCalls : ∀ value, post value → (after value).Calls allows further last) :
    (program >>= after).Calls allows (sites ++ further) last := by
  change (program.bind after).Calls allows (sites ++ further) last
  induction program generalizing sites with
  | done value =>
      rcases calls with ⟨rfl, holds⟩
      exact afterCalls value holds
  | call effect next ih =>
      rcases calls with ⟨rest, rfl, onward⟩
      exact ⟨rest ++ further, List.append_assoc _ _ _, fun reply => ih reply (onward reply)⟩
  | send action keep next ih => exact ih calls
  | schedule delay repeating task next ih => exact ⟨calls.1, fun handle => ih handle (calls.2 handle)⟩
  | spawn task next ih => exact ⟨calls.1, ih calls.2⟩

/-- What comes after may make no call. -/
theorem Calls.followed {after : α → Prompt S Action A β} {last : β → Prop}
    (calls : program.Calls allows sites post)
    (afterCalls : ∀ value, post value → (after value).Calls allows [] last) :
    (program >>= after).Calls allows sites last := by
  have both := calls.bind afterCalls
  rwa [List.append_nil] at both

theorem Calls.map {image : α → β} {last : β → Prop} (calls : program.Calls allows sites post)
    (implies : ∀ value, post value → last (image value)) :
    (image <$> program).Calls allows sites last := by
  rw [map_eq_pure_bind]
  exact calls.followed fun value holds => ⟨rfl, implies value holds⟩

theorem Calls.retag {permits : Pending S Action B .finished → Prop} {image : α → Prop}
    (calls : program.Calls allows sites post) (tagger : A → Noted B)
    (loose : ∀ task, allows task → permits (task.retag tagger))
    (implies : ∀ value, post value → image value) :
    (program.retag tagger).Calls permits sites image := by
  induction program generalizing sites with
  | done value => exact ⟨calls.1, implies value calls.2⟩
  | call effect next ih =>
      rcases calls with ⟨rest, rfl, onward⟩
      exact ⟨rest, rfl, fun reply => ih reply (onward reply)⟩
  | send action keep next ih => exact ih calls
  | schedule delay repeating task next ih =>
      exact ⟨loose _ calls.1, fun handle => ih handle (calls.2 handle)⟩
  | spawn task next ih => exact ⟨loose _ calls.1, ih calls.2⟩

/-- A computation that announces nothing makes no call. -/
theorem Within.calls (within : program.Within .unannounced post)
    (silent : ∀ task, task.Within .unannounced → allows task) : program.Calls allows [] post := by
  induction program with
  | done value => exact ⟨rfl, within⟩
  | call effect next ih =>
      refine ⟨[], ?_, fun reply => ih reply (within.2 reply)⟩
      rw [within.1, List.append_nil]
  | send action keep next ih => exact ih within
  | schedule delay repeating task next ih =>
      exact ⟨silent _ within.1, fun handle => ih handle (within.2 handle)⟩
  | spawn task next ih => exact ⟨silent _ within.1, ih within.2⟩

theorem calls_ofNoted {found : Noted α} (unannounced : found.Unannounced) (holds : post found.value) :
    (ofNoted found : Prompt S Action A α).Calls allows [] post := by
  rcases found with ⟨notes, value⟩
  induction notes with
  | nil => exact ⟨rfl, holds⟩
  | cons note rest ih =>
      have silent : Primitive.calls (.note note) = [] := unannounced note List.mem_cons_self
      have others : Noted.Unannounced ⟨rest, value⟩ := fun other within =>
        unannounced other (List.mem_cons_of_mem _ within)
      refine ⟨[], ?_, fun _ => ih others holds⟩
      rw [silent, List.append_nil]

theorem Calls.thenPending {after : α → Pending S Action A answer} {due : Multiset Site}
    {last : answer.Value Action → Multiset Site → Prop} (calls : program.Calls allows sites post)
    (afterOwes : ∀ value, post value → (after value).Owes allows due last) :
    (program.thenPending after).Owes allows (sites + due) last := by
  induction program generalizing sites with
  | done value =>
      rcases calls with ⟨rfl, holds⟩
      rw [Multiset.coe_nil, zero_add]
      exact afterOwes value holds
  | call effect next ih =>
      rcases calls with ⟨rest, rfl, onward⟩
      refine ⟨rest + due, ?_, fun reply => ih reply (onward reply)⟩
      rw [← Multiset.coe_add, add_assoc]
  | send action keep next ih => exact ih calls
  | schedule delay repeating task next ih => exact ⟨calls.1, fun handle => ih handle (calls.2 handle)⟩
  | spawn task next ih => exact ⟨calls.1, ih calls.2⟩

/-- The computation makes just its calls, in order. -/
theorem Calls.of_ends {journal : List (Act S A)} {value : α} (made : program.Calls allows sites post)
    (ends : program.Ends journal value) : calls journal = sites ∧ post value := by
  induction ends generalizing sites with
  | done value => exact ⟨made.1.symm, made.2⟩
  | call reply _ ih =>
      rcases made with ⟨rest, rfl, onward⟩
      rcases ih (onward reply) with ⟨same, holds⟩
      exact ⟨by rw [calls_cons, same]; rfl, holds⟩
  | send _ ih => exact ih made
  | schedule handle _ ih => exact ih (made.2 handle)
  | spawn _ ih => exact ih made.2

/-- Where a pending computation starts like this, its first calls are these, in order. -/
theorem Calls.first_of_does {after : α → Pending S Action A answer} {journal : List (Act S A)}
    {left : Pending S Action A answer} (made : program.Calls allows sites post)
    (does : (program.thenPending after).Does journal left) :
    calls journal <+: sites ∨ sites <+: calls journal := by
  induction program generalizing sites journal with
  | done value =>
      rcases made with ⟨rfl, -⟩
      exact .inr List.nil_prefix
  | call effect next ih =>
      rcases made with ⟨rest, rfl, onward⟩
      cases does with
      | rest => exact .inl List.nil_prefix
      | call reply does =>
          rw [calls_cons]
          exact (ih reply (onward reply) does).imp (List.prefix_append_right_inj _).2
            (List.prefix_append_right_inj _).2
  | send action keep next ih =>
      cases does with
      | rest => exact .inl List.nil_prefix
      | send does =>
          have first := ih made does
          exact first
  | schedule delay repeating task next ih =>
      cases does with
      | rest => exact .inl List.nil_prefix
      | schedule handle does =>
          have first := ih handle (made.2 handle) does
          exact first
  | spawn task next ih =>
      cases does with
      | rest => exact .inl List.nil_prefix
      | spawn does =>
          have first := ih made.2 does
          exact first

theorem Calls.allows_of_gives {task : Pending S Action A .finished}
    (made : program.Calls allows sites post) (gives : program.Gives task) : allows task := by
  induction gives generalizing sites with
  | schedule | spawn => exact made.1
  | called reply _ ih =>
      rcases made with ⟨rest, -, onward⟩
      exact ih (onward reply)
  | sent _ ih => exact ih made
  | scheduled handle _ ih => exact ih (made.2 handle)
  | spawned _ ih => exact ih made.2

end Rules

end Prompt

end EffectLoop
