import EffectLoop.Proofs.Store.Work
import EffectLoop.Proofs.World.Driving

/-!
# Steps of work under way

`Work.Step` says what work does in a single step, in which world, which world it leaves, and which RUNs
fail at once in it.  A poll of the work's program should do just such steps: whatever it leaves is the
program of work that was reached by them.  `Work.Adequate` says so, and is proved here for work that is
put together from adequate parts, as far as no actions are dispatched.
-/

namespace EffectLoop

variable {S ι : Type} {Action : ι → Type} {A α β : Type} {alphabet child : ι} {answer : Answer ι}

section Steps

variable (options : Options) (dispatch : Dispatcher S Action A) (auditor : Auditor S Action A)

/-- Dispatch an action like an engine, and tell which RUNs have failed at once. -/
def Auditor.start : (depth : Nat) → Noted A →
    Run S Action A (List RunFailure × Work S Action A .settled)
  | 0, action => do
      let _ ← Run.adopt action
      throw .exhausted
  | depth + 1, action => do auditor (.ofDispatch dispatch depth) (← Run.adopt action)

/-- What happens when the actions of a command are dispatched or collected. -/
inductive After.GoesOn (tag : Action alphabet → Noted A) (actions : List (Action alphabet))
    (world : World S Action A) : {answer : Answer ι} → After S Action alphabet answer →
    List RunFailure → Work S Action A answer × World S Action A → Prop where
  | sibling : GoesOn tag actions world .sibling [] (.final (.ok []), world)
  | reply : GoesOn tag actions world .reply [] (.final (.ok ()), world)
  | ends (batch : Bool) (collected : List (Action alphabet)) :
      GoesOn tag actions world (.line batch [] collected) []
        (.final (.ok (if batch then collected ++ actions else collected)), world)
  /-- The next command is started. -/
  | starts {next : Cmd S Action alphabet} {rest : List (Cmd S Action alphabet)}
      {audit : Audit S Action A alphabet} {later : World S Action A} (batch : Bool)
      (collected : List (Action alphabet)) (depth : Nat) :
      (Cmd.audit options next tag).run (.ofDispatch dispatch depth) world = (.ok audit, later) →
      GoesOn tag actions world (.line batch (next :: rest) collected) audit.culprits
        (.awaiting tag (.line batch rest (if batch then collected ++ actions else collected))
          audit.work, later)

/-! ## Steps -/

namespace Work

/-- What work does in a step.  A step notes the failures of the RUNs that fail at once in it. -/
inductive Step : {answer : Answer ι} → Work S Action A answer × World S Action A → List RunFailure →
    Work S Action A answer × World S Action A → Prop where
  /-- The future of a RUN is polled and is not over. -/
  | waits {alphabet : ι} {follow left : FollowUp S Action A alphabet} {world later} (depth : Nat)
      (waiter : Waiter) :
      Pending.poll (.ofDispatch dispatch depth) waiter follow world = (.ok left, later) →
      Pending.result? left = none → Step (single follow, world) [] (single left, later)
  /-- The future of a RUN is over. -/
  | gives {alphabet : ι} {follow : FollowUp S Action A alphabet} {value world later} (depth : Nat)
      (waiter : Waiter) :
      Pending.poll (.ofDispatch dispatch depth) waiter follow world = (.ok (.done value), later) →
      Step (single follow, world) [] (final value, later)
  | inTagging {alphabet child : ι} {tagger : Action child → Noted (Action alphabet)}
      {inner world culprits left later} :
      Step (inner, world) culprits (left, later) →
      Step (tagging tagger inner, world) culprits (tagging tagger left, later)
  | tags {alphabet child : ι} (tagger : Action child → Noted (Action alphabet)) (actions world) :
      Step (tagging tagger (final (.ok actions)), world) []
        (final (.ok (actions.mapM tagger).value), world.annotate (actions.mapM tagger).notes)
  | untagged {alphabet child : ι} (tagger : Action child → Noted (Action alphabet)) (cause world) :
      Step (tagging tagger (final (.error cause)), world) [] (final (.error cause), world)
  | inAwaiting {alphabet : ι} {answer : Answer ι} {tag : Action alphabet → Noted A}
      {after : After S Action alphabet answer} {inner world culprits left later} :
      Step (inner, world) culprits (left, later) →
      Step (awaiting tag after inner, world) culprits (awaiting tag after left, later)
  | fails {alphabet : ι} {answer : Answer ι} (tag : Action alphabet → Noted A)
      (after : After S Action alphabet answer) (cause world) :
      Step (awaiting tag after (final (.error cause)), world) [] (final (after.failed cause), world)
  /-- The actions are collected. -/
  | collects {alphabet : ι} {answer : Answer ι} {tag : Action alphabet → Noted A}
      {after : After S Action alphabet answer} {actions world culprits now} : after.batch = true →
      after.GoesOn options dispatch tag actions world culprits now →
      Step (awaiting tag after (final (.ok actions)), world) culprits now
  /-- The actions are dispatched at once, in order. -/
  | dispatches {alphabet : ι} {answer : Answer ι} {tag : Action alphabet → Noted A}
      {after : After S Action alphabet answer} {actions world caused later} (depth : Nat) :
      after.batch = false →
      (actions.map tag).mapM (auditor.start dispatch depth) world = (.ok caused, later) →
      Step (awaiting tag after (final (.ok actions)), world) (caused.flatMap (·.1))
        (settling tag after actions none fun index => (caused.get index).2, later)
  | inSettling {alphabet : ι} {answer : Answer ι} {tag : Action alphabet → Noted A}
      {after : After S Action alphabet answer} {actions ticket count}
      {caused : Fin count → Work S Action A .settled} {index world culprits left later} :
      Step (caused index, world) culprits (left, later) →
      Step (settling tag after actions ticket caused, world) culprits
        (settling tag after actions ticket (Function.update caused index left), later)
  | booksSettling {alphabet : ι} {answer : Answer ι} (tag : Action alphabet → Noted A)
      (after : After S Action alphabet answer) (actions ticket opened) {count : Nat}
      (caused : Fin count → Work S Action A .settled) (world) :
      Step (settling tag after actions ticket caused, world) []
        (settling tag after actions opened caused, world)
  /-- All that the actions have caused is over, and some of it has failed. -/
  | breaks {alphabet : ι} {answer : Answer ι} (tag : Action alphabet → Noted A)
      (after : After S Action alphabet answer) (actions ticket) {count : Nat}
      {replies : Fin count → Except CmdFailure Unit} {cause} (world) :
      firstFailure replies = .error cause →
      Step (settling tag after actions ticket fun index => final (replies index), world) []
        (final (after.failed cause), world)
  /-- All that the actions have caused is over. -/
  | settles {alphabet : ι} {answer : Answer ι} {tag : Action alphabet → Noted A}
      {after : After S Action alphabet answer} {actions ticket} {count : Nat}
      {replies : Fin count → Except CmdFailure Unit} {world culprits now} :
      firstFailure replies = .ok () → after.GoesOn options dispatch tag actions world culprits now →
      Step (settling tag after actions ticket fun index => final (replies index), world) culprits now
  | inTogether {alphabet : ι} {ticket count} {members : Fin count → Work S Action A (.actions alphabet)}
      {index world culprits left later} : Step (members index, world) culprits (left, later) →
      Step (together ticket members, world) culprits
        (together ticket (Function.update members index left), later)
  | booksTogether {alphabet : ι} (ticket opened) {count : Nat}
      (members : Fin count → Work S Action A (.actions alphabet)) (world) :
      Step (together ticket members, world) [] (together opened members, world)
  /-- All siblings are over. -/
  | gathers {alphabet : ι} (ticket) {count : Nat}
      (results : Fin count → Except CmdFailure (List (Action alphabet))) (world) :
      Step (together ticket fun index => final (results index), world) []
        (final (FollowUp.collect results), world)

/-- What work has done. -/
abbrev Goes (env : World S Action A → World S Action A → Prop) :
    Work S Action A answer × World S Action A → List RunFailure →
    Work S Action A answer × World S Action A → Prop :=
  Runs env (Step options dispatch auditor)

/-- How a poll of a program ends that is the program of work. -/
inductive Polled (env : World S Action A → World S Action A → Prop)
    (start : Work S Action A answer × World S Action A) :
    Pending S Action A answer → World S Action A → Prop where
  | waits {work culprits later} : Goes options dispatch auditor env start culprits (work, later) →
      (work.program options).result? = none → Polled env start (work.program options) later
  | ends {value culprits later} :
      Goes options dispatch auditor env start culprits (final value, later) →
      Polled env start (.done value) later

/-- With any allowance of nested dispatches up to `depth`, a poll of the work's program takes steps of
the work. -/
structure Adequate (env : World S Action A → World S Action A → Prop) (depth : Nat)
    (work : Work S Action A answer) : Prop where
  polled : ∀ inner ≤ depth, ∀ waiter world,
    ((work.program options).poll (.ofDispatch dispatch inner) waiter).Leads world
      (Polled options dispatch auditor env (work, world))

end Work

end Steps

variable {options : Options} {dispatch : Dispatcher S Action A} {auditor : Auditor S Action A}
variable {env : World S Action A → World S Action A → Prop} {depth : Nat}

/-! ## Dispatches -/

theorem Auditor.start_zero (actions : List (Noted A)) (world : World S Action A) :
    (actions.mapM (auditor.start dispatch 0)).Leads world fun audited _ => audited = [] := by
  cases actions with
  | nil => exact .pure rfl
  | cons action rest =>
      rw [List.mapM_cons, start, LawfulMonad.bind_assoc]
      apply (Run.Leads.self (Run.adopt action) world).bind
      intro adopted middle _
      exact .throw .exhausted

namespace Audits

variable (audits : Audits options dispatch auditor)
include audits

theorem start (depth : Nat) (action : Noted A) :
    (fun caused => caused.2.program options) <$> auditor.start dispatch depth action =
      (Engine.ofDispatch dispatch depth).start action := by
  cases depth with
  | zero =>
      rw [Auditor.start, map_bind]
      rfl
  | succ depth =>
      rw [Auditor.start, map_bind]
      simp only [audits.erases]
      rfl

theorem mapM_start (depth : Nat) (actions : List (Noted A)) :
    List.map (fun caused => caused.2.program options) <$> actions.mapM (auditor.start dispatch depth) =
      actions.mapM (Engine.ofDispatch dispatch depth).start := by
  induction actions with
  | nil => rw [List.mapM_nil, List.mapM_nil, map_pure, List.map_nil]
  | cons action rest ih =>
      rw [List.mapM_cons, List.mapM_cons, ← audits.start, ← ih]
      simp only [map_eq_pure_bind, LawfulMonad.bind_assoc, pure_bind, List.map_cons]

/-- Dispatching actions one after the other leaves the programs of the work that the audits leave. -/
theorem mapM_start_leads (depth : Nat) (actions : List (Noted A)) (world : World S Action A) :
    (actions.mapM (Engine.ofDispatch dispatch depth).start).Leads world fun caused later =>
      ∃ audited, actions.mapM (auditor.start dispatch depth) world = (.ok audited, later) ∧
        caused = audited.map fun caused => caused.2.program options := by
  rw [← audits.mapM_start, map_eq_pure_bind]
  apply (Run.Leads.self (actions.mapM (auditor.start dispatch depth)) world).bind
  intro audited later started
  exact .pure ⟨audited, started, rfl⟩

end Audits

namespace Work

namespace Polled

variable {start : Work S Action A answer × World S Action A} {later : World S Action A}

/-- If the program is over, so is the work. -/
theorem final {value : answer.Value Action}
    (polled : Polled options dispatch auditor env start (.done value) later) :
    ∃ culprits, Goes options dispatch auditor env start culprits (.final value, later) := by
  generalize program : (Pending.done value : Pending S Action A answer) = left at polled
  cases polled with
  | waits _ notOver =>
      rw [← program] at notOver
      cases notOver
  | ends goes =>
      cases program
      exact ⟨_, goes⟩

/-- If the program is not over, it is the program of work that is not. -/
theorem waiting {left : Pending S Action A answer}
    (polled : Polled options dispatch auditor env start left later) (notOver : left.result? = none) :
    ∃ work culprits, left = work.program options ∧
      Goes options dispatch auditor env start culprits (work, later) := by
  cases polled with
  | waits goes _ => exact ⟨_, _, rfl, goes⟩
  | ends _ => cases notOver

theorem onward {first : Work S Action A answer × World S Action A} {culprits : List RunFailure}
    {left : Pending S Action A answer} (polled : Polled options dispatch auditor env start left later)
    (before : Goes options dispatch auditor env first culprits start) :
    Polled options dispatch auditor env first left later := by
  cases polled with
  | waits goes notOver => exact .waits (before.trans goes) notOver
  | ends goes => exact .ends (before.trans goes)

end Polled

theorem Adequate.mono {inner : Nat} {work : Work S Action A answer} (within : inner ≤ depth)
    (adequate : Adequate options dispatch auditor env depth work) :
    Adequate options dispatch auditor env inner work :=
  ⟨fun smaller le => adequate.polled smaller (le.trans within)⟩

/-- Polls with smaller allowances take steps of any work. -/
structure Deeper (options : Options) (dispatch : Dispatcher S Action A) (auditor : Auditor S Action A)
    (env : World S Action A → World S Action A → Prop) (depth : Nat) : Prop where
  adequate : ∀ {answer : Answer ι} (work : Work S Action A answer), ∀ shallow < depth,
    Adequate options dispatch auditor env shallow work

theorem Deeper.mono {inner : Nat} (deeper : Deeper options dispatch auditor env depth)
    (within : inner ≤ depth) : Deeper options dispatch auditor env inner :=
  ⟨fun work shallow smaller => deeper.adequate work shallow (smaller.trans_le within)⟩

/-! ## Work without parts -/

theorem adequate_final (value : answer.Value Action) :
    Adequate options dispatch auditor env depth (final value) :=
  ⟨fun _ _ _ _ => .pure (.ends (.rest _))⟩

theorem adequate_single (follow : FollowUp S Action A alphabet) :
    Adequate options dispatch auditor env depth (single follow) := by
  constructor
  intro inner _ waiter world
  constructor
  intro left later polled
  cases result : left.result? with
  | none =>
      have goes : Goes options dispatch auditor env (single follow, world) [] (single left, later) :=
        .single (.waits inner waiter polled result)
      exact .waits goes result
  | some value =>
      rw [Pending.result?_eq_some_iff.1 result] at polled ⊢
      exact .ends (.single (.gives inner waiter polled))

/-! ## Tags -/

theorem adequate_tagging {inner : Work S Action A (.actions child)}
    (tagger : Action child → Noted (Action alphabet))
    (adequate : Adequate options dispatch auditor env depth inner) :
    Adequate options dispatch auditor env depth (tagging tagger inner) := by
  constructor
  intro allowance within waiter world
  have lift {culprits left later}
      (goes : Goes options dispatch auditor env (inner, world) culprits (left, later)) :
      Goes options dispatch auditor env (tagging tagger inner, world) culprits
        (tagging tagger left, later) :=
    goes.lift (tagging tagger) fun _ _ _ _ _ => .inTagging
  apply ((Pending.poll_bind dispatch allowance waiter (inner.program options) _).leads world).mono
  intro left later ended
  cases ended with
  | waits polled notOver =>
      rcases ((adequate.polled allowance within waiter world).holds _ _ polled).waiting notOver with
        ⟨work, culprits, rfl, goes⟩
      exact .waits (lift goes) (Pending.result?_bind notOver _)
  | @passes value middle smaller left later _ polled answered =>
      rcases ((adequate.polled allowance within waiter world).holds _ _ polled).final with
        ⟨culprits, goes⟩
      cases value with
      | error cause =>
          cases answered
          exact .ends ((lift goes).step (.untagged tagger cause _))
      | ok actions =>
          rw [Pending.poll_withNoted] at answered
          cases answered
          exact .ends ((lift goes).step (.tags tagger actions _))

/-! ## Families of work -/

/-- If the program is over, so is the work, without another poll. -/
structure Finishes (options : Options) (dispatch : Dispatcher S Action A) (auditor : Auditor S Action A)
    (env : World S Action A → World S Action A → Prop) (work : Work S Action A answer) : Prop where
  final : ∀ value world, work.program options = .done value →
    ∃ culprits, Goes options dispatch auditor env (work, world) culprits (.final value, world)

theorem finishes_final (value : answer.Value Action) :
    Finishes options dispatch auditor env (final value : Work S Action A answer) := by
  constructor
  intro found world same
  cases same
  exact ⟨[], .rest _⟩

theorem Adequate.finishes {work : Work S Action A answer}
    (adequate : Adequate options dispatch auditor env depth work) :
    Finishes options dispatch auditor env work := by
  constructor
  intro value world done
  have polled : (work.program options).poll (.ofDispatch dispatch 0) ⟨0, []⟩ world =
      (.ok (.done value), world) := by
    rw [done]
    rfl
  exact ((adequate.polled 0 (Nat.zero_le depth) _ world).holds _ _ polled).final

section Families

variable {count : Nat} {kind : Answer ι} {works : Fin count → Work S Action A kind}
variable {frame : (Fin count → Work S Action A kind) → Work S Action A answer}

/-- The members of a family are parts of something larger. -/
structure Frames (options : Options) (dispatch : Dispatcher S Action A) (auditor : Auditor S Action A)
    (frame : (Fin count → Work S Action A kind) → Work S Action A answer) : Prop where
  inside : ∀ works index world culprits left later,
    Step options dispatch auditor (works index, world) culprits (left, later) →
      Step options dispatch auditor (frame works, world) culprits
        (frame (Function.update works index left), later)

theorem frames_settling (tag : Action alphabet → Noted A) (after : After S Action alphabet answer)
    (actions : List (Action alphabet)) (ticket : Option Nat) :
    Frames options dispatch auditor
      fun caused : Fin count → Work S Action A .settled => settling tag after actions ticket caused :=
  ⟨fun _ _ _ _ _ _ => .inSettling⟩

theorem frames_together (ticket : Option Nat) :
    Frames options dispatch auditor
      fun members : Fin count → Work S Action A (.actions alphabet) => together ticket members :=
  ⟨fun _ _ _ _ _ _ => .inTogether⟩

namespace Frames

variable (frames : Frames options dispatch auditor frame)
variable {start : Work S Action A answer × World S Action A} {world later : World S Action A}
include frames

theorem goes {index : Fin count} {culprits : List RunFailure} {left : Work S Action A kind}
    (goes : Goes options dispatch auditor env (works index, world) culprits (left, later)) :
    Goes options dispatch auditor env (frame works, world) culprits
      (frame (Function.update works index left), later) := by
  have steps (now : Work S Action A kind) (world : World S Action A) (noted : List RunFailure)
      (left : Work S Action A kind) (later : World S Action A)
      (step : Step options dispatch auditor (now, world) noted (left, later)) :
      Step options dispatch auditor (frame (Function.update works index now), world) noted
        (frame (Function.update works index left), later) := by
    have inside := frames.inside (Function.update works index now) index world noted left later
    rw [Function.update_self, Function.update_idem] at inside
    exact inside step
  have lifted := goes.lift (fun work => frame (Function.update works index work)) steps
  rwa [Function.update_eq_self] at lifted

/-- If the programs of all members are over, so are the members. -/
theorem finish (finish : ∀ index, Finishes options dispatch auditor env (works index))
    {results : Fin count → kind.Value Action}
    (done : ∀ index, (works index).program options = .done (results index)) (world : World S Action A) :
    ∃ culprits, Goes options dispatch auditor env (frame works, world) culprits
      (frame fun index => final (results index), world) := by
  let reached (now : Fin count → Work S Action A kind) : Prop :=
    ∃ culprits, Goes options dispatch auditor env (frame works, world) culprits (frame now, world)
  have start : reached works := ⟨[], .rest _⟩
  apply of_update_each start
  rintro now index ⟨culprits, before⟩ stands
  have ends : ∃ culprits, Goes options dispatch auditor env (now index, world) culprits
      (final (results index), world) := by
    rcases stands with same | same
    · rw [same]
      exact (finish index).final _ world (done index)
    · rw [same]
      exact ⟨[], .rest _⟩
  rcases ends with ⟨more, ends⟩
  exact ⟨_, before.trans (frames.goes ends)⟩

end Frames

/-- The members of a family have got somewhere. -/
structure Gone (env : World S Action A → World S Action A → Prop) (options : Options)
    (dispatch : Dispatcher S Action A) (auditor : Auditor S Action A)
    (frame : (Fin count → Work S Action A kind) → Work S Action A answer)
    (start : Work S Action A answer × World S Action A) (works : Fin count → Work S Action A kind)
    (world : World S Action A) : Prop where
  goes : ∃ culprits, Goes options dispatch auditor env start culprits (frame works, world)
  finish : ∀ index, Finishes options dispatch auditor env (works index)

namespace Frames

variable (frames : Frames options dispatch auditor frame)
variable {start : Work S Action A answer × World S Action A} {world later : World S Action A}
include frames

/-- One of the members is polled. -/
theorem gone_of_polled {index : Fin count} {left : Pending S Action A kind}
    (gone : Gone env options dispatch auditor frame start works world)
    (polled : Polled options dispatch auditor env (works index, world) left later) :
    ∃ work, left = work.program options ∧
      Gone env options dispatch auditor frame start (Function.update works index work) later := by
  have replaced {work : Work S Action A kind} {culprits : List RunFailure}
      (goes : Goes options dispatch auditor env (works index, world) culprits (work, later))
      (finishes : Finishes options dispatch auditor env work) :
      Gone env options dispatch auditor frame start (Function.update works index work) later := by
    rcases gone.goes with ⟨before, reached⟩
    have finish : ∀ other, Finishes options dispatch auditor env (Function.update works index work other) :=
      (Function.forall_update_iff works fun _ work => Finishes options dispatch auditor env work).2
        ⟨finishes, fun other _ => gone.finish other⟩
    exact ⟨⟨_, reached.trans (frames.goes goes)⟩, finish⟩
  cases polled with
  | @waits work _ _ goes notOver =>
      refine ⟨work, rfl, replaced goes ⟨?_⟩⟩
      intro value world done
      rw [done] at notOver
      cases notOver
  | @ends value _ _ goes => exact ⟨.final value, rfl, replaced goes (finishes_final value)⟩

end Frames

/-- The programs are those of members that have got somewhere. -/
def Attended (env : World S Action A → World S Action A → Prop) (options : Options)
    (dispatch : Dispatcher S Action A) (auditor : Auditor S Action A)
    (frame : (Fin count → Work S Action A kind) → Work S Action A answer)
    (start : Work S Action A answer × World S Action A) (programs : Fin count → Pending S Action A kind)
    (world : World S Action A) : Prop :=
  ∃ works, programs = (fun index => program options (works index)) ∧
    Gone env options dispatch auditor frame start works world

theorem Attended.booked {start : Work S Action A answer × World S Action A}
    (programs : Fin count → Pending S Action A kind) (before after : World S Action A)
    (books : World.Booked before after)
    (attended : Attended env options dispatch auditor frame start programs before) :
    Attended env options dispatch auditor frame start programs after := by
  rcases attended with ⟨works, same, ⟨culprits, goes⟩, finish⟩
  exact ⟨works, same, ⟨culprits, goes.booked books⟩, finish⟩

namespace Frames

variable (frames : Frames options dispatch auditor frame)
variable {start : Work S Action A answer × World S Action A} {world later : World S Action A}
variable {inner : Nat}
variable (deeper : Deeper options dispatch auditor env inner)
include frames deeper

theorem engine_polled (programs : Fin count → Pending S Action A kind) (world : World S Action A)
    (index : Fin count) (waiter : Waiter)
    (attended : Attended env options dispatch auditor frame start programs world) :
    ((Engine.ofDispatch dispatch inner).poll waiter (programs index)).Leads world fun left later =>
      Attended env options dispatch auditor frame start (Function.update programs index left) later := by
  rcases attended with ⟨works, rfl, gone⟩
  cases inner with
  | zero => exact .throw .exhausted
  | succ inner =>
      have adequate := deeper.adequate (works index) inner (Nat.lt_succ_self inner)
      apply (adequate.polled inner le_rfl waiter world).mono
      intro left later polled
      rcases frames.gone_of_polled gone polled with ⟨work, rfl, gone⟩
      exact ⟨_, (Function.comp_update (program options) works index work).symm, gone⟩

/-- A round of polls of computations that are not part of the program. -/
theorem pollFresh_leads (waiter : Waiter)
    (gone : Gone env options dispatch auditor frame start works world) :
    ((Engine.ofDispatch dispatch inner).pollFresh waiter
      fun index => program options (works index)).Leads world
      fun found later => Attended env options dispatch auditor frame start found.2.get later :=
  Engine.pollFresh_leads Attended.booked (frames.engine_polled deeper) waiter ⟨works, rfl, gone⟩

/-- A round of polls of computations that are part of the program. -/
theorem pollJoin_leads (waiter : Waiter) (ticket : Option Nat)
    (adequate : ∀ index, Adequate options dispatch auditor env inner (works index))
    (gone : Gone env options dispatch auditor frame start works world) :
    ((Engine.ofDispatch dispatch inner).pollJoin waiter ticket
      (fun index => program options (works index)) fun index => (program options (works index)).poll (.ofDispatch dispatch inner) waiter).Leads
      world fun found later => Attended env options dispatch auditor frame start found.2.get later := by
  apply Engine.pollJoin_leads_of_small Attended.booked (frames.engine_polled deeper) waiter ticket _
    ⟨works, rfl, gone⟩
  apply Run.Leads.ofFnM_of (program options) _ gone
  intro now before index gone same
  rw [← same]
  apply ((same ▸ adequate index : Adequate options dispatch auditor env inner (now index)).polled
    inner le_rfl waiter before).mono
  intro left later polled
  exact frames.gone_of_polled gone polled

end Frames

end Families

/-! ## Work with parts -/

section Parts

variable (deeper : Deeper options dispatch auditor env depth)
include deeper

theorem adequate_together {count : Nat} {members : Fin count → Work S Action A (.actions alphabet)}
    (ticket : Option Nat)
    (adequate : ∀ index, Adequate options dispatch auditor env depth (members index)) :
    Adequate options dispatch auditor env depth (together ticket members) := by
  constructor
  intro inner within waiter world
  have frames : Frames options dispatch auditor
      fun members : Fin count → Work S Action A (.actions alphabet) => together ticket members :=
    frames_together ticket
  have gone : Gone env options dispatch auditor (fun members => together ticket members)
      (together ticket members, world) members world :=
    ⟨⟨[], .rest _⟩, fun index => (adequate index).finishes⟩
  rw [program, Pending.poll]
  apply (frames.pollJoin_leads (deeper.mono within) waiter ticket
    (fun index => (adequate index).mono within) gone).bind
  rintro ⟨opened, lefts⟩ later ⟨works, same, ⟨culprits, goes⟩, finish⟩
  dsimp only at same ⊢
  split
  next results complete =>
      have done (index) : program options (works index) = .done (results.get index) :=
        (congrFun same index).symm.trans (done_of_results? complete index)
      rcases frames.finish finish done later with ⟨more, ends⟩
      exact .pure (.ends ((goes.trans ends).step (.gathers ticket results.get later)))
  next incomplete =>
      rw [same]
      have goes := goes.step (.booksTogether ticket opened works later)
      exact .pure (.waits goes rfl)

end Parts

end Work

end EffectLoop
