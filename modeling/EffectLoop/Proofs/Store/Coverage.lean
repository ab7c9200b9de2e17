import EffectLoop.Proofs.Store.Progress

/-!
# Polls are made of steps

Whatever a poll of the program of work leaves, the work has reached it by steps (`Work.adequate`).  The
proof follows the work, down to the commands that a sequential list has still to start
(`Cmd.adequate`), and the allowance of nested dispatches, as dispatched actions cause further work.
-/

namespace EffectLoop

variable {S ι : Type} {Action : ι → Type} {A α β : Type} {alphabet child : ι} {answer : Answer ι}
variable {options : Options} {dispatch : Dispatcher S Action A} {auditor : Auditor S Action A}
variable {env : World S Action A → World S Action A → Prop} {depth : Nat}

/-- Going on after the actions of a command takes steps of the work that is left. -/
structure After.Adequate (options : Options) (dispatch : Dispatcher S Action A)
    (auditor : Auditor S Action A) (env : World S Action A → World S Action A → Prop) (depth : Nat)
    (tag : Action alphabet → Noted A) (after : After S Action alphabet answer) : Prop where
  polled : ∀ inner ≤ depth, ∀ actions waiter world,
    ((after.next options tag actions).poll (.ofDispatch dispatch inner) waiter).Leads world
      fun left later => ∃ culprits work middle,
        after.GoesOn options dispatch tag actions world culprits (work, middle) ∧
          Work.Polled options dispatch auditor env (work, middle) left later

namespace Work

section Parts

variable {tag : Action alphabet → Noted A} {after : After S Action alphabet answer}
variable (adequate : After.Adequate options dispatch auditor env depth tag after)
variable (deeper : Deeper options dispatch auditor env depth)
variable {start : Work S Action A answer × World S Action A} {culprits : List RunFailure}
variable {inner : Nat} (within : inner ≤ depth) {world : World S Action A}
include adequate within

theorem settled_leads (waiter : Waiter) {actions : List (Action alphabet)} {ticket : Option Nat}
    {count : Nat} {replies : Fin count → Except CmdFailure Unit}
    (goes : Goes options dispatch auditor env start culprits
      (settling tag after actions ticket fun index => final (replies index), world)) :
    ((after.settled options tag actions (firstFailure replies)).poll (.ofDispatch dispatch inner)
      waiter).Leads world (Polled options dispatch auditor env start) := by
  cases result : firstFailure replies with
  | error cause => exact .pure (.ends (goes.step (.breaks tag after actions ticket world result)))
  | ok =>
      apply (adequate.polled inner within actions waiter world).mono
      rintro left later ⟨more, work, middle, goesOn, polled⟩
      exact polled.onward (goes.step (.settles result goesOn))

/-- After a round of polls, when all that the actions have caused is over. -/
theorem settling_leads_of_some (waiter : Waiter) {actions : List (Action alphabet)}
    {ticket : Option Nat} {count : Nat} {lefts : Vector (Settling S Action A) count}
    {results : Vector (Except CmdFailure Unit) count} (complete : results? lefts = some results)
    (attended : Attended env options dispatch auditor
      (fun caused => settling tag after actions ticket caused) start lefts.get world) :
    ((after.settled options tag actions (firstFailure results.get)).poll (.ofDispatch dispatch inner)
      waiter).Leads world (Polled options dispatch auditor env start) := by
  have frames : Frames options dispatch auditor
      fun caused : Fin count → Work S Action A .settled => settling tag after actions ticket caused :=
    frames_settling tag after actions ticket
  rcases attended with ⟨works, same, ⟨culprits, goes⟩, finish⟩
  have done (index) : program options (works index) = .done (results.get index) :=
    (congrFun same index).symm.trans (done_of_results? complete index)
  rcases frames.finish finish done world with ⟨more, ends⟩
  exact settled_leads adequate within waiter (goes.trans ends)

omit adequate within in
/-- After a round of polls, when something is not over. -/
theorem settling_polled {actions : List (Action alphabet)} {ticket : Option Nat}
    {count : Nat} (opened : Option Nat) {lefts : Vector (Settling S Action A) count}
    (attended : Attended env options dispatch auditor
      (fun caused => settling tag after actions ticket caused) start lefts.get world) :
    Polled options dispatch auditor env start
      (.settling opened lefts.get (after.settled options tag actions)) world := by
  rcases attended with ⟨works, same, ⟨culprits, goes⟩, _⟩
  rw [same]
  have goes := goes.step (.booksSettling tag after actions ticket opened works world)
  exact .waits goes rfl

include deeper

/-- When the actions are known, and are dispatched or collected. -/
theorem arrived_leads (audits : Audits options dispatch auditor) (waiter : Waiter)
    {actions : List (Action alphabet)}
    (goes : Goes options dispatch auditor env start culprits
      (awaiting tag after (final (.ok actions)), world)) :
    ((after.arrived options tag (.ok actions)).poll (.ofDispatch dispatch inner) waiter).Leads world
      (Polled options dispatch auditor env start) := by
  rw [After.arrived]
  split
  next batch =>
      apply (adequate.polled inner within actions waiter world).mono
      rintro left later ⟨more, work, middle, goesOn, polled⟩
      exact polled.onward (goes.step (.collects batch goesOn))
  next batch =>
      rw [Pending.poll]
      apply (audits.mapM_start_leads inner (actions.map tag) world).bind
      rintro _ middle ⟨audited, started, rfl⟩
      have goes := goes.step (.dispatches inner (by simpa using batch) started)
      have frames : Frames options dispatch auditor
          fun caused : Fin audited.length → Work S Action A .settled =>
            settling tag after actions none caused :=
        frames_settling tag after actions none
      have gone : Gone env options dispatch auditor
          (fun caused => settling tag after actions none caused) start
          (fun index => (audited.get index).2) middle := by
        refine ⟨⟨_, goes⟩, ?_⟩
        intro index
        cases inner with
        | zero =>
            have none := (Auditor.start_zero (actions.map tag) world).holds _ _ started
            subst none
            exact index.elim0
        | succ inner => exact (deeper.adequate _ inner within).finishes
      have round := frames.pollFresh_leads (deeper.mono within) waiter gone
      -- There are as many programs as there is work, but that has to be said.
      have all {count : Nat} (programs : Fin count → Settling S Action A)
          (same : (⟨count, programs⟩ : Σ count, Fin count → Settling S Action A) =
            ⟨audited.length, fun index => program options (audited.get index).2⟩) :
          ((Engine.ofDispatch dispatch inner).pollFresh waiter programs).Leads middle fun found later =>
            Attended env options dispatch auditor (fun caused => settling tag after actions none caused)
              start found.2.get later := by
        cases same
        exact round
      apply (all _ (sigma_get_map (fun caused => program options caused.2) audited)).bind
      rintro ⟨ticket, lefts⟩ later attended
      dsimp only
      split
      next results complete => exact settling_leads_of_some adequate within waiter complete attended
      next => exact .pure (settling_polled ticket attended)

end Parts

section Parts

variable {tag : Action alphabet → Noted A} {after : After S Action alphabet answer}
variable (adequate : After.Adequate options dispatch auditor env depth tag after)
variable (deeper : Deeper options dispatch auditor env depth)
include adequate deeper

theorem adequate_settling {actions : List (Action alphabet)} (ticket : Option Nat) {count : Nat}
    {caused : Fin count → Work S Action A .settled}
    (parts : ∀ index, Adequate options dispatch auditor env depth (caused index)) :
    Adequate options dispatch auditor env depth (settling tag after actions ticket caused) := by
  constructor
  intro inner within waiter world
  have frames : Frames options dispatch auditor
      fun caused : Fin count → Work S Action A .settled => settling tag after actions ticket caused :=
    frames_settling tag after actions ticket
  have gone : Gone env options dispatch auditor (fun caused => settling tag after actions ticket caused)
      (settling tag after actions ticket caused, world) caused world :=
    ⟨⟨[], .rest _⟩, fun index => (parts index).finishes⟩
  rw [program, Pending.poll]
  apply (frames.pollJoin_leads (deeper.mono within) waiter ticket
    (fun index => (parts index).mono within) gone).bind
  rintro ⟨opened, lefts⟩ later attended
  dsimp only
  split
  next results complete => exact settling_leads_of_some adequate within waiter complete attended
  next => exact .pure (settling_polled opened attended)

theorem adequate_awaiting (audits : Audits options dispatch auditor)
    {first : Work S Action A (.actions alphabet)}
    (part : Adequate options dispatch auditor env depth first) :
    Adequate options dispatch auditor env depth (awaiting tag after first) := by
  constructor
  intro inner within waiter world
  have lift {culprits left later}
      (goes : Goes options dispatch auditor env (first, world) culprits (left, later)) :
      Goes options dispatch auditor env (awaiting tag after first, world) culprits
        (awaiting tag after left, later) :=
    goes.lift (awaiting tag after) fun _ _ _ _ _ => .inAwaiting
  apply ((Pending.poll_bind dispatch inner waiter (first.program options) _).leads world).mono
  intro left later ended
  cases ended with
  | waits polled notOver =>
      rcases ((part.polled inner within waiter world).holds _ _ polled).waiting notOver with
        ⟨work, culprits, rfl, goes⟩
      exact .waits (lift goes) (Pending.result?_bind notOver _)
  | @passes value middle smaller left later fewer polled answered =>
      rcases ((part.polled inner within waiter world).holds _ _ polled).final with ⟨culprits, goes⟩
      cases value with
      | error cause =>
          cases answered
          exact .ends ((lift goes).step (.fails tag after cause _))
      | ok actions =>
          exact (arrived_leads adequate deeper (fewer.trans within) audits waiter (lift goes)).holds _ _
            answered

end Parts

end Work

/-! ## What comes after -/

namespace After

variable {tag : Action alphabet → Noted A}

theorem adequate_sibling :
    (sibling : After S Action alphabet _).Adequate options dispatch auditor env depth tag :=
  ⟨fun _ _ _ _ world => .pure ⟨[], .final (.ok []), world, .sibling, .ends (.rest _)⟩⟩

theorem adequate_reply :
    (reply : After S Action alphabet _).Adequate options dispatch auditor env depth tag :=
  ⟨fun _ _ _ _ world => .pure ⟨[], .final (.ok ()), world, .reply, .ends (.rest _)⟩⟩

/-- A sequential list starts its next command. -/
theorem next_line (options : Options) (tag : Action alphabet → Noted A) (batch : Bool)
    (next : Cmd S Action alphabet) (rest : List (Cmd S Action alphabet))
    (collected actions : List (Action alphabet)) :
    (line batch (next :: rest) collected).next options tag actions =
      (next.audit options tag).thenPending fun audit =>
        (Work.awaiting tag (.line batch rest (if batch then collected ++ actions else collected))
          audit.work).program options := by
  let collected := if batch then collected ++ actions else collected
  let go (verdict : Verdict S Action A alphabet) : FollowUp S Action A alphabet :=
    Pending.bind verdict.followUp ((line batch rest collected).arrived options tag)
  calc (line batch (next :: rest) _).next options tag actions
      = Pending.retag tag ((next.execute options).thenPending
          (walk batch (rest.map (Cmd.execute options)) collected)) := rfl
    _ = ((next.execute options).retag tag).thenPending fun verdict => go (verdict.retag tag) := by
        rw [Prompt.retag_thenPending]
        simp only [Verdict.retag_walk, go]
    _ = (Verdict.retag tag <$> (next.execute options).retag tag).thenPending go :=
        (Prompt.map_thenPending _ _ _).symm
    _ = (next.audit options tag).thenPending fun audit => go (audit.erased options) := by
        rw [← Cmd.erased_audit, Prompt.map_thenPending]
    _ = (next.audit options tag).thenPending fun audit =>
          (Work.awaiting tag (.line batch rest collected) audit.work).program options := by
        simp only [Work.program, Audit.program_work, go]

theorem adequate_line (deeper : Work.Deeper options dispatch auditor env depth)
    (audits : Audits options dispatch auditor) (batch : Bool) {rest : List (Cmd S Action alphabet)}
    (collected : List (Action alphabet))
    (each : ∀ cmd ∈ rest, (cmd.audit options tag).Within .lax fun audit =>
      audit.work.Adequate options dispatch auditor env depth) :
    (line batch rest collected).Adequate options dispatch auditor env depth tag := by
  induction rest generalizing collected with
  | nil =>
      constructor
      intro _ _ actions _ world
      exact .pure ⟨[], _, world, .ends batch collected, .ends (.rest _)⟩
  | cons next rest ih =>
      constructor
      intro inner within actions waiter world
      rw [next_line, Prompt.poll_thenPending]
      apply (Run.Leads.self ((next.audit options tag).run (.ofDispatch dispatch inner)) world).bind
      intro audit middle started
      have part := ((each next List.mem_cons_self).run_leads _ world).holds _ _ started
      have onward := ih (if batch then collected ++ actions else collected)
        fun cmd within => each cmd (List.mem_cons_of_mem _ within)
      have adequate := Work.adequate_awaiting onward deeper audits part
      apply (adequate.polled inner within waiter middle).mono
      intro left later polled
      exact ⟨_, _, _, .starts batch collected inner started, polled⟩

end After

/-! ## Commands that are started -/

namespace Audit

variable {tag : Action alphabet → Noted A}

theorem adequate_single (culprits : List RunFailure)
    (verdict : Verdict S Action (Action alphabet) alphabet) :
    (single tag culprits verdict).work.Adequate options dispatch auditor env depth := by
  rcases verdict with cause | _ | follow
  · exact Work.adequate_final _
  · exact Work.adequate_final _
  · exact Work.adequate_single _

theorem adequate_tagged (tagger : Action child → Noted (Action alphabet))
    {audit : Audit S Action A child} (part : audit.work.Adequate options dispatch auditor env depth) :
    (audit.tagged tagger).work.Adequate options dispatch auditor env depth := by
  rcases audit with ⟨culprits, cause | _ | work⟩
  · exact Work.adequate_final _
  · exact Work.adequate_final _
  · exact Work.adequate_tagging tagger part

section Parts

variable (deeper : Work.Deeper options dispatch auditor env depth)
variable (audits : Audits options dispatch auditor)
include deeper audits

theorem adequate_sibling {batch : Bool} {audit : Audit S Action A alphabet}
    (part : audit.work.Adequate options dispatch auditor env depth)
    {work : Work S Action A (.actions alphabet)} (left : audit.sibling? tag batch = some work) :
    work.Adequate options dispatch auditor env depth := by
  rcases audit with ⟨culprits, cause | _ | follow⟩
  · cases left
    exact Work.adequate_final _
  · cases left
  · cases left
    cases batch with
    | true => exact part
    | false => exact Work.adequate_awaiting After.adequate_sibling deeper audits part

theorem adequate_together {batch : Bool} {members : List (Audit S Action A alphabet)}
    (parts : ∀ audit ∈ members, audit.work.Adequate options dispatch auditor env depth) :
    (together tag batch members).work.Adequate options dispatch auditor env depth := by
  have each : ∀ work ∈ members.filterMap (sibling? tag batch),
      work.Adequate options dispatch auditor env depth := by
    intro work within
    rcases List.mem_filterMap.1 within with ⟨audit, member, left⟩
    exact adequate_sibling deeper audits (parts audit member) left
  rw [together, work]
  cases found : members.filterMap (sibling? tag batch) with
  | nil => exact Work.adequate_final _
  | cons first rest =>
      rw [found] at each
      exact Work.adequate_together deeper none fun index => each _ (List.get_mem _ index)

theorem within_inOrder (batch : Bool) {cmds : List (Cmd S Action alphabet)}
    {starts : List (Prompt S Action A (Audit S Action A alphabet))}
    (each : ∀ start ∈ starts, start.Within .lax fun audit =>
      audit.work.Adequate options dispatch auditor env depth)
    (rest : ∀ cmd ∈ cmds.tail, (cmd.audit options tag).Within .lax fun audit =>
      audit.work.Adequate options dispatch auditor env depth) :
    (inOrder tag batch cmds starts).Within .lax fun audit =>
      audit.work.Adequate options dispatch auditor env depth := by
  cases starts with
  | nil => exact Work.adequate_final _
  | cons head _ =>
      apply (each head List.mem_cons_self).bind
      intro audit part
      exact Work.adequate_awaiting (After.adequate_line deeper audits batch [] rest) deeper audits part

end Parts

end Audit

theorem Cmd.adequate_single (tag : Action alphabet → Noted A) (culprits : List RunFailure)
    (start : Start S Action alphabet) :
    (Audit.single tag culprits <$> start.retag tag).Within .lax fun audit =>
      audit.work.Adequate options dispatch auditor env depth :=
  (Prompt.within_lax _).map fun verdict _ => Audit.adequate_single culprits verdict

/-- Polls of what a command leaves when it is started are made of steps. -/
theorem Cmd.adequate (deeper : Work.Deeper options dispatch auditor env depth)
    (audits : Audits options dispatch auditor) (cmd : Cmd S Action alphabet)
    (tag : Action alphabet → Noted A) :
    (cmd.audit options tag).Within .lax fun audit =>
      audit.work.Adequate options dispatch auditor env depth := by
  induction cmd with
  | none => exact adequate_single tag [] _
  | action sent => exact adequate_single tag [] _
  | scheduled nested delay repeating onScheduled _ => exact adequate_single tag [] _
  | run spec =>
      apply (Prompt.within_lax _).bind
      intro output _
      exact adequate_single tag _ _
  | map nested tagger args ih =>
      apply (ih _).map
      intro audit part
      exact Audit.adequate_tagged (tagger args) part
  | list cmds sequence batch ih =>
      have each : ∀ start ∈ List.ofFn fun index => (cmds index).audit options tag,
          start.Within .lax fun audit => audit.work.Adequate options dispatch auditor env depth := by
        intro start within
        rcases List.mem_ofFn.1 within with ⟨index, rfl⟩
        exact ih index tag
      cases sequence with
      | false =>
          apply (Prompt.Within.mapM each).map
          intro members parts
          exact Audit.adequate_together deeper audits parts
      | true =>
          apply Audit.within_inOrder deeper audits batch each
          intro cmd within
          rcases List.mem_ofFn.1 (List.mem_of_mem_tail within) with ⟨index, rfl⟩
          exact ih index tag

theorem After.adequate (deeper : Work.Deeper options dispatch auditor env depth)
    (audits : Audits options dispatch auditor) (tag : Action alphabet → Noted A)
    (after : After S Action alphabet answer) :
    after.Adequate options dispatch auditor env depth tag := by
  cases after with
  | sibling => exact adequate_sibling
  | reply => exact adequate_reply
  | line batch rest collected =>
      exact adequate_line deeper audits batch collected fun cmd _ => cmd.adequate deeper audits tag

namespace Work

/-- A poll of the program of work takes steps of the work. -/
theorem adequate_of_deeper (deeper : Deeper options dispatch auditor env depth)
    (audits : Audits options dispatch auditor) (work : Work S Action A answer) :
    work.Adequate options dispatch auditor env depth := by
  induction work with
  | final value => exact adequate_final value
  | single follow => exact adequate_single follow
  | tagging tagger inner ih => exact adequate_tagging tagger ih
  | awaiting tag after inner ih =>
      exact adequate_awaiting (after.adequate deeper audits tag) deeper audits ih
  | settling tag after actions ticket caused ih =>
      exact adequate_settling (after.adequate deeper audits tag) deeper ticket ih
  | together ticket members ih => exact adequate_together deeper ticket ih

theorem adequate (audits : Audits options dispatch auditor) (depth : Nat) :
    ∀ {answer : Answer ι} (work : Work S Action A answer),
      work.Adequate options dispatch auditor env depth := by
  induction depth using Nat.strong_induction_on with
  | _ depth ih =>
      intro answer work
      exact adequate_of_deeper ⟨fun work shallow smaller => ih shallow smaller work⟩ audits work

/-- The work shadows its program while that is driven: whenever the program is polled, the work takes
the steps that the poll consists of.  The list holds the failures of the RUNs that fail at once. -/
inductive Shadows (options : Options) (dispatch : Dispatcher S Action A) (auditor : Auditor S Action A)
    (env : World S Action A → World S Action A → Prop)
    (start : Work S Action A answer × World S Action A) :
    List RunFailure → Work S Action A answer × World S Action A → Prop where
  | rest : Shadows options dispatch auditor env start [] start
  | poll {work left noted more world later} (depth : Nat) (waiter : Waiter) :
      Shadows options dispatch auditor env start noted (work, world) →
      (work.program options).poll (.ofDispatch dispatch depth) waiter world =
        (.ok (left.program options), later) →
      Goes options dispatch auditor (fun _ _ => False) (work, world) more (left, later) →
      Shadows options dispatch auditor env start (noted ++ more) (left, later)
  | meanwhile {work noted world later} :
      Shadows options dispatch auditor env start noted (work, world) → env world later →
      Shadows options dispatch auditor env start noted (work, later)

namespace Shadows

variable {start : Work S Action A answer × World S Action A} {work : Work S Action A answer}
variable {noted : List RunFailure} {world later : World S Action A}

theorem polled (audits : Audits options dispatch auditor)
    (before : Shadows options dispatch auditor env start noted (work, world)) {waiter : Waiter}
    {left : Pending S Action A answer}
    (answered : (work.program options).poll (.ofDispatch dispatch depth) waiter world =
      (.ok left, later)) :
    ∃ more work, left = work.program options ∧
      Shadows options dispatch auditor env start more (work, later) := by
  have adequate : work.Adequate options dispatch auditor (fun _ _ => False) depth :=
    work.adequate audits depth
  cases (adequate.polled depth le_rfl waiter world).holds _ _ answered with
  | waits goes _ => exact ⟨_, _, rfl, before.poll depth waiter answered goes⟩
  | @ends value _ _ goes => exact ⟨_, .final value, rfl, before.poll depth waiter answered goes⟩

/-- Whatever its program has become, the work has shadowed it. -/
theorem of_driven (audits : Audits options dispatch auditor) {left : Pending S Action A answer}
    (driven : Driven dispatch env (work.program options, world) (left, later)) :
    ∃ noted now, left = now.program options ∧
      Shadows options dispatch auditor env (work, world) noted (now, later) := by
  let reached (left : Pending S Action A answer) (later : World S Action A) : Prop :=
    ∃ noted now, left = now.program options ∧
      Shadows options dispatch auditor env (work, world) noted (now, later)
  have polls (program : Pending S Action A answer) (world : World S Action A) (depth : Nat)
      (waiter : Waiter) (holds : reached program world) :
      (program.poll (.ofDispatch dispatch depth) waiter).Leads world reached := by
    rcases holds with ⟨noted, now, rfl, before⟩
    constructor
    intro left later answered
    exact before.polled audits answered
  have acts (program : Pending S Action A answer) (world later : World S Action A)
      (acts : env world later) (holds : reached program world) : reached program later := by
    rcases holds with ⟨noted, now, rfl, before⟩
    exact ⟨noted, now, rfl, before.meanwhile acts⟩
  exact driven.invariant polls acts ⟨[], work, rfl, .rest⟩

/-- If its program has come to a result, the work is over. -/
theorem of_driven_done (audits : Audits options dispatch auditor) {value : answer.Value Action}
    (driven : Driven dispatch env (work.program options, world) (.done value, later)) :
    ∃ noted, Shadows options dispatch auditor env (work, world) noted (.final value, later) := by
  rcases of_driven audits driven with ⟨noted, now, same, before⟩
  have finishes : now.Finishes options dispatch auditor fun _ _ => False :=
    (now.adequate audits 0).finishes
  rcases finishes.final value later same.symm with ⟨more, goes⟩
  refine ⟨_, before.poll 0 ⟨0, []⟩ ?_ goes⟩
  rw [← same]
  rfl

end Shadows

end Work

end EffectLoop
