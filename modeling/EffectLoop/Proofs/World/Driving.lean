import EffectLoop.Proofs.Program.Rules
import EffectLoop.Proofs.World.Mirroring
import EffectLoop.Proofs.World.Rounds

/-!
# Driving a computation

A poll of `first.bind after` polls `first`; if that is over then, what comes after it is polled in the
very world that it has left (`Pending.poll_bind`).

`Driven` says what a computation has become after any number of polls, with anything else happening in
between.
-/

namespace EffectLoop

variable {S ι : Type} {Action : ι → Type} {A α β σ : Type} {answer other child : Answer ι}

/-! ## Polls that go on with something else -/

theorem Prompt.poll_thenPending (engine : Engine S Action A) (waiter : Waiter)
    (first : Prompt S Action A α) (after : α → Pending S Action A answer) :
    (first.thenPending after).poll engine waiter =
      first.run engine >>= fun value => (after value).poll engine waiter := by
  induction first with
  | done value => simp only [thenPending, run, pure_bind]
  | call effect next ih => simp only [thenPending, run, Pending.poll, ih, LawfulMonad.bind_assoc]
  | send action keep next ih =>
      simp only [thenPending, run, Pending.poll, ih, LawfulMonad.bind_assoc]
  | schedule delay repeating task next ih =>
      simp only [thenPending, run, Pending.poll, ih, LawfulMonad.bind_assoc]
  | spawn task next ih => simp only [thenPending, run, Pending.poll, ih, LawfulMonad.bind_assoc]

/-- A result that satisfies the postcondition whatever the replies are does so in every run. -/
theorem Prompt.Within.run_leads {rules : Rules} {post : α → Prop} {program : Prompt S Action A α}
    (within : program.Within rules post) (engine : Engine S Action A) (world : World S Action A) :
    (program.run engine).Leads world fun value _ => post value := by
  induction program generalizing world with
  | done value => exact .pure within
  | call effect next ih =>
      exact (Run.Leads.self _ world).bind fun reply middle _ => ih reply (within.2 reply) middle
  | send action keep next ih => exact (Run.Leads.self _ world).bind fun _ middle _ => ih within middle
  | schedule delay repeating task next ih =>
      exact (Run.Leads.self _ world).bind fun handle middle _ => ih handle (within.2 handle) middle
  | spawn task next ih => exact (Run.Leads.self _ world).bind fun _ middle _ => ih within.2 middle

theorem Pending.poll_withNoted (engine : Engine S Action A) (waiter : Waiter) (found : Noted α)
    (next : α → Pending S Action A answer) (world : World S Action A) :
    (Pending.withNoted found next).poll engine waiter world =
      (next found.value).poll engine waiter (world.annotate found.notes) := by
  rw [Pending.withNoted, Pending.noting]
  induction found.notes generalizing world with
  | nil => rfl
  | cons value rest ih =>
      rw [List.foldr_cons, Pending.poll]
      exact ih (world.emit (.note value))

namespace Pending

variable {dispatch : Dispatcher S Action A} {depth inner : Nat} {waiter : Waiter}

/-- How a poll of `first.bind after` ends, if `polled` is the poll of `first`.  What comes after is
perhaps polled with a smaller allowance of nested dispatches, as `first` may have used some. -/
inductive BindLeft (dispatch : Dispatcher S Action A) (depth : Nat) (waiter : Waiter)
    (polled : Run S Action A (Pending S Action A answer))
    (after : answer.Value Action → Pending S Action A other) (world : World S Action A) :
    Pending S Action A other → World S Action A → Prop where
  /-- `first` is not over yet. -/
  | waits {rest later} : polled world = (.ok rest, later) → rest.result? = none →
      BindLeft dispatch depth waiter polled after world (rest.bind after) later
  /-- `first` is over, and what comes after was polled at once. -/
  | passes {value middle inner left later} : inner ≤ depth →
      polled world = (.ok (.done value), middle) →
      (after value).poll (.ofDispatch dispatch inner) waiter middle = (.ok left, later) →
      BindLeft dispatch depth waiter polled after world left later

/-- From every world, `whole` leads to what a poll of `first.bind after` leads to if `polled` is the poll
of `first`. -/
structure Splits (dispatch : Dispatcher S Action A) (depth : Nat) (waiter : Waiter)
    (after : answer.Value Action → Pending S Action A other)
    (whole : Run S Action A (Pending S Action A other))
    (polled : Run S Action A (Pending S Action A answer)) : Prop where
  leads : ∀ world, whole.Leads world (BindLeft dispatch depth waiter polled after world)

namespace Splits

variable {after : answer.Value Action → Pending S Action A other}

theorem passes (value : answer.Value Action) :
    Splits dispatch depth waiter after ((after value).poll (.ofDispatch dispatch depth) waiter)
      (pure (.done value)) := by
  constructor
  intro world
  constructor
  intro left later answered
  exact .passes le_rfl rfl answered

theorem stops {whole : Pending S Action A other} {rest : Pending S Action A answer}
    (notOver : rest.result? = none) (same : whole = rest.bind after) :
    Splits dispatch depth waiter after (pure whole) (pure rest) := by
  constructor
  intro world
  apply Run.Leads.pure
  rw [same]
  exact .waits rfl notOver

theorem throw (halt : Halt) :
    Splits dispatch depth waiter after (MonadExcept.throw halt) (MonadExcept.throw halt) :=
  ⟨fun _ => .throw halt⟩

/-- After the same beginning. -/
theorem bind (first : Run S Action A α) {whole : α → Run S Action A (Pending S Action A other)}
    {polled : α → Run S Action A (Pending S Action A answer)}
    (second : ∀ value, Splits dispatch depth waiter after (whole value) (polled value)) :
    Splits dispatch depth waiter after (first >>= whole) (first >>= polled) := by
  constructor
  intro world
  apply (Run.Leads.self first world).bind
  intro value middle answered
  apply ((second value).leads middle).mono
  intro left later ended
  have goesOn : (first >>= polled) world = polled value middle := Run.bind_of_ok answered
  cases ended with
  | waits stopped notOver => exact .waits (goesOn.trans stopped) notOver
  | passes within final next => exact .passes within (goesOn.trans final) next

/-- With a larger allowance of nested dispatches. -/
theorem mono {whole : Run S Action A (Pending S Action A other)}
    {polled : Run S Action A (Pending S Action A answer)} (within : inner ≤ depth)
    (splits : Splits dispatch inner waiter after whole polled) :
    Splits dispatch depth waiter after whole polled := by
  constructor
  intro world
  apply (splits.leads world).mono
  intro left later ended
  cases ended with
  | waits stopped notOver => exact .waits stopped notOver
  | passes smaller final next => exact .passes (smaller.trans within) final next

end Splits

/-- A poll of `first.bind after` splits, if polls by the engine do. -/
theorem poll_bind_of_engine
    (deeper : ∀ {answer : Answer ι} (first : Pending S Action A answer)
      (after : answer.Value Action → Pending S Action A other),
      Splits dispatch depth waiter after
        ((Engine.ofDispatch dispatch depth).poll waiter (first.bind after))
        ((Engine.ofDispatch dispatch depth).poll waiter first))
    (first : Pending S Action A answer) (after : answer.Value Action → Pending S Action A other) :
    Splits dispatch depth waiter after ((first.bind after).poll (.ofDispatch dispatch depth) waiter)
      (first.poll (.ofDispatch dispatch depth) waiter) := by
  induction first with
  | done value => exact .passes value
  | call effect next ih => exact .bind _ fun reply => ih reply after
  | send action keep next ih => exact .bind _ fun _ => ih after
  | schedule delay repeating task next _ ih => exact .bind _ fun handle => ih handle after
  | spawn task next _ ih => exact .bind _ fun _ => ih after
  | wait gate next ih =>
      apply Splits.bind get
      intro world
      split
      · exact ih after
      · exact .bind _ fun _ => .stops rfl rfl
  | resumeAt moment next ih =>
      apply Splits.bind get
      intro world
      split
      · split
        · exact ih after
        · exact .stops rfl rfl
      · split
        · exact ih after
        · exact .bind _ fun _ => .stops rfl rfl
  | sendAll actions next ih =>
      rw [Pending.bind, poll, poll]
      apply Splits.bind
      intro caused
      apply Splits.bind
      intro found
      dsimp only
      split
      · exact ih _ after
      · exact .stops rfl rfl
  | settling ticket caused next _ ih =>
      rw [Pending.bind, poll, poll]
      apply Splits.bind
      intro found
      dsimp only
      split
      · exact ih _ after
      · exact .stops rfl rfl
  | join ticket children next _ ih =>
      rw [Pending.bind, poll, poll]
      apply Splits.bind
      intro found
      dsimp only
      split
      · exact ih _ after
      · exact .stops rfl rfl
  | advanceTo target ticket driven next _ ih =>
      rw [Pending.bind, poll, poll]
      apply Splits.bind get
      intro world
      split
      · apply Splits.bind
        intro found
        dsimp only
        split
        · exact .stops rfl rfl
        · apply Splits.bind
          intro due
          cases due with
          | none => exact ih after
          | some driven => exact deeper (.advanceTo target none driven.get next) after
      · split
        · exact ih after
        · exact .bind _ fun _ => .stops rfl rfl
  | interval handle period due task running _ _ =>
      -- An interval never goes on with anything else, so it is the same in both places.
      rw [Pending.bind, poll, poll]
      apply Splits.bind
      intro found
      dsimp only
      split
      · exact .stops rfl rfl
      · apply Splits.bind get
        intro world
        split
        next clock keeper => exact .stops rfl rfl
        next clock keeper =>
          have again := deeper (.interval handle period (clock.nextDue period due) task
            fun _ : Fin 1 => task) after
          split
          · exact .bind _ fun _ => again
          · exact .bind _ fun _ => .stops rfl rfl

theorem result?_bind {first : Pending S Action A answer} (notOver : first.result? = none)
    (after : answer.Value Action → Pending S Action A other) : (first.bind after).result? = none := by
  cases first with
  | done => cases notOver
  | _ => rfl

theorem poll_bind (dispatch : Dispatcher S Action A) (depth : Nat) (waiter : Waiter)
    (first : Pending S Action A answer) (after : answer.Value Action → Pending S Action A other) :
    Splits dispatch depth waiter after ((first.bind after).poll (.ofDispatch dispatch depth) waiter)
      (first.poll (.ofDispatch dispatch depth) waiter) := by
  induction depth generalizing answer first with
  | zero => exact poll_bind_of_engine (fun _ _ => .throw .exhausted) first after
  | succ depth ih =>
      apply poll_bind_of_engine
      intro answer first after
      exact .mono (Nat.le_succ depth) (ih first after)

end Pending

/-! ## Polls again and again -/

/-- What becomes of a computation: it is polled, by whomever and with whatever allowance of nested
dispatches, or the environment acts. -/
inductive Polls (dispatch : Dispatcher S Action A) (env : World S Action A → World S Action A → Prop) :
    Pending S Action A answer × World S Action A → Pending S Action A answer × World S Action A →
      Prop where
  | poll {program left world later} (depth : Nat) (waiter : Waiter) :
      program.poll (.ofDispatch dispatch depth) waiter world = (.ok left, later) →
      Polls dispatch env (program, world) (left, later)
  | meanwhile {world later} (program : Pending S Action A answer) : env world later →
      Polls dispatch env (program, world) (program, later)

/-- What has become of a computation. -/
abbrev Driven (dispatch : Dispatcher S Action A) (env : World S Action A → World S Action A → Prop) :
    Pending S Action A answer × World S Action A → Pending S Action A answer × World S Action A →
      Prop :=
  Relation.ReflTransGen (Polls dispatch env)

/-- What has to do with the computation holds as long as it is driven. -/
theorem Driven.invariant {dispatch : Dispatcher S Action A}
    {env : World S Action A → World S Action A → Prop}
    {good : Pending S Action A answer → World S Action A → Prop}
    (polled : ∀ program world depth waiter, good program world →
      (program.poll (.ofDispatch dispatch depth) waiter).Leads world good)
    (meanwhile : ∀ program world later, env world later → good program world → good program later)
    {program left : Pending S Action A answer} {world later : World S Action A}
    (driven : Driven dispatch env (program, world) (left, later)) (start : good program world) :
    good left later := by
  generalize first : (program, world) = before at driven
  generalize last : (left, later) = after at driven
  induction driven generalizing left later with
  | refl =>
      cases first
      cases last
      exact start
  | tail _ polls ih =>
      cases polls with
      | poll depth waiter answered =>
          cases last
          exact (polled _ _ depth waiter (ih rfl)).holds _ _ answered
      | meanwhile program acts =>
          cases last
          exact meanwhile _ _ _ acts (ih rfl)

/-! ### What a computation answers in the end -/

/-- However the computation is driven, in whatever worlds, what it answers in the end is so. -/
def Pending.Always (dispatch : Dispatcher S Action A) (post : answer.Value Action → Prop)
    (program : Pending S Action A answer) : Prop :=
  ∀ world value later, Driven dispatch (fun _ _ => True) (program, world) (.done value, later) →
    post value

namespace Pending.Always

variable {dispatch : Dispatcher S Action A} {program left : Pending S Action A answer}
variable {post : answer.Value Action → Prop} {last : other.Value Action → Prop}

/-- What holds of the computation holds of what a poll leaves. -/
theorem polled (always : program.Always dispatch post) {depth : Nat} {waiter : Waiter}
    {world later : World S Action A}
    (answered : program.poll (.ofDispatch dispatch depth) waiter world = (.ok left, later)) :
    left.Always dispatch post := by
  intro start value now driven
  have first : Driven dispatch (fun _ _ => True) (program, world) (left, later) :=
    .single (.poll depth waiter answered)
  exact always world value now ((first.tail (.meanwhile left trivial)).trans driven)

theorem polls (always : program.Always dispatch post) (depth : Nat) (waiter : Waiter)
    (world : World S Action A) :
    (program.poll (.ofDispatch dispatch depth) waiter).Leads world
      fun left _ => left.Always dispatch post :=
  ⟨fun _ _ answered => always.polled answered⟩

/-- What answers, in whatever world, is over. -/
theorem holds {value : answer.Value Action}
    (always : (done value : Pending S Action A answer).Always dispatch post)
    (world : World S Action A) : post value :=
  always world value world .refl

/-- What every poll keeps holds in the end, if it holds at first. -/
theorem of_kept (good : Pending S Action A answer → Prop) (start : good program)
    (kept : ∀ rest depth waiter world, good rest →
      (rest.poll (.ofDispatch dispatch depth) waiter).Leads world fun left _ => good left)
    (ends : ∀ value (_ : World S Action A), good (.done value) → post value) :
    program.Always dispatch post := by
  intro world value later driven
  generalize last : Pending.done value = left at driven
  have holds : good left := by
    apply Driven.invariant _ _ driven start
    · intro rest world depth waiter
      exact kept rest depth waiter world
    · exact fun _ _ _ _ => id
  rw [← last] at holds
  exact ends value later holds

theorem done {value : answer.Value Action} (holds : post value) :
    (done value : Pending S Action A answer).Always dispatch post := by
  refine of_kept (fun rest => rest = .done value) rfl ?_ ?_
  · intro rest depth waiter world same
    rw [same]
    exact .pure rfl
  · intro other _ same
    cases same
    exact holds

/-- What is over at the first poll is over as that says. -/
theorem of_over (ends : ∀ depth waiter world, (program.poll (.ofDispatch dispatch depth) waiter).Leads
    world fun left _ => ∃ value, left = .done value ∧ post value) : program.Always dispatch post := by
  refine of_kept (fun rest => rest = program ∨ ∃ value, rest = .done value ∧ post value) (.inl rfl)
    ?_ ?_
  · intro rest depth waiter world stage
    cases stage with
    | inl first =>
        rw [first]
        exact (ends depth waiter world).mono fun _ _ => .inr
    | inr final =>
        obtain ⟨value, rfl, holds⟩ := final
        exact .pure (.inr ⟨value, rfl, holds⟩)
  · intro value world stage
    cases stage with
    | inl first =>
        have polled : program.poll (.ofDispatch dispatch 0) ⟨0, []⟩ world =
            (.ok (.done value), world) := by
          rw [← first]
          rfl
        obtain ⟨_, ⟨⟩, holds⟩ := (ends 0 ⟨0, []⟩ world).holds _ _ polled
        exact holds
    | inr final =>
        obtain ⟨_, ⟨⟩, holds⟩ := final
        exact holds

/-- What comes after a computation is bound by what that answers. -/
theorem bind {after : answer.Value Action → Pending S Action A other}
    (always : program.Always dispatch post)
    (next : ∀ value, post value → (after value).Always dispatch last) :
    (program.bind after).Always dispatch last := by
  -- The computation is still under way, or what comes after it is.
  refine of_kept (fun whole => (∃ rest : Pending S Action A answer, rest.Always dispatch post ∧
    whole = rest.bind after) ∨ whole.Always dispatch last) (.inl ⟨program, always, rfl⟩) ?_ ?_
  · intro whole depth waiter world stage
    cases stage with
    | inl first =>
        obtain ⟨rest, always, rfl⟩ := first
        apply ((Pending.poll_bind dispatch depth waiter rest after).leads world).mono
        intro left later ended
        cases ended with
        | waits stopped _ => exact .inl ⟨_, always.polled stopped, rfl⟩
        | passes _ final answered =>
            exact .inr ((next _ ((always.polled final).holds world)).polled answered)
    | inr always => exact (always.polls depth waiter world).mono fun _ _ => .inr
  · intro value world stage
    cases stage with
    | inl first =>
        obtain ⟨rest, always, same⟩ := first
        cases found : rest.result? with
        | none =>
            have notOver := Pending.result?_bind found after
            rw [← same] at notOver
            cases notOver
        | some value =>
            rw [Pending.result?_eq_some_iff.1 found] at always same
            have final := next value (always.holds world)
            rw [Pending.done_bind] at same
            rw [← same] at final
            exact final.holds world
    | inr always => exact always.holds world

/-- The same for polls by an engine. -/
theorem engine_polls (always : program.Always dispatch post) (depth : Nat) (waiter : Waiter)
    (world : World S Action A) :
    ((Engine.ofDispatch dispatch depth).poll waiter program).Leads world
      fun left _ => left.Always dispatch post := by
  cases depth with
  | zero => exact .throw .exhausted
  | succ depth => exact always.polls depth waiter world

/-- What comes after a join is bound by what its members answer. -/
theorem join {count : Nat} {children : Fin count → Pending S Action A child}
    {posts : Fin count → child.Value Action → Prop}
    {after : (Fin count → child.Value Action) → Pending S Action A other}
    (each : ∀ index, (children index).Always dispatch (posts index))
    (next : ∀ results, (∀ index, posts index (results index)) → (after results).Always dispatch last)
    (ticket : Option Nat) : (Pending.join ticket children after).Always dispatch last := by
  let good (now : Fin count → Pending S Action A child) (_ : World S Action A) : Prop :=
    ∀ index, (now index).Always dispatch (posts index)
  have booked (now : Fin count → Pending S Action A child) (before later : World S Action A)
      (_ : World.Booked before later) (holds : good now before) : good now later := holds
  have replaced {now : Fin count → Pending S Action A child} {index : Fin count}
      (all : ∀ index, (now index).Always dispatch (posts index))
      (left : Pending S Action A child) (later : World S Action A)
      (one : left.Always dispatch (posts index)) : good (Function.update now index left) later :=
    (Function.forall_update_iff now fun index program => program.Always dispatch (posts index)).2
      ⟨one, fun other _ => all other⟩
  -- The members are still under way, or what comes after them is.
  refine of_kept (fun whole => (∃ ticket children, (∀ index, Always dispatch (posts index)
    (children index)) ∧ whole = .join ticket children after) ∨ whole.Always dispatch last)
    (.inl ⟨ticket, children, each, rfl⟩) ?_ ?_
  · intro whole depth waiter world stage
    cases stage with
    | inl first =>
        obtain ⟨ticket, children, each, rfl⟩ := first
        have start : good children world := each
        rw [poll]
        apply (Engine.pollJoin_leads booked _ waiter ticket _ start).bind
        · rintro ⟨ticket, lefts⟩ later all
          dsimp only
          split
          next results complete =>
            have answers (index : Fin count) : posts index (results.get index) := by
              have always := all index
              rw [done_of_results? complete index] at always
              exact always.holds world
            exact ((next _ answers).polls depth waiter later).mono fun _ _ => .inr
          next => exact .pure (.inl ⟨ticket, lefts.get, all, rfl⟩)
        · intro now world index waiter all
          exact ((all index).engine_polls depth waiter world).mono (replaced all)
        · intro now world index all same
          rw [← same]
          exact ((all index).polls depth waiter world).mono (replaced all)
    | inr always => exact (always.polls depth waiter world).mono fun _ _ => .inr
  · intro value world stage
    cases stage with
    | inl first =>
        obtain ⟨_, _, _, same⟩ := first
        cases same
    | inr always => exact always.holds world

end Pending.Always

/-- The world changes while a computation stands still: the environment acts, or the books of large
joins are kept. -/
inductive World.Aside (env : World S Action A → World S Action A → Prop) :
    World S Action A → World S Action A → Prop where
  | acts {world later} : env world later → Aside env world later
  | books {world later} : Booking world later → Aside env world later

/-- Something takes its steps, each of which may note something, while the world changes in between. -/
inductive Runs (env : World S Action A → World S Action A → Prop)
    (step : σ × World S Action A → List β → σ × World S Action A → Prop) :
    σ × World S Action A → List β → σ × World S Action A → Prop where
  | rest (now) : Runs env step now [] now
  | step {first middle last noted more} : Runs env step first noted middle → step middle more last →
      Runs env step first (noted ++ more) last
  | aside {first noted state world later} : Runs env step first noted (state, world) →
      World.Aside env world later → Runs env step first noted (state, later)

namespace Runs

variable {env : World S Action A → World S Action A → Prop}
variable {step : σ × World S Action A → List β → σ × World S Action A → Prop}
variable {first middle last : σ × World S Action A} {noted more : List β}

theorem single (taken : step first noted last) : Runs env step first noted last :=
  (Runs.rest first).step taken

theorem trans (before : Runs env step first noted middle) (after : Runs env step middle more last) :
    Runs env step first (noted ++ more) last := by
  induction after with
  | rest =>
      rw [List.append_nil]
      exact before
  | step _ taken ih =>
      rw [← List.append_assoc]
      exact ih.step taken
  | aside _ changes ih => exact ih.aside changes

theorem booked {state : σ} {world later : World S Action A}
    (before : Runs env step first noted (state, world)) (books : World.Booked world later) :
    Runs env step first noted (state, later) := by
  induction books with
  | refl => exact before
  | tail _ booking ih => exact ih.aside (.books booking)

theorem asides {state : σ} {world later : World S Action A}
    (before : Runs env step first noted (state, world)) (changes : Relation.ReflTransGen env world later) :
    Runs env step first noted (state, later) := by
  induction changes with
  | refl => exact before
  | tail _ acts ih => exact ih.aside (.acts acts)

/-- If every step of it is a step of something larger, it is a part of that. -/
theorem lift {τ : Type} {whole : τ × World S Action A → List β → τ × World S Action A → Prop}
    (frame : σ → τ) (steps : ∀ now world noted left later, step (now, world) noted (left, later) →
      whole (frame now, world) noted (frame left, later))
    (runs : Runs env step first noted last) :
    Runs env whole (frame first.1, first.2) noted (frame last.1, last.2) := by
  induction runs with
  | rest => exact .rest _
  | step _ taken ih => exact ih.step (steps _ _ _ _ _ taken)
  | aside _ changes ih => exact ih.aside changes

end Runs

end EffectLoop
