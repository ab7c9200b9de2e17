import EffectLoop.Proofs.Command.Accounts
import EffectLoop.Proofs.Command.Conduct
import EffectLoop.Proofs.Program.Resolution
import EffectLoop.Proofs.World.Hosting

/-!
# Agreement of execution and simulation

A command can be executed, and it can be simulated for assumed outcomes.  If the outcome assumed for each
RUN is the one that this RUN has attested, the two agree.

* If all lists are batched, nothing is sent, and the actions produced are those simulated, in order.
* Whatever the flags of the lists, what is sent and what is produced together are what is simulated.

Both hold for every history, that is for all replies of the world and every order in which pending
outputs complete.  Every history has a record, in which each RUN attests its outcome once, and every run on
a host has a history.
-/

namespace EffectLoop

variable {S ι : Type} {Action : ι → Type} {alphabet : ι}

/-! ## Runs on a host -/

/-- Every run on the host that starts in a world of the kind has a history, in the call and in what
follows.  In this history all that is waited for comes to a good end. -/
def Start.Traced (start : Start S Action alphabet) (host : Host S Action alphabet)
    (kind : World S Action (Action alphabet) → Prop) : Prop :=
  ∀ depth, Run.Ensures kind
    (fun verdict => ∃ opening, start.Ends opening verdict ∧ Accepted opening ∧
      ∀ follow left, verdict = .ok (some follow) → host.Polled kind follow left →
        ∃ journal, follow.Does journal left ∧ Accepted journal)
    (start.run (host.engine depth))

theorem Host.modest_le_terms (host : Host S Action alphabet)
    (kind : World S Action (Action alphabet) → Prop) (sends endless : Prop) :
    Terms.Le (.modest sends endless) (host.terms kind sends endless) :=
  ⟨id, id, fun _ => id, fun _ => False.elim⟩

theorem Start.Proper.traced {sends endless : Prop} {start : Start S Action alphabet}
    {host : Host S Action alphabet} {kind : World S Action (Action alphabet) → Prop}
    (proper : start.Proper sends endless) (lasting : World.Lasting kind)
    (accepts : sends → host.Accepts kind) : start.Traced host kind := by
  intro depth
  apply (Prompt.run_ensures lasting.tolerant (host.engine_stays lasting depth) start).mono
  rintro verdict ⟨opening, ends⟩
  rcases Prompt.Meets.of_ends proper ends with ⟨holds, _, accepted⟩
  refine ⟨opening, ends, accepted, ?_⟩
  rintro follow left rfl polled
  have meets := Pending.Meets.mono holds (host.modest_le_terms kind sends endless) fun _ => id
  exact (polled.advances lasting accepts meets).does

/-- The conduct of the attested command is that of the command. -/
theorem Cmd.proper_attested {options : Options} {cmd : Cmd S Action alphabet} {sends endless : Prop}
    (proper : Start.Proper sends endless (cmd.execute options)) :
    Start.Proper sends endless ((cmd.attested id).execute options) := by
  rw [← cmd.plain_execute_attested options id] at proper
  have meets := Prompt.Meets.of_edit proper
  apply meets.mono ⟨id, id, fun _ => id, fun _ => id⟩
  intro verdict holds
  rcases verdict with cause | _ | follow
  · exact holds
  · exact trivial
  · exact Pending.Meets.of_edit holds

/-! ## Batched commands -/

/-- A command that may not send anything sends nothing in any of its histories. -/
theorem Start.Proper.of_yields {endless : Prop} {start : Start S Action alphabet}
    {journal : List (Act S (Action alphabet))} {result : Produced Action alphabet}
    (proper : start.Proper False endless) (yields : Start.Yields start journal result) :
    sends journal = [] ∧ Accepted journal := by
  cases yields with
  | failed ends =>
      rcases Prompt.Meets.of_ends proper ends with ⟨_, silent, accepted⟩
      exact ⟨silent id, accepted⟩
  | nothing ends =>
      rcases Prompt.Meets.of_ends proper ends with ⟨_, silent, accepted⟩
      exact ⟨silent id, accepted⟩
  | pending ends completes =>
      rcases Prompt.Meets.of_ends proper ends with ⟨follow, silent, accepted⟩
      rcases Pending.Meets.of_does follow id completes with ⟨_, laterSilent, laterAccepted⟩
      constructor
      · rw [sends_append, silent id, laterSilent, List.nil_append]
      · exact (accepted_append _ _).2 ⟨accepted, laterAccepted⟩

/-- What follows a command that may neither send nor be endless resolves. -/
theorem Start.Proper.resolves [Nonempty S] {start : Start S Action alphabet}
    {opening : List (Act S (Action alphabet))} {verdict : Verdict S Action (Action alphabet) alphabet}
    (proper : start.Proper False False) (ends : start.Ends opening verdict) :
    verdict = .ok none ∨ ∃ follow, verdict = .ok (some follow) ∧ follow.Resolves := by
  have holds := (Prompt.Meets.of_ends proper ends).1
  rcases verdict with cause | _ | follow
  · exact holds.elim
  · exact .inl rfl
  · exact .inr ⟨follow, rfl, Pending.Meets.resolves holds id id ⟨.ok (), rfl⟩⟩

/-- Execution and simulation agree on commands all of whose lists are batched.  In every history nothing
is sent, and in every record of it each RUN attests its outcome once and the actions produced are those
that the simulation of these outcomes gives.  The call comes to an end, without an error; what follows
resolves; and neither of them, nor work that is handed over, has a branch on which anything is sent. -/
theorem Cmd.agrees_with_simulation_of_batched [Nonempty S] (options : Options)
    {cmd : Cmd S Action alphabet} (modest : cmd.Modest False fun batch => batch = true) :
    (∀ journal result, Start.Yields (cmd.execute options) journal result →
      sends journal = [] ∧ (∃ record, cmd.Recorded options record journal result) ∧
        ∀ record, cmd.Recorded options record journal result →
          ((attestations record).map Prod.fst).Perm cmd.sites ∧
            result = .ok (cmd.simulate (some (cmd.actual record))).value.toList) ∧
    (∃ opening verdict, (cmd.execute options).Ends opening verdict) ∧
    (∀ opening verdict, (cmd.execute options).Ends opening verdict →
      verdict = .ok Option.none ∨ ∃ follow, verdict = .ok (some follow) ∧ follow.Resolves) ∧
    Start.Proper False False (cmd.execute options) ∧
    ∀ host : Host S Action alphabet, Start.Traced (cmd.execute options) host (fun _ => True) ∧
      Start.Traced ((cmd.attested id).execute options) host fun _ => True := by
  have proper : Start.Proper False False (cmd.execute options) :=
    modest.proper fun unbatched => Bool.false_ne_true unbatched
  refine ⟨?_, Prompt.exists_ends _, ?_, proper, ?_⟩
  · intro journal result yields
    rcases proper.of_yields yields with ⟨silent, accepted⟩
    refine ⟨silent, yields.exists_records, ?_⟩
    intro record records
    have recordAccepted : Accepted record := by
      rw [← records.plain] at accepted
      exact (accepted_edit _ _).1 accepted
    rcases Cmd.inBalance_of_yields modest id records.yields recordAccepted with
      ⟨produced, leaf, rfl, accounts⟩
    have all := accounts.balanced.batch fun _ => id
    rw [← accounts.outcomes_eq_actual, ← all.2]
    exact ⟨accounts.once, rfl⟩
  · intro opening verdict ends
    exact proper.resolves ends
  · intro host
    exact ⟨proper.traced World.lasting_any False.elim,
      (proper_attested proper).traced World.lasting_any False.elim⟩

/-- Siblings complete together, in any interleaving. -/
theorem FollowUp.completes_all {A : Type} (found : List (FollowUp S Action A alphabet))
    (parts : Fin found.length → List (Act S A))
    (results : Fin found.length → Produced Action alphabet) {journal : List (Act S A)}
    (each : ∀ index, (found.get index).Completes (parts index) (results index))
    (interleaves : Interleaves parts journal) :
    Pending.Completes (all found) journal (collect results) := by
  have completes : Pending.Completes (all found) (journal ++ []) (collect results) :=
    .join each interleaves (.rest _)
  rw [List.append_nil] at completes
  exact completes

/-- A RUN that waits at a gate and comes to a number, which is its action. -/
def Cmd.fetching (gate : String) (number : Nat) : Cmd Nat (fun _ : Unit => Nat) () :=
  .run
    { func := fun _ => .done (.deferred (.wait gate (.done (.ok (.ofNat number)))))
      args := []
      onSuccess := some fun
        | .number (.int found) => pure found.toNat
        | _ => pure 0
      onFail := Option.none
      forceSync := false }

theorem Cmd.modest_fetching (endless : Prop) (batches : Bool → Prop) (gate : String) (number : Nat) :
    (fetching gate number).Modest endless batches :=
  (rfl : (Simulation.ofOutcome? (.ok (.ofNat number))).isSome)

/-- A fetching RUN and then an action, with their numbers raised. -/
def Cmd.raised (batch : Bool) : Cmd Nat (fun _ : Unit => Nat) () :=
  let inner : Cmd Nat (fun _ : Unit => Nat) () :=
    .ofList [fetching "right" 3, .action (4 : Nat)] true batch
  .map inner (fun _ (number : Nat) => pure (number + 10)) []

theorem Cmd.modest_raised {endless : Prop} {batches : Bool → Prop} {batch : Bool}
    (flag : batches batch) : (raised batch).Modest endless batches := by
  refine ⟨flag, ?_⟩
  intro index
  match index with
  | 0 => exact modest_fetching ..
  | 1 => exact trivial

/-- The pending outputs of this batched command may complete in the other order. -/
def Cmd.crossing : Cmd Nat (fun _ : Unit => Nat) () :=
  .ofList [fetching "left" 1, .action (2 : Nat), raised true] false true

theorem Cmd.modest_crossing : crossing.Modest False fun batch => batch = true := by
  refine ⟨rfl, ?_⟩
  intro index
  match index with
  | 0 => exact modest_fetching ..
  | 1 => exact trivial
  | 2 => exact modest_raised rfl

/-- The outcome is attested. -/
def Act.attesting (site : Site) (number : Nat) : Act Nat Nat :=
  .did (.performed (.note (site.attestation (.ofNat number) true)) ())

theorem Pending.Does.attesting {answer : Answer Unit} {journal : List (Act Nat Nat)}
    {next left : Pending Nat (fun _ : Unit => Nat) Nat answer} {site : Site} {number : Nat}
    (does : next.Does journal left) :
    (Pending.call (.note (site.attestation (.ofNat number) true)) fun _ => next).Does
      (.attesting site number :: journal) left :=
  @Does.call _ _ _ _ _ (.note _) (fun _ => next) _ _ () does

/-- A record of the command, in which the RUN on the right is done first. -/
def Cmd.crossingRecord : List (Act Nat Nat) :=
  [.did (.passed "right"), .attesting [⟨false, 2⟩, ⟨true, 0⟩] 3, .did (.passed "left"),
    .attesting [⟨false, 0⟩] 1]

theorem Cmd.crossing_records : crossing.Recorded .default crossingRecord
    [.did (.passed "right"), .did (.passed "left")] (.ok [1, 2, 13, 14]) := by
  refine ⟨?_, rfl⟩
  let journals : Fin 3 → List (Act Nat Nat) :=
    ![[.did (.passed "left"), .attesting [⟨false, 0⟩] 1], [],
      [.did (.passed "right"), .attesting [⟨false, 2⟩, ⟨true, 0⟩] 3]]
  let results : Fin 3 → Produced (fun _ : Unit => Nat) () := ![.ok [1], .ok [2], .ok [13, 14]]
  have opened : ((crossing.attested id).execute .default).Ends [] (.ok (some (.all [_, _, _]))) :=
    .done _
  apply Start.Yields.pending opened
  apply FollowUp.completes_all [_, _, _] journals results
  · intro index
    match index with
    | 0 => exact .wait (.attesting (.rest _))
    | 1 => exact .rest _
    | 2 => exact .wait (.attesting (.rest _))
  · refine ⟨[(2, .did (.passed "right")), (2, .attesting [⟨false, 2⟩, ⟨true, 0⟩] 3),
      (0, .did (.passed "left")), (0, .attesting [⟨false, 0⟩] 1)], rfl, ?_⟩
    intro index
    match index with
    | 0 => rfl
    | 1 => rfl
    | 2 => rfl

theorem Cmd.crossing_simulates :
    (crossing.Modest False fun batch => batch = true) ∧
      crossing.Recorded .default crossingRecord [.did (.passed "right"), .did (.passed "left")]
        (.ok [1, 2, 13, 14]) ∧
      [1, 2, 13, 14] = (crossing.simulate (some (crossing.actual crossingRecord))).value.toList := by
  refine ⟨modest_crossing, crossing_records, ?_⟩
  have agrees := (agrees_with_simulation_of_batched .default modest_crossing).1
  have simulated := (agrees _ _ crossing_records.history).2.2 _ crossing_records
  exact Except.ok.inj simulated.2

/-! ## All commands -/

/-- No action is lost, and none is there twice.  In every history in which all that is sent comes to a
good end, and in every record of it, each RUN attests its outcome once, and what is sent and what is
produced together are the actions that the simulation of these outcomes gives.  Work that is handed over
has no branch on which anything is sent.  A run on a host that accepts has such a history. -/
theorem Cmd.sends_append_produced_perm_simulation (options : Options)
    {cmd : Cmd S Action alphabet} (modest : cmd.Modest True fun _ => True) :
    (∀ journal result, Start.Yields (cmd.execute options) journal result → Accepted journal →
      (∃ record, cmd.Recorded options record journal result) ∧
        ∀ record, cmd.Recorded options record journal result →
          ((attestations record).map Prod.fst).Perm cmd.sites ∧
            ∃ produced, result = .ok produced ∧ (sends journal ++ produced).Perm
              (cmd.simulate (some (cmd.actual record))).value.toList) ∧
    Start.Proper True True (cmd.execute options) ∧
    ∀ host : Host S Action alphabet, (host.Accepts fun world => world.isOpen = true) →
      Start.Traced (cmd.execute options) host (fun world => world.isOpen = true) ∧
        Start.Traced ((cmd.attested id).execute options) host fun world => world.isOpen = true := by
  have proper : Start.Proper True True (cmd.execute options) := modest.proper fun _ => trivial
  refine ⟨?_, proper, ?_⟩
  · intro journal result yields accepted
    refine ⟨yields.exists_records, ?_⟩
    rintro record ⟨recorded, rfl⟩
    have recordAccepted : Accepted record := (accepted_edit _ _).1 accepted
    rcases Cmd.inBalance_of_yields modest id recorded recordAccepted with
      ⟨produced, leaf, rfl, accounts⟩
    rw [← accounts.outcomes_eq_actual, sends_edit]
    exact ⟨accounts.once, produced, rfl, accounts.balanced.perm⟩
  · intro host accepts
    exact ⟨proper.traced World.lasting_open fun _ => accepts,
      (proper_attested proper).traced World.lasting_open fun _ => accepts⟩

/-- Some actions of this command are sent, and one is produced. -/
def Cmd.mixture : Cmd Nat (fun _ : Unit => Nat) () :=
  .ofList [raised false, fetching "left" 1] false true

/-- A journal of the mixture, in which the RUN that is not in the list is done before the second
action of the list is sent. -/
def Cmd.mixtureJournal : List (Act Nat Nat) :=
  [.did (.passed "right"), .sent (pure 13), .answered (.ok ()), .did (.passed "left"),
    .sent (pure 14), .answered (.ok ())]

/-- The record of this journal. -/
def Cmd.mixtureRecord : List (Act Nat Nat) :=
  [.did (.passed "right"), .attesting [⟨false, 0⟩, ⟨true, 0⟩] 3, .sent (pure 13), .answered (.ok ()),
    .did (.passed "left"), .attesting [⟨false, 1⟩] 1, .sent (pure 14), .answered (.ok ())]

theorem Cmd.modest_mixture : mixture.Modest True fun _ => True := by
  refine ⟨trivial, ?_⟩
  intro index
  match index with
  | 0 => exact modest_raised trivial
  | 1 => exact modest_fetching ..

theorem Cmd.mixture_records : mixture.Recorded .default mixtureRecord mixtureJournal (.ok [1]) := by
  refine ⟨?_, rfl⟩
  let raising : List (Act Nat Nat) :=
    [.did (.passed "right"), .attesting [⟨false, 0⟩, ⟨true, 0⟩] 3, .sent (pure 13), .answered (.ok ()),
      .sent (pure 14), .answered (.ok ())]
  let results : Fin 2 → Produced (fun _ : Unit => Nat) () := ![.ok [], .ok [1]]
  have opened : ((mixture.attested id).execute .default).Ends [] (.ok (some (.all [_, _]))) := .done _
  apply Start.Yields.pending opened
  apply FollowUp.completes_all [_, _]
    ![raising, [.did (.passed "left"), .attesting [⟨false, 1⟩] 1]] results
  · intro index
    match index with
    | 0 => exact .wait (.attesting (.sendAll (.ok ()) (.sendAll (.ok ()) (.rest _))))
    | 1 => exact .wait (.attesting (.rest _))
  · refine ⟨[(0, .did (.passed "right")), (0, .attesting [⟨false, 0⟩, ⟨true, 0⟩] 3),
      (0, .sent (pure 13)), (0, .answered (.ok ())), (1, .did (.passed "left")),
      (1, .attesting [⟨false, 1⟩] 1), (0, .sent (pure 14)), (0, .answered (.ok ()))], rfl, ?_⟩
    intro index
    match index with
    | 0 => rfl
    | 1 => rfl

theorem Cmd.mixture_perm_simulation :
    (mixture.Modest True fun _ => True) ∧
      mixture.Recorded .default mixtureRecord mixtureJournal (.ok [1]) ∧
      ([13, 14] ++ [1]).Perm (mixture.simulate (some (mixture.actual mixtureRecord))).value.toList ∧
      Start.Traced (mixture.execute .default) (.recording .default fun _ => ⟨Option.none, Option.none⟩)
        fun world => world.isOpen = true := by
  have accepted : Accepted mixtureJournal := by simp [mixtureJournal]
  rcases sends_append_produced_perm_simulation .default modest_mixture with ⟨agrees, -, traced⟩
  refine ⟨modest_mixture, mixture_records, ?_, ?_⟩
  · rcases (agrees _ _ mixture_records.history accepted).2 _ mixture_records with
      ⟨-, produced, same, perm⟩
    cases same
    exact perm
  · exact (traced _ (Host.accepts_recording World.lasting_open .default fun _ => rfl)).1

end EffectLoop
