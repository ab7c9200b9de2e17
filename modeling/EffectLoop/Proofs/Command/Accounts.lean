import EffectLoop.Proofs.Command.Attested
import EffectLoop.Proofs.Command.Ledger
import EffectLoop.Proofs.Command.Sites

/-!
# Accounts of a command

The account of an attested command says what its RUNs came to, each at its own site, and what the command
sent and produced.  The account of a modest command is in balance: every RUN has attested its outcome
exactly once, and what was sent and produced is what the simulation of these outcomes gives.
-/

namespace EffectLoop

variable {S ι : Type} {Action : ι → Type} {A : Type} {alphabet child : ι}

/-! ## Records of histories -/

/-- The record of a history is the same history with the outcomes attested, each under the site of its
RUN. -/
structure Cmd.Recorded (options : Options) (cmd : Cmd S Action alphabet)
    (record journal : List (Act S (Action alphabet))) (result : Produced Action alphabet) : Prop where
  yields : Start.Yields ((cmd.attested id).execute options) record result
  plain : Edit.plain.journal record = journal

/-- The simulation tree in the shape of the command that holds the outcomes which its RUNs have attested,
each at its own site. -/
def Cmd.actual (cmd : Cmd S Action alphabet) (record : List (Act S (Action alphabet))) : Simulation :=
  cmd.outcomes (Simulation.attestedAt (attestations record))

section Records

variable {options : Options} {cmd : Cmd S Action alphabet}
variable {record journal : List (Act S (Action alphabet))} {result : Produced Action alphabet}

/-- Every history of a command has a record. -/
theorem Start.Yields.exists_records (yields : Start.Yields (cmd.execute options) journal result) :
    ∃ record, cmd.Recorded options record journal result := by
  rw [← cmd.plain_execute_attested options id] at yields
  rcases Start.Yields.of_revised yields with ⟨record, recorded, plain⟩
  exact ⟨record, recorded, plain⟩

/-- Only histories of the command have records. -/
theorem Cmd.Recorded.history (records : cmd.Recorded options record journal result) :
    Start.Yields (cmd.execute options) journal result := by
  rw [← cmd.plain_execute_attested options id, ← records.plain]
  exact records.yields.revised

end Records

/-! ## A single RUN -/

theorem Site.attested_attest (site : Site) {outcome : Except RunFailure Json} {leaf : Simulation}
    (told : Simulation.ofOutcome? outcome = some leaf) :
    (site.attest outcome).flatMap Site.attested = [(site, leaf)] := by
  rcases outcome with cause | value
  · cases cause with
    | message text => cases told
    | failed payload =>
        cases told
        exact (List.append_nil _).trans (site.attested_attestation payload false)
  · cases told
    exact (List.append_nil _).trans (site.attested_attestation value true)

namespace RunSpec

variable {endless : Prop} {options : Options} {spec : RunSpec S Action (Action alphabet)}
variable {journal : List (Act S (Action alphabet))} {result : Produced Action alphabet}

/-- An output that nothing waits for counts as success with `null`. -/
theorem simulate_of_yields_forced {later : Pending S Action (Action alphabet) .outcome}
    (forced : spec.forceSync = true)
    (yields : Start.Yields (spec.executeDeferred options later) journal result) :
    sends journal = [] ∧ result = .ok (spec.simulate (some (.run .null true))).value.toList := by
  rw [executeDeferred, if_pos forced] at yields
  have spawned : Start.Yields (Prompt.spawn (detached later) (.done ()) >>= fun _ =>
      Verdict.ofAction (spec.successAction .null)) journal result := yields
  rcases Start.Yields.of_bind spawned with ⟨earlier, ⟨⟩, rest, handed, last, rfl⟩
  rcases Start.Yields.of_ofAction last with ⟨rfl, rfl⟩
  cases handed with
  | spawn closing =>
      cases closing
      rw [simulate_succeeded]
      exact ⟨sends_notes _, rfl⟩

/-- What an attested RUN waits for attests the outcome, and then yields the action that a simulation of it
gives. -/
theorem simulate_of_completes_attested {later : Pending S Action (Action alphabet) .outcome}
    (meets : later.Meets (.quiet endless) fun outcome : Except RunFailure Json =>
      (Simulation.ofOutcome? outcome).isSome) (site : Site)
    (completes : (((later.revised .quoting).bind fun outcome =>
      .noting (site.attest outcome) (.done outcome)).bind
        ((spec.attested site).settle options)).Completes journal result) :
    ∃ leaf, attestations journal = [(site, leaf)] ∧ sends journal = [] ∧
      result = .ok (spec.simulate (some leaf)).value.toList := by
  rcases Pending.Completes.of_bind completes with ⟨known, outcome, rest, attests, settles, rfl⟩
  rcases Pending.Completes.of_bind attests with ⟨early, found, noted, ends, notes, rfl⟩
  have leftNotes : Pending.Completes
      (.withNoted ⟨site.attest found, found⟩ (.done : _ → Pending S Action (Action alphabet) .outcome))
      noted outcome := notes
  rcases Pending.Completes.of_withNoted leftNotes with ⟨nothing, last, rfl⟩
  rcases Pending.Completes.done_iff.1 last with ⟨rfl, rfl⟩
  rcases Pending.Completes.of_edit _ ends with ⟨source, sourceEnds, rfl⟩
  rcases meets.of_does id sourceEnds with ⟨told, silent, -⟩
  rcases Option.isSome_iff_exists.1 told with ⟨leaf, told⟩
  have quoted : ((spec.settle options outcome).revised .quoting).Completes rest result := by
    rw [revised_settle]
    exact settles
  rcases Pending.Completes.of_edit _ quoted with ⟨last, lastEnds, rfl⟩
  rcases simulate_of_completes_settle lastEnds told with ⟨lastSilent, rfl⟩
  refine ⟨leaf, ?_, ?_, rfl⟩
  · simp [site.attested_attest told]
  · simp [silent, lastSilent]

/-- A modest RUN attests its outcome, sends nothing, and yields the action that a simulation of its
outcome gives. -/
theorem simulate_of_yields_attested (modest : spec.Modest endless) (site : Site)
    (yields : Start.Yields ((spec.attested site).execute options) journal result) :
    ∃ leaf, attestations journal = [(site, leaf)] ∧ sends journal = [] ∧
      result = .ok (spec.simulate (some leaf)).value.toList := by
  rcases Start.Yields.of_bind yields with ⟨opening, output, rest, called, onward, rfl⟩
  rcases Prompt.Ends.bind_iff.1 called with ⟨early, quoted, late, ends, attests, rfl⟩
  rcases Prompt.Ends.of_edit _ ends with ⟨source, original, sourceEnds, rfl, rfl⟩
  rcases modest.of_ends sourceEnds with ⟨expected, silent, -⟩
  have sourceSilent : sends source = [] := silent id
  cases original with
  | ready outcome =>
      rcases Prompt.Ends.ofNoted_iff.1 attests with ⟨rfl, rfl⟩
      rcases expected with ⟨told, creators⟩
      rcases Option.isSome_iff_exists.1 told with ⟨leaf, told⟩
      have goesOn : Start.Yields ((spec.executeReady options outcome).revised .quoting) rest result := by
        rw [revised_executeReady]
        exact onward
      rcases goesOn.of_revised with ⟨last, lastYields, rfl⟩
      rcases simulate_of_yields_ready told creators lastYields with ⟨lastSilent, rfl⟩
      refine ⟨leaf, ?_, ?_, rfl⟩
      · simp [site.attested_attest told]
      · simp [sourceSilent, lastSilent]
  | deferred later =>
      cases forced : spec.forceSync with
      | true =>
          rw [RunResult.revised, RunResult.attested, forced, if_pos rfl] at attests
          rcases Prompt.Ends.ofNoted_iff.1 attests with ⟨rfl, rfl⟩
          have goesOn : Start.Yields ((spec.executeDeferred options later).revised .quoting) rest result := by
            rw [revised_executeDeferred, forced]
            exact onward
          rcases goesOn.of_revised with ⟨last, lastYields, rfl⟩
          rcases simulate_of_yields_forced forced lastYields with ⟨lastSilent, rfl⟩
          refine ⟨_, ?_, ?_, rfl⟩
          · simp [Site.attest, site.attested_attestation]
          · simp [sourceSilent, lastSilent]
      | false =>
          rw [RunResult.revised, RunResult.attested, forced, if_neg Bool.false_ne_true] at attests
          rcases Prompt.Ends.pure_iff.1 attests with ⟨rfl, rfl⟩
          rw [Expects, forced, if_neg Bool.false_ne_true] at expected
          have attestedForced : (spec.attested site).forceSync = false := forced
          dsimp only at onward
          rw [executeDeferred, attestedForced, if_neg Bool.false_ne_true] at onward
          rcases simulate_of_completes_attested expected site onward.of_pure_some with
            ⟨leaf, told, restSilent, rfl⟩
          refine ⟨leaf, ?_, ?_, rfl⟩
          · simp [told]
          · simp [sourceSilent, restSilent]

end RunSpec

/-! ## Lists and tags -/

/-- With these leaves, the account of the command under these names is in balance. -/
structure Cmd.InBalance (batched : Prop) (cmd : Cmd S Action alphabet) (name : Site → Site)
    (leaf : Site → Simulation) (record : List (Act S (Action alphabet)))
    (produced : List (Action alphabet)) : Prop where
  /-- Every RUN has attested its leaf once, and nothing else was attested. -/
  attested : (attestations record).Perm (cmd.sites.map fun site => (name site, leaf site))
  balanced : Balanced batched (sends record) produced
    (cmd.simulate (some (cmd.outcomes leaf))).value.toList

namespace Cmd.InBalance

variable {batched : Prop} {name : Site → Site}

/-- The account of a list is in balance if those of its commands are. -/
theorem list {count : Nat} {cmds : Fin count → Cmd S Action alphabet} {sequence batch : Bool}
    {leaves : Fin count → Site → Simulation} {record : List (Act S (Action alphabet))}
    {pieces : Fin count → Piece S (Action alphabet)} {produced : List (Action alphabet)}
    (each : ∀ index, (cmds index).InBalance batched (fun site => name (⟨sequence, index⟩ :: site))
      (leaves index) (pieces index).journal (pieces index).produced)
    (gathers : Gathers batch (List.ofFn pieces) record produced) (flag : batched → batch = true) :
    (Cmd.list cmds sequence batch).InBalance batched name (leavesOf leaves) record produced := by
  constructor
  · have together : (attestations record).Perm
        (List.ofFn fun index => attestations (pieces index).journal).flatten := by
      have split : ((List.ofFn pieces).flatMap fun piece => deeds piece.journal).flatMap
          Deed.attestations = (List.ofFn fun index => attestations (pieces index).journal).flatten := by
        rw [List.flatMap_assoc, List.flatMap_def, List.map_ofFn]
        rfl
      rw [← split]
      exact gathers.deeds.flatMap_right Deed.attestations
    have sites : ((Cmd.list cmds sequence batch).sites.map fun site => (name site, leavesOf leaves site)) =
        (List.ofFn fun index => (cmds index).sites.map fun site =>
          (name (⟨sequence, index⟩ :: site), leaves index site)).flatten := by
      simp [Cmd.sites, List.map_flatten, List.map_ofFn, Function.comp_def, leavesOf_cons]
    rw [sites]
    exact together.trans (perm_flatten_ofFn fun index => (each index).attested)
  · have shape : (Cmd.list cmds sequence batch).outcomes (leavesOf leaves) =
        .many (List.ofFn fun index => (cmds index).outcomes (leaves index)) := by
      simp only [outcomes, leavesOf_cons]
    rw [shape, simulate_list_toList]
    exact .of_gathers gathers (fun index => (each index).balanced) flag

/-- The account of a tagged command is in balance if that of its child's command is. -/
theorem map {nested : Cmd S Action child} {leaf : Site → Simulation}
    {source : List (Act S (Action child))} {produced : List (Action child)}
    (accounts : nested.InBalance batched name leaf source produced)
    (tagger : List Json → Action child → Noted (Action alphabet)) (args : List Json) {notes : List Json}
    (silent : notes.flatMap Site.attested = []) :
    (Cmd.map nested tagger args).InBalance batched name leaf
      (source.map (Act.retag fun action => (tagger args action).edit .quoting) ++ Act.notes notes)
      (produced.map fun action => (tagger args action).value) := by
  constructor
  · rw [attestations_append, attestations_retag, attestations_notes, silent, List.append_nil]
    exact accounts.attested
  · have simulated : ((Cmd.map nested tagger args).simulate (some (nested.outcomes leaf))).value.toList =
        (nested.simulate (some (nested.outcomes leaf))).value.toList.map
          fun action => (tagger args action).value := by
      rw [simulate, Noted.bind_value, Simulated.toList_mapNoted_value]
    rw [outcomes, simulated, sends_append, sends_retag, sends_notes, List.append_nil]
    exact accounts.balanced.map _

end Cmd.InBalance

/-- The account of a modest command is in balance.  As long as what it sends comes to a good end it does
not fail, each of its RUNs attests its outcome once, and what it sends and produces is what the simulation
of these outcomes gives. -/
theorem Cmd.inBalance_of_yields {endless : Prop} {batches : Bool → Prop} {options : Options}
    {cmd : Cmd S Action alphabet} (modest : cmd.Modest endless batches) (name : Site → Site)
    {record : List (Act S (Action alphabet))} {result : Produced Action alphabet}
    (yields : Start.Yields ((cmd.attested name).execute options) record result)
    (accepted : Accepted record) :
    ∃ produced leaf, result = .ok produced ∧
      cmd.InBalance (∀ batch, batches batch → batch = true) name leaf record produced := by
  induction cmd generalizing name with
  | none =>
      rcases Start.Yields.of_pure_none yields with ⟨rfl, rfl⟩
      exact ⟨[], fun _ => .many [], rfl, .refl _, .kept []⟩
  | action sent =>
      rcases FollowUp.completes_now_iff.1 (Start.Yields.of_pure_some yields) with ⟨rfl, rfl⟩
      exact ⟨[sent], fun _ => .many [], rfl, .refl _, .kept [sent]⟩
  | run spec =>
      rcases RunSpec.simulate_of_yields_attested modest (name []) yields with
        ⟨leaf, attested, silent, rfl⟩
      refine ⟨_, fun _ => leaf, rfl, ?_, ?_⟩
      · rw [attested]
        exact .refl _
      · rw [silent]
        exact .kept _
  | list cmds sequence batch ih =>
      let starts (index) : Start S Action _ :=
        ((cmds index).attested fun site => name (⟨sequence, index⟩ :: site)).execute options
      have succeeds : ∀ start ∈ List.ofFn starts, Start.Succeeds start := by
        intro start listed journal result yields accepted
        rcases List.mem_ofFn.1 listed with ⟨index, rfl⟩
        rcases ih index (modest.2 index) _ yields accepted with ⟨produced, leaf, rfl, -⟩
        exact ⟨produced, rfl⟩
      have gathered : ∃ pieces produced, List.Forall₂ Start.ComesTo (List.ofFn starts) pieces ∧
          Gathers batch pieces record produced ∧ result = .ok produced := by
        cases sequence with
        | false => exact Start.Yields.gathers_of_startTogether succeeds yields accepted
        | true => exact Start.Yields.gathers_of_startInOrder succeeds yields accepted
      rcases gathered with ⟨pieces, produced, all, gathers, rfl⟩
      rcases exists_ofFn_of_forall₂ all with ⟨pieces, rfl, comes⟩
      have each (index) : ∃ leaf, (cmds index).InBalance (∀ batch, batches batch → batch = true)
          (fun site => name (⟨sequence, index⟩ :: site)) leaf (pieces index).journal
          (pieces index).produced := by
        rcases ih index (modest.2 index) _ (comes index).yields (comes index).accepted with
          ⟨found, leaf, same, accounts⟩
        cases same
        exact ⟨leaf, accounts⟩
      choose leaves accounts using each
      exact ⟨produced, _, rfl, .list accounts gathers fun flag => flag batch modest.1⟩
  | map nested tagger args ih =>
      rcases Start.Yields.of_map yields with ⟨source, found, notes, nestedYields, rfl, noted, rfl⟩
      have sourceAccepted : Accepted source :=
        (accepted_retag _ _).1 ((accepted_append _ _).1 accepted).1
      rcases ih modest name nestedYields sourceAccepted with ⟨produced, leaf, rfl, accounts⟩
      have silent : notes.flatMap Site.attested = [] := by
        refine List.flatMap_eq_nil_iff.2 fun note within => ?_
        rcases noted note within with ⟨action, within⟩
        rcases List.mem_filterMap.1 within with ⟨value, -, quoted⟩
        cases quoted
        exact Site.attested_quoteNote value
      exact ⟨_, leaf, rfl, accounts.map tagger args silent⟩
  | scheduled => exact modest.elim

/-! ## The tree of the actual outcomes -/

namespace Cmd.InBalance

variable {batched : Prop} {cmd : Cmd S Action alphabet} {leaf : Site → Simulation}
variable {record : List (Act S (Action alphabet))} {produced : List (Action alphabet)}

/-- Each RUN attests its outcome exactly once. -/
theorem once (accounts : cmd.InBalance batched id leaf record produced) :
    ((attestations record).map Prod.fst).Perm cmd.sites := by
  have perm := accounts.attested.map Prod.fst
  rwa [List.map_map, show Prod.fst ∘ (fun site => (id site, leaf site)) = id from rfl, List.map_id] at perm

/-- The leaves are those that were attested. -/
theorem outcomes_eq_actual (accounts : cmd.InBalance batched id leaf record produced) :
    cmd.outcomes leaf = cmd.actual record := by
  apply outcomes_congr
  intro site within
  have distinct : ((attestations record).map Prod.fst).Nodup :=
    accounts.once.nodup_iff.2 cmd.nodup_sites
  have listed : (site, leaf site) ∈ attestations record :=
    accounts.attested.mem_iff.2 (List.mem_map.2 ⟨site, within, rfl⟩)
  rw [Simulation.attestedAt, lookup_eq_some_of_mem distinct listed]
  rfl

end Cmd.InBalance

end EffectLoop
