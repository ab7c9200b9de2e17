import EffectLoop.Proofs.Command.Outcome

/-!
# The ledger of a command

Lists move the actions of their commands to and fro: what a batched list hands on, the list around it
may dispatch.  The ledger of a command compares what was sent and what was produced with what the
simulation of the actual outcomes gives.  It balances for every modest command: nothing is lost, and
nothing is there twice.
-/

namespace EffectLoop

variable {S ι : Type} {Action : ι → Type} {A B α β : Type} {alphabet child : ι}

/-! ## Finite families -/

section Families

variable {count : Nat}

theorem exists_ofFn_of_forall₂ {related : α → β → Prop} {image : Fin count → α} {values : List β}
    (all : List.Forall₂ related (List.ofFn image) values) :
    ∃ found : Fin count → β, values = List.ofFn found ∧
      ∀ index, related (image index) (found index) := by
  rcases List.forall₂_iff_get.1 all with ⟨length, each⟩
  rw [List.length_ofFn] at length
  subst length
  refine ⟨values.get, (List.ofFn_get values).symm, fun index => ?_⟩
  simpa using each index (by simp) index.isLt

theorem perm_flatten_ofFn {left right : Fin count → List α}
    (each : ∀ index, (left index).Perm (right index)) :
    (List.ofFn left).flatten.Perm (List.ofFn right).flatten := by
  induction count with
  | zero => exact .refl _
  | succ count ih =>
      rw [List.ofFn_succ, List.ofFn_succ, List.flatten_cons, List.flatten_cons]
      exact (each 0).append (ih fun index => each index.succ)

end Families

/-! ## Balance -/

/-- What was sent and what was produced make up the total.  If all is to be batched, nothing was sent
and the total was produced in its order. -/
structure Balanced (batched : Prop) (sent produced total : List A) : Prop where
  perm : (sent ++ produced).Perm total
  batch : batched → sent = [] ∧ produced = total

namespace Balanced

variable {batched : Prop} {sent produced total : List A}

theorem kept (total : List A) : Balanced batched [] total total :=
  ⟨.refl _, fun _ => ⟨rfl, rfl⟩⟩

theorem map (image : A → B) (balanced : Balanced batched sent produced total) :
    Balanced batched (sent.map image) (produced.map image) (total.map image) := by
  constructor
  · rw [← List.map_append]
    exact balanced.perm.map image
  · intro all
    rcases balanced.batch all with ⟨rfl, rfl⟩
    exact ⟨rfl, rfl⟩

end Balanced

/-! ## Simulating the actual outcomes -/

theorem Simulated.toList_mapNoted_value (tagger : A → Noted B) (found : Simulated A) :
    (found.mapNoted tagger).value.toList =
      found.toList.map fun action => (tagger action).value := by
  cases found with
  | nothing => rfl
  | one action => rfl
  | many actions => exact Noted.mapM_value tagger actions

theorem Cmd.simulate_list_toList {count : Nat} (cmds : Fin count → Cmd S Action alphabet)
    (sequence batch : Bool) (trees : Fin count → Simulation) :
    ((Cmd.list cmds sequence batch).simulate (some (.many (List.ofFn trees)))).value.toList =
      (List.ofFn fun index =>
        ((cmds index).simulate (some (trees index))).value.toList).flatten := by
  have entry (index : Fin count) :
      Simulation.entry? index (some (.many (List.ofFn trees))) = some (trees index) := by
    simp [Simulation.entry?]
  rw [simulate]
  simp only [Noted.bind_value, Noted.pure_value, Simulated.toList_ofList, Noted.mapM_value, entry,
    id, List.map_ofFn, List.flatMap_def, Function.comp_def]

/-- A list dispatches or keeps what its commands produce. -/
theorem Balanced.of_gathers {count : Nat} {batch : Bool} {batched : Prop} {journal : List (Act S A)}
    {pieces : Fin count → Piece S A} {produced : List A} {totals : Fin count → List A}
    (gathers : Gathers batch (List.ofFn pieces) journal produced)
    (each : ∀ index, Balanced batched (sends (pieces index).journal) (pieces index).produced
      (totals index)) (flag : batched → batch = true) :
    Balanced batched (sends journal) produced (List.ofFn totals).flatten := by
  constructor
  · have split (piece : Piece S A) :
        sends piece.journal ++ piece.dispatched batch ++ piece.kept batch =
          sends piece.journal ++ piece.produced := by
      cases batch <;> simp [Piece.dispatched, Piece.kept]
    have merged : ((List.ofFn pieces).flatMap fun piece =>
          sends piece.journal ++ piece.dispatched batch ++ piece.kept batch) =
        (List.ofFn fun index => sends (pieces index).journal ++ (pieces index).produced).flatten := by
      rw [List.flatMap_def, List.map_ofFn]
      simp only [Function.comp_def, split]
    have together := (gathers.sends.append_right ((List.ofFn pieces).flatMap (Piece.kept batch))).trans
      (List.flatMap_append_perm ..)
    rw [gathers.kept]
    rw [merged] at together
    exact together.trans (perm_flatten_ofFn fun index => (each index).perm)
  · intro all
    have silent (index : Fin count) : sends (pieces index).journal = [] :=
      ((each index).batch all).1
    have same (index : Fin count) : (pieces index).produced = totals index :=
      ((each index).batch all).2
    cases flag all
    constructor
    · have nothing := gathers.sends
      rw [List.flatMap_def, List.map_ofFn] at nothing
      simpa [Function.comp_def, silent, Piece.dispatched] using nothing
    · rw [gathers.kept, List.flatMap_def, List.map_ofFn]
      simp [Function.comp_def, Piece.kept, same]

end EffectLoop
