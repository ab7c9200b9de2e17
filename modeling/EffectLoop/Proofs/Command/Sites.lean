import EffectLoop.Command.Basic
import EffectLoop.Proofs.Program.Announcements
import EffectLoop.Simulation.Tree

/-!
# The sites of a command

Every RUN of a command stands at its site, and no two at the same.  Leaves for the sites make a simulation
tree in the shape of the command.
-/

namespace EffectLoop

variable {S ι : Type} {Action : ι → Type} {alphabet : ι}

namespace Cmd

/-- The sites of the RUNs of a command, from left to right.  The RUNs of a command that is executed later
are not among them. -/
def sites : {alphabet : ι} → Cmd S Action alphabet → List Site
  | _, .none => []
  | _, .action _ => []
  | _, .run _ => [[]]
  | _, .list cmds sequence _ =>
      (List.ofFn fun index => (cmds index).sites.map (⟨sequence, index⟩ :: ·)).flatten
  | _, .map nested _ _ => nested.sites
  | _, .scheduled _ _ _ _ => []

/-- Different RUNs stand at different sites. -/
theorem nodup_sites (cmd : Cmd S Action alphabet) : cmd.sites.Nodup := by
  induction cmd with
  | none | action | scheduled => exact List.nodup_nil
  | run => exact List.nodup_singleton _
  | map nested _ _ ih => exact ih
  | list cmds sequence batch ih =>
      rw [sites, List.nodup_flatten, List.forall_mem_ofFn_iff, List.pairwise_ofFn]
      refine ⟨fun index => (ih index).map List.cons_injective, fun left right before => ?_⟩
      intro site first second
      rcases List.mem_map.1 first with ⟨_, -, rfl⟩
      rcases List.mem_map.1 second with ⟨_, -, same⟩
      have index : right.val = left.val := congrArg Place.index (List.cons.inj same).1
      omega

/-- The simulation tree in the shape of the command with these leaves for its RUNs. -/
def outcomes : {alphabet : ι} → Cmd S Action alphabet → (Site → Simulation) → Simulation
  | _, .none, _ => .many []
  | _, .action _, _ => .many []
  | _, .run _, leaf => leaf []
  | _, .list cmds sequence _, leaf =>
      .many (List.ofFn fun index => (cmds index).outcomes fun site => leaf (⟨sequence, index⟩ :: site))
  | _, .map nested _ _, leaf => nested.outcomes leaf
  | _, .scheduled _ _ _ _, _ => .many []

/-- Only the leaves at the sites of a command are in its tree. -/
theorem outcomes_congr {cmd : Cmd S Action alphabet} {left right : Site → Simulation}
    (same : ∀ site ∈ cmd.sites, left site = right site) : cmd.outcomes left = cmd.outcomes right := by
  induction cmd generalizing left right with
  | none | action | scheduled => rfl
  | run spec => exact same [] List.mem_cons_self
  | list cmds sequence batch ih =>
      rw [outcomes, outcomes]
      congr 2
      funext index
      apply ih
      intro site within
      apply same
      exact List.mem_flatten.2 ⟨_, List.mem_ofFn.2 ⟨index, rfl⟩, List.mem_map.2 ⟨site, within, rfl⟩⟩
  | map nested tagger args ih => exact ih same

/-- The leaves of a list are those of its commands. -/
def leavesOf {count : Nat} (leaves : Fin count → Site → Simulation) : Site → Simulation
  | [] => .many []
  | place :: site => if inside : place.index < count then leaves ⟨place.index, inside⟩ site else .many []

theorem leavesOf_cons {count : Nat} (leaves : Fin count → Site → Simulation) (sequence : Bool)
    (index : Fin count) (site : Site) :
    leavesOf leaves (⟨sequence, index⟩ :: site) = leaves index site := by
  rw [leavesOf, dif_pos index.isLt]

end Cmd

/-! ## Outcomes that were attested -/

theorem lookup_eq_some_of_mem {α β : Type} [BEq α] [LawfulBEq α] {found : List (α × β)} {key : α}
    {value : β} (distinct : (found.map Prod.fst).Nodup) (listed : (key, value) ∈ found) :
    found.lookup key = some value := by
  induction found with
  | nil => cases listed
  | cons first rest ih =>
      rcases first with ⟨other, held⟩
      rcases List.mem_cons.1 listed with same | inside
      · cases same
        exact List.lookup_cons_self
      · have differs : key ≠ other := by
          rintro rfl
          exact (List.nodup_cons.1 distinct).1 (List.mem_map.2 ⟨_, inside, rfl⟩)
        rw [List.lookup_cons, beq_false_of_ne differs]
        exact ih (List.nodup_cons.1 distinct).2 inside

/-- The outcome that is attested for a site. -/
def Simulation.attestedAt (found : List (Site × Simulation)) (site : Site) : Simulation :=
  (found.lookup site).getD (.many [])

end EffectLoop
