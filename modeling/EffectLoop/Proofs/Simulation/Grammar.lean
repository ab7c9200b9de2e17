import EffectLoop.Proofs.Json.Handles
import EffectLoop.Proofs.Json.Ordered
import Mathlib.Data.List.OfFn

/-!
# The grammar of simulation trees

The document of a tree does not name the form of the tree, so a reader has to find it out.  The grammar
(`Simulation.Reads`) says which value is a document of which tree: an object with a boolean `success` is
that of a RUN, whatever else it holds; any other object with a `handle` is that of a schedule, if its
`nested` is one of a tree or is missing; an array is that of a list, if all of its items are documents.

The decoder accepts exactly this grammar (`Simulation.decode_iff_reads`), and it reads a tree back from
its document (`Simulation.decode_encode`).
-/

namespace EffectLoop

namespace Simulation

/-- The value is a document of the tree. -/
inductive Reads : Json → Simulation → Prop where
  /-- The outcome of a RUN: `success` is a flag.  A missing `result` is null. -/
  | run {source : Json} {success : Bool} : source.get? "success" = some (.bool success) →
      Reads source (.run ((source.get? "result").getD .null) success)
  /-- A schedule, without an outcome for its command: `success` is no flag, `handle` is an unsigned
  64-bit integer. -/
  | scheduled {source : Json} {handle : TimerHandle} :
      (∀ success, source.get? "success" ≠ some (.bool success)) →
      source.get? "handle" = some (.ofNat handle.id.toNat) →
      source.get? "nested" = none ∨ source.get? "nested" = some .null →
      Reads source (.scheduled handle none)
  /-- A schedule, with an outcome for its command. -/
  | nested {source inner : Json} {handle : TimerHandle} {tree : Simulation} :
      (∀ success, source.get? "success" ≠ some (.bool success)) →
      source.get? "handle" = some (.ofNat handle.id.toNat) →
      source.get? "nested" = some inner → Reads inner tree →
      Reads source (.scheduled handle (some tree))
  /-- The outcomes of a list, in order. -/
  | many {count : Nat} {items : Fin count → Json} {trees : Fin count → Simulation} :
      (∀ index, Reads (items index) (trees index)) →
      Reads (.array (List.ofFn items)) (.many (List.ofFn trees))

/-! ## The decoder -/

section Objects

variable {fields : List (String × Json)} {tree : Simulation} {handle : TimerHandle}
variable (ordered : (Json.object fields).Ordered)
include ordered

theorem fieldsNamed_eq (key : String) :
    fieldsNamed key fields = ((Json.object fields).get? key).toList := by
  cases ordered with
  | object increasing _ => exact Json.fieldsNamed_eq_toList increasing

/-- The result of a RUN is what its field holds, or null. -/
theorem decodeRun?_of_success {success : Bool}
    (flag : (Json.object fields).get? "success" = some (.bool success)) :
    decodeRun? fields = some (run (((Json.object fields).get? "result").getD .null) success) := by
  rw [decodeRun?, fieldsNamed_eq ordered, fieldsNamed_eq ordered, flag]
  cases result : (Json.object fields).get? "result" with
  | none => rfl
  | some value => exact congrArg (fun held => some (run held success)) (ordered.get? result).normalize_eq

theorem decodeRun?_of_no_success
    (noFlag : ∀ success, (Json.object fields).get? "success" ≠ some (.bool success)) :
    decodeRun? fields = none := by
  rw [decodeRun?, fieldsNamed_eq ordered]
  cases flag : (Json.object fields).get? "success" with
  | none => rfl
  | some value =>
      cases value with
      | bool success => exact absurd flag (noFlag success)
      | _ => rfl

theorem decodeHandle?_eq_some_iff :
    decodeHandle? fields = some handle ↔
      (Json.object fields).get? "handle" = some (.ofNat handle.id.toNat) := by
  rw [decodeHandle?, fieldsNamed_eq ordered]
  cases (Json.object fields).get? "handle" with
  | none => exact ⟨nofun, nofun⟩
  | some value =>
      rw [Option.some.injEq, ← TimerHandle.ofJson?_eq_some_iff, ← TimerHandle.toOption_decode]
      rfl

/-- What is read of an object that has no flag. -/
theorem decode?_of_no_success
    (noFlag : ∀ success, (Json.object fields).get? "success" ≠ some (.bool success)) :
    decode? (.object fields) =
      (decodeHandle? fields).bind fun handle =>
        match (Json.object fields).get? "nested" with
        | none => some (.scheduled handle none)
        | some inner =>
            if inner.isNull then some (.scheduled handle none)
            else (decode? inner).map fun found => .scheduled handle (some found) := by
  rw [decode?, decodeRun?_of_no_success ordered noFlag]
  cases decodeHandle? fields with
  | none => rfl
  | some handle =>
      dsimp only [Option.bind_some]
      have named := fieldsNamed_eq ordered "nested"
      split
      next none =>
          rw [none] at named
          cases found : (Json.object fields).get? "nested" with
          | none => rfl
          | some inner =>
              rw [found] at named
              cases named
      next inner one =>
          rw [one] at named
          cases found : (Json.object fields).get? "nested" with
          | none =>
              rw [found] at named
              cases named
          | some other =>
              rw [found] at named
              cases named
              rfl
      next many others =>
          cases found : (Json.object fields).get? "nested" with
          | none =>
              rw [found] at named
              exact absurd named many
          | some inner =>
              rw [found] at named
              exact absurd named (others inner)

end Objects

section Arrays

variable {count : Nat} {items : Fin count → Json}

theorem decodeEntries?_eq_some_iff {trees : List Simulation} :
    decodeEntries? (List.ofFn items) = some trees ↔
      ∃ found : Fin count → Simulation, trees = List.ofFn found ∧
        ∀ index, decode? (items index) = some (found index) := by
  induction count generalizing trees with
  | zero =>
      rw [List.ofFn_zero, decodeEntries?]
      constructor
      · rintro ⟨⟩
        exact ⟨Fin.elim0, List.ofFn_zero.symm, Fin.rec0⟩
      · rintro ⟨found, rfl, -⟩
        rw [List.ofFn_zero]
  | succ count ih =>
      rw [List.ofFn_succ, decodeEntries?]
      constructor
      · intro whole
        cases first : decode? (items 0) with
        | none =>
            rw [first] at whole
            cases whole
        | some tree =>
            rw [first] at whole
            rcases Option.map_eq_some_iff.1 whole with ⟨others, rest, rfl⟩
            rcases ih.1 rest with ⟨found, rfl, each⟩
            refine ⟨Fin.cons tree found, by simp [List.ofFn_succ], fun index => ?_⟩
            cases index using Fin.cases with
            | zero => exact first
            | succ index => exact each index
      · rintro ⟨found, rfl, each⟩
        rw [each 0, ih.2 ⟨fun index => found index.succ, rfl, fun index => each index.succ⟩,
          List.ofFn_succ]
        rfl

theorem reads_array_iff {tree : Simulation} :
    Reads (.array (List.ofFn items)) tree ↔
      ∃ found : Fin count → Simulation, tree = .many (List.ofFn found) ∧
        ∀ index, Reads (items index) (found index) := by
  constructor
  · intro reads
    generalize same : Json.array (List.ofFn items) = source at reads
    cases reads with
    | run flag =>
        subst same
        cases flag
    | scheduled _ handle | nested _ handle =>
        subst same
        cases handle
    | @many size members trees each =>
        cases List.ofFn_inj'.1 (Json.array.inj same)
        exact ⟨trees, rfl, each⟩
  · rintro ⟨found, rfl, each⟩
    exact .many each

end Arrays

section Inversion

variable {source : Json} {tree : Simulation} {success : Bool} {handle : TimerHandle}

/-- An object with a flag is the document of a RUN and of nothing else. -/
theorem reads_iff_of_success (flag : source.get? "success" = some (.bool success)) :
    Reads source tree ↔ tree = run ((source.get? "result").getD .null) success := by
  constructor
  · intro reads
    cases reads with
    | run other =>
        cases flag.symm.trans other
        rfl
    | scheduled noFlag => exact absurd flag (noFlag success)
    | nested noFlag => exact absurd flag (noFlag success)
    | many => cases flag
  · rintro rfl
    exact .run flag

/-- An object without a flag is the document of a schedule, or of nothing. -/
theorem reads_object_iff_of_no_success {fields : List (String × Json)}
    (noFlag : ∀ success, (Json.object fields).get? "success" ≠ some (.bool success)) :
    Reads (.object fields) tree ↔ ∃ handle : TimerHandle,
      (Json.object fields).get? "handle" = some (.ofNat handle.id.toNat) ∧
        (((Json.object fields).get? "nested" = none ∨
            (Json.object fields).get? "nested" = some .null) ∧ tree = .scheduled handle none ∨
          ∃ inner found, (Json.object fields).get? "nested" = some inner ∧ Reads inner found ∧
            tree = .scheduled handle (some found)) := by
  constructor
  · intro reads
    cases reads with
    | run flag => exact absurd flag (noFlag _)
    | scheduled _ issued missing => exact ⟨_, issued, .inl ⟨missing, rfl⟩⟩
    | nested _ issued held reads => exact ⟨_, issued, .inr ⟨_, _, held, reads, rfl⟩⟩
  · rintro ⟨handle, issued, ⟨missing, rfl⟩ | ⟨inner, found, held, reads, rfl⟩⟩
    · exact .scheduled noFlag issued missing
    · exact .nested noFlag issued held reads

/-- A value without fields and items is no document. -/
theorem not_reads_of_plain (noField : ∀ key, source.get? key = none)
    (noItems : ∀ items, source ≠ .array items) : ¬ Reads source tree := by
  intro reads
  cases reads with
  | run flag => cases (noField _).symm.trans flag
  | scheduled _ issued | nested _ issued => cases (noField _).symm.trans issued
  | many => exact noItems _ rfl

end Inversion

/-- The decoder accepts the documents of trees. -/
theorem decode?_eq_some_iff {source : Json} {tree : Simulation} (ordered : source.Ordered) :
    decode? source = some tree ↔ Reads source tree := by
  induction ordered generalizing tree with
  | null | bool | number | string =>
      simp only [decode?, reduceCtorEq, false_iff]
      apply not_reads_of_plain fun _ => rfl
      intro items same
      cases same
  | @array items _ ih =>
      have each (index) (found : Simulation) :
          decode? (items.get index) = some found ↔ Reads (items.get index) found :=
        ih (items.get index) (List.get_mem items index)
      rw [← List.ofFn_get items, decode?, Option.map_eq_some_iff, reads_array_iff]
      simp only [decodeEntries?_eq_some_iff, each]
      constructor
      · rintro ⟨_, ⟨found, listed, reads⟩, whole⟩
        exact ⟨found, whole.symm.trans (congrArg many listed), reads⟩
      · rintro ⟨found, whole, reads⟩
        exact ⟨_, ⟨found, rfl, reads⟩, whole.symm⟩
  | @object fields increasing each ih =>
      have ordered : (Json.object fields).Ordered := .object increasing each
      by_cases noFlag : ∀ success, (Json.object fields).get? "success" ≠ some (.bool success)
      · rw [decode?_of_no_success ordered noFlag, reads_object_iff_of_no_success noFlag,
          Option.bind_eq_some_iff]
        refine exists_congr fun handle => and_congr (decodeHandle?_eq_some_iff ordered) ?_
        cases held : (Json.object fields).get? "nested" with
        | none => simp [eq_comm]
        | some inner =>
            have inside (found : Simulation) : decode? inner = some found ↔ Reads inner found :=
              ih _ (Json.mem_of_field? held)
            cases inner with
            | null =>
                have noTree (found : Simulation) : ¬ Reads .null found := by
                  apply not_reads_of_plain fun _ => rfl
                  intro items same
                  cases same
                simp [Json.isNull, noTree, eq_comm]
            | _ => simp [Json.isNull, inside, eq_comm]
      · simp only [not_forall, not_not] at noFlag
        rcases noFlag with ⟨success, flag⟩
        rw [decode?, decodeRun?_of_success ordered flag, reads_iff_of_success flag,
          Option.some.injEq, eq_comm]

theorem decode_eq_ok_iff {source : Json} {tree : Simulation} :
    decode source = .ok tree ↔ decode? source = some tree := by
  rw [decode]
  cases decode? source <;> simp

theorem decode_eq_error_iff {source : Json} {text : String} :
    decode source = .error text ↔ text = refusal ∧ decode? source = none := by
  rw [decode]
  cases decode? source <;> simp [eq_comm]

/-- A value is read as the tree whose document it is.  A value that is the document of no tree is
refused, and the refusal says just that. -/
theorem decode_iff_reads {source : Json} (ordered : source.Ordered) :
    (∀ tree, decode source = .ok tree ↔ Reads source tree) ∧
      ∀ text, decode source = .error text ↔
        text = "data did not match any variant of untagged enum Simulation" ∧
          ∀ tree, ¬ Reads source tree := by
  refine ⟨fun tree => decode_eq_ok_iff.trans (decode?_eq_some_iff ordered), fun text => ?_⟩
  rw [decode_eq_error_iff, Option.eq_none_iff_forall_ne_some]
  exact and_congr_right fun _ => forall_congr' fun tree => not_congr (decode?_eq_some_iff ordered)

/-- An object that has the keys of both forms, with a `success` that is no flag. -/
def mixed : Json :=
  .object [("handle", .ofNat 3), ("nested", .object [("handle", .ofNat 4), ("success", .bool true)]),
    ("success", .string "yes")]

theorem ordered_mixed : mixed.Ordered := by
  refine .object (by decide) ?_
  simp only [List.mem_cons, List.not_mem_nil, or_false, forall_eq_or_imp, forall_eq]
  refine ⟨.number _, .object (by decide) ?_, .string _⟩
  simp only [List.mem_cons, List.not_mem_nil, or_false, forall_eq_or_imp, forall_eq]
  exact ⟨.number _, .bool _⟩

/-- It is read as a schedule, and the object inside it, with a flag beside its handle, as a RUN. -/
theorem decode_mixed_of_reads :
    mixed.Ordered ∧ decode mixed = .ok (.scheduled ⟨3⟩ (some (.run .null true))) :=
  ⟨ordered_mixed, ((decode_iff_reads ordered_mixed).1 _).2 <|
    .nested (fun _ => nofun) rfl rfl (.run rfl)⟩

/-! ## Documents of trees -/

/-- Every result in the tree is an ordered value. -/
inductive Ordered : Simulation → Prop where
  | run {result : Json} (success : Bool) : result.Ordered → Ordered (run result success)
  | scheduled (handle : TimerHandle) : Ordered (scheduled handle none)
  | nested (handle : TimerHandle) {tree : Simulation} : Ordered tree →
      Ordered (scheduled handle (some tree))
  | many {entries : List Simulation} : (∀ entry ∈ entries, Ordered entry) → Ordered (many entries)

theorem encodeEntries_eq_map (entries : List Simulation) : encodeEntries entries = entries.map encode := by
  induction entries with
  | nil => rfl
  | cons entry rest ih => rw [encodeEntries, ih, List.map_cons]

section Forms

variable {handle : TimerHandle}

/-- Two fields whose keys are in order. -/
theorem pairwise_fields {first second : String} (less : first < second) (left right : Json) :
    [(first, left), (second, right)].Pairwise fun left right => left.1 < right.1 :=
  List.pairwise_pair.2 less

theorem encode_run (result : Json) (success : Bool) :
    encode (run result success) = .object [("result", result), ("success", .bool success)] :=
  Json.ofFields_of_pairwise (pairwise_fields (by decide) _ _)

theorem encode_scheduled_none :
    encode (scheduled handle none) = .object [("handle", handle.encode)] :=
  Json.ofFields_of_pairwise (List.pairwise_singleton _ _)

theorem encode_scheduled_some (tree : Simulation) :
    encode (scheduled handle (some tree)) =
      .object [("handle", handle.encode), ("nested", encode tree)] :=
  Json.ofFields_of_pairwise (pairwise_fields (by decide) _ _)

end Forms

theorem ordered_encode {tree : Simulation} (ordered : tree.Ordered) : tree.encode.Ordered := by
  induction ordered with
  | @run result success ordered =>
      rw [encode_run]
      exact .object (pairwise_fields (by decide) _ _) (by simpa using ⟨ordered, .bool success⟩)
  | scheduled handle =>
      rw [encode_scheduled_none]
      exact .object (List.pairwise_singleton _ _) (by simpa using .number _)
  | @nested handle tree _ ih =>
      rw [encode_scheduled_some]
      exact .object (pairwise_fields (by decide) _ _) (by simpa using ⟨.number _, ih⟩)
  | @many entries _ ih =>
      rw [encode, encodeEntries_eq_map]
      exact .array (by simpa using ih)

theorem reads_encode {tree : Simulation} (ordered : tree.Ordered) : Reads tree.encode tree := by
  induction ordered with
  | @run result success _ =>
      rw [encode_run]
      exact .run rfl
  | scheduled handle =>
      rw [encode_scheduled_none]
      exact .scheduled (fun _ => nofun) rfl (.inl rfl)
  | nested handle _ ih =>
      rw [encode_scheduled_some]
      exact .nested (fun _ => nofun) rfl rfl ih
  | @many entries _ ih =>
      have each (index) : Reads (entries.get index).encode (entries.get index) :=
        ih _ (List.get_mem entries index)
      have whole := Reads.many each
      rw [encode, encodeEntries_eq_map]
      rwa [List.ofFn_get, List.ofFn_comp', List.ofFn_get] at whole

/-- A tree whose results are ordered values survives being written and read: its document is an
ordered value, from which the tree is read back, whatever the tree and whatever its results look
like. -/
theorem decode_encode {tree : Simulation} (ordered : tree.Ordered) :
    tree.encode.Ordered ∧ decode tree.encode = .ok tree :=
  ⟨ordered_encode ordered, decode_eq_ok_iff.2 <|
    (decode?_eq_some_iff (ordered_encode ordered)).2 (reads_encode ordered)⟩

/-- A tree whose outcome looks like a tree, with the greatest handle and an empty list. -/
def disguised : Simulation :=
  .many [.run (.object [("handle", .ofNat 1), ("success", .bool true)]) false,
    .scheduled ⟨UInt64.ofNat (Number.unsignedLimit - 1)⟩ (some (.many [])), .scheduled ⟨0⟩ none]

theorem decode_encode_disguised :
    disguised.Ordered ∧ disguised.encode.Ordered ∧ decode disguised.encode = .ok disguised := by
  have ordered : disguised.Ordered := by
    refine .many ?_
    simp only [List.mem_cons, List.not_mem_nil, or_false, forall_eq_or_imp, forall_eq]
    refine ⟨.run _ (.object (by decide) ?_), .nested _ (.many nofun),
      .scheduled _⟩
    simp only [List.mem_cons, List.not_mem_nil, or_false, forall_eq_or_imp, forall_eq]
    exact ⟨.number _, .bool _⟩
  exact ⟨ordered, decode_encode ordered⟩

end Simulation

end EffectLoop
