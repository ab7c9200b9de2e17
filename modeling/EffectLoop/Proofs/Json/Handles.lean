import EffectLoop.Time.Handle

/-!
# Handles in JSON

A handle travels through JSON by two paths, which are written apart: as the argument value of a RUN
(`TimerHandle.toJson`, `TimerHandle.ofJson?`) and as part of a document (`TimerHandle.encode`,
`TimerHandle.decode`).  On either path exactly the integers from 0 below `2 ^ 64` stand for handles, each of
them for the handle with this number; no float does, whether it is integral or not.  So the two paths agree
on every value, and what one of them writes the other one reads (`TimerHandle.paths_agree`).
-/

namespace EffectLoop

/-- Exactly the integers from 0 below `2 ^ 64` are unsigned 64-bit integers. -/
theorem Number.toNat?_eq_some_iff {number : Number} {value : Nat} :
    number.toNat? = some value ↔ number = .int value ∧ value < unsignedLimit := by
  cases number with
  | float => exact ⟨nofun, nofun⟩
  | int whole =>
      simp only [toNat?, Option.ite_none_right_eq_some, Option.some.injEq, int.injEq]
      omega

theorem Json.asNat?_eq_some_iff {value : Json} {id : Nat} :
    value.asNat? = some id ↔ value = .ofNat id ∧ id < Number.unsignedLimit := by
  cases value with
  | number held => rw [asNat?, Number.toNat?_eq_some_iff, ofNat, number.injEq]
  | _ => exact ⟨nofun, nofun⟩

/-- A natural number is written in one way. -/
theorem Json.ofNat_inj {left right : Nat} : ofNat left = ofNat right ↔ left = right := by
  rw [ofNat, ofNat, number.injEq, Number.int.injEq, Int.natCast_inj]

namespace TimerHandle

variable {value : Json} {handle : TimerHandle}

/-- A natural number below `2 ^ 64` is that of one handle, and no other number is that of a handle. -/
theorem numbered_iff {id : Nat} :
    id < Number.unsignedLimit ∧ (⟨UInt64.ofNat id⟩ : TimerHandle) = handle ↔ id = handle.id.toNat := by
  constructor
  · rintro ⟨small, rfl⟩
    exact (UInt64.toNat_ofNat_of_lt' small).symm
  · rintro rfl
    exact ⟨handle.id.toNat_lt, by rw [UInt64.ofNat_toNat]⟩

/-! ## Arguments -/

/-- The argument value of a handle is its number, and no other value stands for it. -/
theorem ofJson?_eq_some_iff : ofJson? value = some handle ↔ value = .ofNat handle.id.toNat := by
  simp only [ofJson?, Option.map_eq_some_iff, Json.asNat?_eq_some_iff, and_assoc, numbered_iff,
    exists_eq_right]

-- The greatest handle, the number after it, the float 7.0 and a string.
example :
    [Json.ofNat 18446744073709551615, .ofNat 18446744073709551616,
        .number (.float ⟨false, 4619567317775286272, by decide⟩), .string "7"].map ofJson? =
      [some ⟨18446744073709551615⟩, none, none, none] := by decide

/-- The argument value of a handle stands for the handle. -/
theorem ofJson?_toJson (handle : TimerHandle) : ofJson? handle.toJson = some handle :=
  ofJson?_eq_some_iff.2 rfl

/-! ## Documents -/

theorem decode_ofNat (id : Nat) :
    decode (.ofNat id) = if id < Number.unsignedLimit then .ok ⟨UInt64.ofNat id⟩
      else .error (Json.wrongType (.ofNat id) "u64") :=
  rfl

theorem decode_ofNat_eq_ok_iff {id : Nat} : decode (.ofNat id) = .ok handle ↔ id = handle.id.toNat := by
  rw [decode_ofNat, ← numbered_iff]
  split
  next small => rw [Except.ok.injEq, and_iff_right small]
  next large => exact ⟨nofun, fun named => absurd named.1 large⟩

/-- The document of a handle is its number, and no other document is read as the handle. -/
theorem decode_eq_ok_iff : decode value = .ok handle ↔ value = .ofNat handle.id.toNat := by
  cases value with
  | number held =>
      cases held with
      | float => exact ⟨nofun, nofun⟩
      | int whole =>
          cases whole with
          | negSucc => exact ⟨nofun, nofun⟩
          | ofNat id => exact decode_ofNat_eq_ok_iff.trans Json.ofNat_inj.symm
  | _ => exact ⟨nofun, nofun⟩

/-- Apart from its refusals, a document is read like an argument. -/
theorem toOption_decode (value : Json) : (decode value).toOption = ofJson? value := by
  cases decoded : decode value with
  | ok handle => exact (ofJson?_eq_some_iff.2 (decode_eq_ok_iff.1 decoded)).symm
  | error refusal =>
      refine (Option.eq_none_iff_forall_ne_some.2 fun handle read => ?_).symm
      rw [decode_eq_ok_iff.2 (ofJson?_eq_some_iff.1 read)] at decoded
      cases decoded

/-! ## Both paths -/

/-- The two paths of a handle agree.  A value stands for a handle as an argument if and only if it is read as
this handle as a document, and it does so if and only if it is what both paths write for the handle.
Conversely every handle is read back, on either path, from what either path writes for it. -/
theorem paths_agree (value : Json) (handle : TimerHandle) :
    (ofJson? value = some handle ↔ decode value = .ok handle) ∧
      (ofJson? value = some handle ↔ handle.toJson = value ∧ handle.encode = value) ∧
      (ofJson? handle.toJson = some handle ∧ ofJson? handle.encode = some handle) ∧
      decode handle.toJson = .ok handle ∧ decode handle.encode = .ok handle := by
  have same (value : Json) : ofJson? value = some handle ↔ decode value = .ok handle :=
    ofJson?_eq_some_iff.trans decode_eq_ok_iff.symm
  have argument : ofJson? handle.toJson = some handle := ofJson?_toJson handle
  have document : decode handle.encode = .ok handle := decode_eq_ok_iff.2 rfl
  refine ⟨same value, ?_, ⟨argument, (same _).2 document⟩, (same _).1 argument, document⟩
  constructor
  · intro read
    have written := ofJson?_eq_some_iff.1 read
    exact ⟨written.symm, written.symm⟩
  · rintro ⟨rfl, -⟩
    exact argument

end TimerHandle

end EffectLoop
