import EffectLoop.Time.Duration

/-!
# Waiters and gates

A computation that stops is entered as a waiter where it waits.  A waiter names the root that is to
be polled again, and the way down from it: one step for each large join that the waiting child
belongs to, innermost first.

A gate starts shut.  While it is shut it collects the waiters of those that wait at it; opening it
hands them over in order.
-/

namespace EffectLoop

/-- The way to a waiting computation. -/
structure Waiter where
  root : Nat
  /-- Large joins on the way, by ticket, with the position of the child; innermost first. -/
  path : List (Nat × Nat) := []

/-- A place to wait. -/
structure Gate where
  isOpen : Bool
  waiters : List Waiter

/-- All gates that were used, by name. -/
abbrev Gates := List (String × Gate)

namespace Gates

/-- The gate of the given name; one never used is shut. -/
def find (gates : Gates) (name : String) : Gate :=
  match gates with
  | [] => ⟨false, []⟩
  | (known, gate) :: rest => if known = name then gate else find rest name

/-- Replace the gate of the given name. -/
def put (gates : Gates) (name : String) (gate : Gate) : Gates :=
  match gates with
  | [] => [(name, gate)]
  | (known, old) :: rest =>
      if known = name then (name, gate) :: rest else (known, old) :: put rest name gate

@[simp] theorem find_put_self (gates : Gates) (name : String) (gate : Gate) :
    find (put gates name gate) name = gate := by
  induction gates with
  | nil => simp [put, find]
  | cons entry rest ih =>
    obtain ⟨known, old⟩ := entry
    simp only [put]
    split
    · simp [find]
    · rename_i other
      simp [find, other, ih]

/-- Is the gate open? -/
def isOpen (gates : Gates) (name : String) : Bool := (find gates name).isOpen

/-- Wait at a shut gate. -/
def wait (gates : Gates) (name : String) (waiter : Waiter) : Gates :=
  let gate := find gates name
  put gates name { gate with waiters := gate.waiters ++ [waiter] }

/-- Open a gate; the answer is who waited there. -/
def unlock (gates : Gates) (name : String) : List Waiter × Gates :=
  ((find gates name).waiters, put gates name ⟨true, []⟩)

/-- Shut a gate; those who wait go on waiting. -/
def shut (gates : Gates) (name : String) : Gates :=
  put gates name { find gates name with isOpen := false }

end Gates

end EffectLoop
