/-!
# Registries of numbers

Several fields hold a number out of a short list of registered ones. A
`Registry` is such a list: each member with its name and number, looked up
by number. A number that no member has is an `Unassigned` number.

## Main results

* `number_of_find` — a look-up only ever returns a member of the list, and
  its number is the one asked for.
-/

namespace Coap

/-- A number that no member of a registry has. -/
structure Unassigned where
  /-- The name of the registry. -/
  registry : String
  /-- The number that was looked up. -/
  number : Nat
  deriving DecidableEq, Repr

/-- What is told of an unassigned number. -/
def Unassigned.message (u : Unassigned) : String :=
  "No discriminant in enum `" ++ u.registry ++ "` matches the value `" ++
    u.number.repr ++ "`"

/-- A registry: its name, and its members with their numbers and names. -/
structure Registry (α : Type) where
  /-- The name of the registry. -/
  name : String
  /-- All members. -/
  members : List α
  /-- The registered number of a member. -/
  numberOf : α → Nat
  /-- The registered name of a member. -/
  nameOf : α → String

/-- The member with the given number. -/
def Registry.find {α : Type} (r : Registry α) (number : Nat) :
    Except Unassigned α :=
  match r.members.find? fun m => r.numberOf m == number with
  | some m => .ok m
  | none => .error ⟨r.name, number⟩

theorem Registry.number_of_find {α : Type} {r : Registry α} {number : Nat}
    {m : α} (h : r.find number = .ok m) :
    m ∈ r.members ∧ r.numberOf m = number := by
  unfold Registry.find at h
  split at h
  · next m' hm =>
    cases h
    exact ⟨List.mem_of_find?_eq_some hm, by simpa using List.find?_some hm⟩
  · contradiction

end Coap
