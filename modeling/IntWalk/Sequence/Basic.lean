/-!
# Sequences

A sequence is an ordered list of values in which a value may occur several times.
-/

namespace IntWalk

/-- An ordered list of values. -/
structure Sequence (α : Type) where
  /-- The values in order. -/
  values : List α
deriving DecidableEq, Repr, Inhabited

namespace Sequence

variable {α : Type}

/-- The sequence without values. -/
def empty : Sequence α := ⟨[]⟩

/-- How many values there are, repetitions included. -/
def size (s : Sequence α) : Nat := s.values.length

/-- Whether there is no value. -/
def isEmpty (s : Sequence α) : Bool := s.values.isEmpty

/-- Whether the value occurs. -/
def contains [DecidableEq α] (s : Sequence α) (v : α) : Bool := decide (v ∈ s.values)

/-- Adds values at the end, in order. -/
def append (s : Sequence α) (more : List α) : Sequence α := ⟨s.values ++ more⟩

/-- Adds a value at the end. -/
def push (s : Sequence α) (v : α) : Sequence α := s.append [v]

/-- The sequence written for a developer to read, each value as `write` has it. -/
def inspect (write : α → String) (s : Sequence α) : String :=
  let values := ", ".intercalate (s.values.map write)
  s!"IntList \x7b values: [{values}] \x7d"

end Sequence

end IntWalk
