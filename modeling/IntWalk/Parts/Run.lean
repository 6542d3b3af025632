import IntWalk.Parts.Part

/-!
# Runs of parts

A run is a stretch of consecutive parts, from its first to its last, both
included.
-/

namespace IntWalk

/-- A stretch of parts.  A run whose first part lies beyond its last holds nothing. -/
structure Run where
  /-- The first part of the run. -/
  first : Part
  /-- The last part of the run. -/
  last : Part
deriving DecidableEq, Repr, Inhabited

namespace Run

/-- The run of one part. -/
def single (part : Part) : Run := ⟨part, part⟩

/-- Whether the part lies in the run. -/
def contains (r : Run) (part : Part) : Bool :=
  decide (r.first ≤ part) && decide (part ≤ r.last)

instance : Membership Part Run := ⟨fun r part => r.first ≤ part ∧ part ≤ r.last⟩

theorem mem_def {r : Run} {part : Part} : part ∈ r ↔ r.first ≤ part ∧ part ≤ r.last := Iff.rfl

instance (part : Part) (r : Run) : Decidable (part ∈ r) :=
  inferInstanceAs (Decidable (r.first ≤ part ∧ part ≤ r.last))

@[simp] theorem contains_iff {r : Run} {part : Part} : r.contains part = true ↔ part ∈ r := by
  simp [contains, mem_def]

/-- How many parts the run holds. -/
def size (r : Run) : Nat := r.last.toNat + 1 - r.first.toNat

theorem size_eq {r : Run} (h : r.first ≤ r.last) :
    r.size = r.last.toNat - r.first.toNat + 1 := by
  have := UInt32.le_iff_toNat_le.1 h
  unfold size
  omega

/-- How many parts the runs hold, each counted by itself. -/
def total : List Run → Nat
  | [] => 0
  | r :: rs => r.size + total rs

/-- What is left of the run without one of its parts: nothing, a shorter run, or
a run on either side. -/
def without (r : Run) (part : Part) : List Run :=
  (if r.first < part then [⟨r.first, part - 1⟩] else []) ++
    (if part < r.last then [⟨part + 1, r.last⟩] else [])

/-- The run written for a developer to read. -/
def inspect (r : Run) : String :=
  s!"PartRange \x7b first: {r.first.toNat}, last: {r.last.toNat} \x7d"

end Run

end IntWalk
