import IntWalk.Error

/-!
# The progress of a walk

Every cursor keeps the same two facts about its walk: whether the element given
out last may still be removed, and how many elements were given out.  Giving one
out earns the right to remove it, and a removal uses that right up.
-/

namespace IntWalk

/-- What may be done with the element that a cursor gave out last. -/
inductive Standing where
  /-- No element has been given out. -/
  | unread
  /-- The element is still there and may be removed. -/
  | returned
  /-- The element has been removed. -/
  | removed
deriving DecidableEq, Repr

/-- How far a walk has come. -/
structure Progress where
  /-- What may be done with the element given out last. -/
  standing : Standing
  /-- How many elements were given out, those removed later included. -/
  yielded : Nat
deriving DecidableEq, Repr

namespace Progress

/-- The progress of a walk that has not begun. -/
def fresh : Progress := ⟨.unread, 0⟩

/-- One more element was given out. -/
def advance (p : Progress) : Progress := ⟨.returned, p.yielded + 1⟩

/-- Uses up the right to remove, or says why there is none. -/
def claimRemoval (p : Progress) : Except Refusal Progress :=
  match p.standing with
  | .returned => .ok { p with standing := .removed }
  | .unread => .error .nothingReturned
  | .removed => .error .alreadyRemoved

@[simp] theorem fresh_standing : fresh.standing = .unread := rfl

@[simp] theorem fresh_yielded : fresh.yielded = 0 := rfl

@[simp] theorem advance_standing (p : Progress) : p.advance.standing = .returned := rfl

@[simp] theorem advance_yielded (p : Progress) : p.advance.yielded = p.yielded + 1 := rfl

/-- Removal is granted exactly while the last element is there, and counts nothing. -/
theorem claimRemoval_eq_ok_iff {p q : Progress} :
    p.claimRemoval = .ok q ↔ p.standing = .returned ∧ q = ⟨.removed, p.yielded⟩ := by
  rcases p with ⟨s, n⟩
  cases s <;> simp [claimRemoval, eq_comm]

@[simp] theorem claimRemoval_advance (p : Progress) :
    p.advance.claimRemoval = .ok ⟨.removed, p.yielded + 1⟩ := rfl

end Progress

end IntWalk
