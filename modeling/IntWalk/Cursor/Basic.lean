import IntWalk.Cursor.Progress
import IntWalk.Step

/-!
# Cursors

A cursor walks the elements of a collection one at a time and can remove the
element it gave out last.  Three calls make a cursor: `hasNext` asks whether an
element is left, `next` gives it out, `remove` takes it out of the collection.
A call may change the cursor even where one would not expect it, so nothing is
assumed about how the answers hang together.

The one assumption is that a walk ends: `budget` bounds how often a cursor can
still say that an element is left and then give it out.  Loops over a cursor
recurse on it.
-/

namespace IntWalk

/-- A walk over elements of type `α` that reports events of type `ε`. -/
class Cursor (σ : Type) (ε α : outParam Type) where
  /-- Whether an element is left. -/
  hasNext : σ → Step ε σ Bool
  /-- Gives out the next element. -/
  next : σ → Step ε σ (Except WalkError α)
  /-- Takes the element given out last out of the collection. -/
  remove : σ → Step ε σ (Except WalkError Unit)
  /-- A bound on the elements that can still be announced and given out. -/
  budget : σ → Nat
  /-- An element announced and given out is paid for. -/
  budget_next_lt : ∀ {s : σ} {v : α}, (hasNext s).answer = true →
    (next (hasNext s).after).answer = .ok v →
    budget (next (hasNext s).after).after < budget s
  /-- Removing costs nothing but gives nothing back. -/
  budget_remove_le : ∀ s : σ, budget (remove s).after ≤ budget s

end IntWalk
