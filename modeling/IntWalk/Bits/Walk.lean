import IntWalk.Bits.Basic
import IntWalk.Cursor.Basic

/-!
# Walking over a bit set

The walk gives out the members in ascending order.  Its place is one past the
member given out last, and it looks for the next one from there, so a removal
needs no care for what is still to come.
-/

namespace IntWalk.BitSet

/-- A walk over the members of a set. -/
structure Walk where
  /-- The set as it is now. -/
  bits : BitSet
  /-- One past the member given out last. -/
  scanFrom : Nat
  /-- How far the walk has come. -/
  progress : Progress
deriving Repr

/-- A walk that has not begun. -/
def walk (s : BitSet) : Walk := ⟨s, 0, .fresh⟩

namespace Walk

/-- The member that would be given out next. -/
def peek (w : Walk) : Option Nat := Ones.nextFrom? w.bits.mask w.scanFrom

/-- Whether a member is left. -/
def hasNext (w : Walk) : Step Event Walk Bool := .still w.peek.isSome w

/-- Gives out the next member. -/
def next (w : Walk) : Step Event Walk (Except WalkError Nat) :=
  match w.peek with
  | none => ⟨.error (.exhausted w.progress.yielded), w, [.exhausted w.progress.yielded]⟩
  | some v => .still (.ok v) { w with scanFrom := v + 1, progress := w.progress.advance }

/-- Takes the member given out last out of the set. -/
def remove (w : Walk) : Step Event Walk (Except WalkError Unit) :=
  match w.progress.claimRemoval with
  | .error why => .still (.error (.refused why)) w
  | .ok progress =>
    let v := w.scanFrom - 1
    let bits := w.bits.clear v
    ⟨.ok (), { w with bits, progress }, [.cleared v bits.size]⟩

/-- How many numbers the walk has not passed. -/
def budget (w : Walk) : Nat := w.bits.capacity - w.scanFrom

theorem budget_next_lt {w : Walk} {v : Nat} (h : w.next.answer = .ok v) :
    w.next.after.budget < w.budget := by
  unfold next at h ⊢
  cases hp : w.peek with
  | none => simp [hp] at h
  | some u =>
    obtain ⟨le, one, -⟩ := Ones.nextFrom?_eq_some_iff.1 hp
    have := lt_capacity_of_mem (s := w.bits) one
    simp only [Step.still_after, budget]
    omega

@[simp] theorem budget_remove (w : Walk) : w.remove.after.budget = w.budget := by
  unfold remove
  split <;> rfl

instance : Cursor Walk Event Nat where
  hasNext := hasNext
  next := next
  remove := remove
  budget := budget
  budget_next_lt _ h := budget_next_lt h
  budget_remove_le w := Nat.le_of_eq (budget_remove w)

end Walk

end IntWalk.BitSet
