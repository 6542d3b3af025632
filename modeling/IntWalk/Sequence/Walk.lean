import IntWalk.Cursor.Basic
import IntWalk.Event
import IntWalk.Sequence.Basic

/-!
# Walking over a sequence

A walk cuts its sequence in two: what lies behind, the value given out last
first, and what lies ahead.  Giving a value out moves it across the cut, and a
removal takes away the value next to the cut, so neither has to look at the rest.
-/

namespace IntWalk.Sequence

/-- A walk over the values of a sequence. -/
structure Walk (α : Type) where
  /-- The values given out and kept, the latest first. -/
  behind : List α
  /-- The values still to be given out, in order. -/
  ahead : List α
  /-- How far the walk has come. -/
  progress : Progress
deriving DecidableEq, Repr

/-- A walk that has not begun. -/
def walk {α : Type} (s : Sequence α) : Walk α := ⟨[], s.values, .fresh⟩

namespace Walk

variable {α : Type}

/-- The sequence as it is now. -/
def sequence (w : Walk α) : Sequence α := ⟨w.behind.reverse ++ w.ahead⟩

/-- The index of the next value. -/
def position (w : Walk α) : Nat := w.behind.length

/-- How many values are still to be given out. -/
def remaining (w : Walk α) : Nat := w.ahead.length

theorem size_sequence (w : Walk α) : w.sequence.size = w.position + w.remaining := by
  simp [sequence, size, position, remaining]

/-- Whether a value is left. -/
def hasNext (w : Walk α) : Step Event (Walk α) Bool := .still (!w.ahead.isEmpty) w

/-- Gives out the next value. -/
def next (w : Walk α) : Step Event (Walk α) (Except WalkError α) :=
  match w.ahead with
  | [] => ⟨.error (.exhausted w.progress.yielded), w, [.exhausted w.progress.yielded]⟩
  | v :: ahead => .still (.ok v) ⟨v :: w.behind, ahead, w.progress.advance⟩

/-- Takes the value given out last out of the sequence. -/
def remove (w : Walk α) : Step Event (Walk α) (Except WalkError Unit) :=
  match w.progress.claimRemoval with
  | .error why => .still (.error (.refused why)) w
  | .ok progress =>
    let t := { w with behind := w.behind.tail, progress }
    ⟨.ok (), t, [.removedAt t.position t.sequence.size]⟩

theorem remaining_next_lt {w : Walk α} {v : α} (h : w.next.answer = .ok v) :
    w.next.after.remaining < w.remaining := by
  unfold next at h ⊢
  cases ha : w.ahead with
  | nil => simp [ha] at h
  | cons u ahead => simp [remaining, ha]

@[simp] theorem remaining_remove (w : Walk α) : w.remove.after.remaining = w.remaining := by
  unfold remove
  split <;> rfl

instance : Cursor (Walk α) Event α where
  hasNext := hasNext
  next := next
  remove := remove
  budget := remaining
  budget_next_lt _ h := remaining_next_lt h
  budget_remove_le w := Nat.le_of_eq (remaining_remove w)

end Walk

end IntWalk.Sequence
