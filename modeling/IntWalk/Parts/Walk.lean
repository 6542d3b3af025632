import IntWalk.Cursor.Basic
import IntWalk.Parts.Basic

/-!
# Walking over a part set

The walk gives out the parts in ascending order.  It keeps no place in the runs,
since its own removals change them: it keeps the least part that may still be
given out and looks for the next one from there.
-/

namespace IntWalk.PartSet

/-- A walk over the parts of a set. -/
structure Walk where
  /-- The set as it is now. -/
  parts : PartSet
  /-- The least part that may still be given out; none once the last part was passed. -/
  lower : Option Part
  /-- The part given out last, until it is removed. -/
  current : Option Part
  /-- How far the walk has come. -/
  progress : Progress
deriving DecidableEq, Repr

/-- A walk that has not begun. -/
def walk (s : PartSet) : Walk := ⟨s, some 0, none, .fresh⟩

/-- The least part of the set that is not below `lower`. -/
def leastFrom (s : PartSet) (lower : Part) : Option Part :=
  s.runs[s.firstReaching lower]?.map fun r => if r.first < lower then lower else r.first

theorem le_of_leastFrom {s : PartSet} {lower p : Part} (h : s.leastFrom lower = some p) :
    lower ≤ p := by
  obtain ⟨r, -, rfl⟩ := Option.map_eq_some_iff.1 h
  split
  · exact UInt32.le_refl _
  · next hr => exact UInt32.not_lt.1 hr

namespace Walk

/-- The part that would be given out next. -/
def peek (w : Walk) : Option Part := w.lower.bind w.parts.leastFrom

/-- Whether a part is left. -/
def hasNext (w : Walk) : Step Event Walk Bool := .still w.peek.isSome w

/-- Gives out the next part. -/
def next (w : Walk) : Step Event Walk (Except WalkError Part) :=
  match w.peek with
  | none => ⟨.error (.exhausted w.progress.yielded), w, [.exhausted w.progress.yielded]⟩
  | some p => .still (.ok p)
      { w with lower := p.next?, current := some p, progress := w.progress.advance }

/-- Takes the part given out last out of the set. -/
def remove (w : Walk) : Step Event Walk (Except WalkError Unit) :=
  match w.progress.claimRemoval with
  | .error why => .still (.error (.refused why)) w
  | .ok progress =>
    match w.current with
    | none => .still (.ok ()) { w with progress }
    | some p =>
      let gone := w.parts.remove p
      ⟨.ok (), { w with parts := gone.after, current := none, progress },
        gone.events ++ [.dropped p]⟩

/-- How many part numbers the walk has not passed. -/
def budget (w : Walk) : Nat :=
  match w.lower with
  | none => 0
  | some p => 4294967296 - p.toNat

theorem budget_next_lt {w : Walk} {p : Part} (h : w.next.answer = .ok p) :
    w.next.after.budget < w.budget := by
  unfold next at h ⊢
  cases hp : w.peek with
  | none => simp [hp] at h
  | some q =>
    obtain ⟨l, hl, hq⟩ := Option.bind_eq_some_iff.1 hp
    have lq := UInt32.le_iff_toNat_le.1 (le_of_leastFrom hq)
    have := Part.toNat_lt q
    simp only [Step.still_after, budget, hl]
    cases hn : q.next? with
    | none => simp only; omega
    | some q' =>
      have := Part.next?_eq_some_iff.1 hn
      simp only
      omega

@[simp] theorem budget_remove (w : Walk) : w.remove.after.budget = w.budget := by
  unfold remove
  split
  · rfl
  · split <;> rfl

instance : Cursor Walk Event Part where
  hasNext := hasNext
  next := next
  remove := remove
  budget := budget
  budget_next_lt _ h := budget_next_lt h
  budget_remove_le w := Nat.le_of_eq (budget_remove w)

end Walk

end IntWalk.PartSet
