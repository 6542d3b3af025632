import IntWalk.Cursor.Basic

/-!
# A cursor as a stream of values

A walk can be read as a plain stream: `value?` gives the next element, or nothing
once none is left or the cursor fails to give one.  The other functions read
several elements; each stops at the first time that `value?` gives nothing, and
none reads further than its answer needs.
-/

namespace IntWalk.Cursor

variable {σ ε α : Type} [Cursor σ ε α]

/-- The next element, or nothing where the stream ends. -/
def value? (s : σ) : Step ε σ (Option α) :=
  (hasNext s).andThen fun more t =>
    if more then (next t).map Except.toOption else .still none t

theorem budget_value?_lt {s : σ} {v : α} (h : (value? s).answer = some v) :
    budget (value? s).after < budget s := by
  unfold value? at h ⊢
  by_cases more : (hasNext s).answer = true
  · simp only [more, Step.andThen_answer, Step.andThen_after, if_true, Step.map_answer,
      Step.map_after] at h ⊢
    cases got : (next (hasNext s).after).answer with
    | error e => simp [got, Except.toOption] at h
    | ok w => exact budget_next_lt more got
  · simp [more] at h

/-- All elements left, in order. -/
def drain (s : σ) : Step ε σ (List α) :=
  let first := value? s
  match _got : first.answer with
  | none => ⟨[], first.after, first.events⟩
  | some v => ((drain first.after).map (v :: ·)).preceded first.events
termination_by budget s
decreasing_by exact budget_value?_lt _got

/-- Up to `n` elements, in order. -/
def take : Nat → σ → Step ε σ (List α)
  | 0, s => .still [] s
  | n + 1, s =>
    (value? s).andThen fun
      | none, t => .still [] t
      | some v, t => (take n t).map (v :: ·)

/-- The element after the next `n`. -/
def nth : Nat → σ → Step ε σ (Option α)
  | 0, s => value? s
  | n + 1, s =>
    (value? s).andThen fun
      | none, t => .still none t
      | some _, t => nth n t

/-- How many elements are left; all of them are read. -/
def count (s : σ) : Step ε σ Nat := (drain s).map List.length

/-- The greatest element left; all of them are read. -/
def greatest? [Max α] (s : σ) : Step ε σ (Option α) := (drain s).map List.max?

end IntWalk.Cursor
