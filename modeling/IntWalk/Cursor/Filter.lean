import IntWalk.Cursor.Basic

/-!
# Skipping and filtering

Two loops that every cursor has.  `skip` gives up to a number of elements away;
`removeIf` visits every element left and removes those that a chooser picks.
Both ask `hasNext` before each `next`, and stop at the first call that fails.
-/

namespace IntWalk

/-- Picks elements one by one.  It sees the elements it was asked about before,
the latest first, so that its answer may depend on the whole course of the walk. -/
abbrev Chooser (α : Type) := List α → α → Bool

/-- The chooser that looks at nothing but the element. -/
def Chooser.ofElement {α : Type} (p : α → Bool) : Chooser α := fun _ v => p v

/-- What filtering a walk amounts to. -/
structure Sweep (α : Type) where
  /-- How many elements were removed, or what stopped the walk. -/
  removed : Except WalkError Nat
  /-- The elements that the chooser was asked about, in order. -/
  asked : List α
deriving Repr

namespace Cursor

variable {σ ε α : Type} [Cursor σ ε α]

/-- Gives away up to `n` elements and counts them. -/
def skip : Nat → σ → Step ε σ Nat
  | 0, s => .still 0 s
  | n + 1, s =>
    (hasNext s).andThen fun more t =>
      if more then
        (next t).andThen fun
          | .ok _, u => (skip n u).map (· + 1)
          | .error _, u => .still 0 u
      else .still 0 t

/-- Filters the rest of a walk in which `asked` were met, the latest first, and
`removed` of them removed. -/
def sweep (choose : Chooser α) (asked : List α) (removed : Nat) (s : σ) :
    Step ε σ (Sweep α) :=
  let has := hasNext s
  if _more : has.answer = true then
    let given := next has.after
    match _got : given.answer with
    | .error e => ⟨⟨.error e, asked.reverse⟩, given.after, has.events ++ given.events⟩
    | .ok v =>
      if choose asked v then
        let gone := remove given.after
        let events := has.events ++ (given.events ++ gone.events)
        match gone.answer with
        | .error e => ⟨⟨.error e, (v :: asked).reverse⟩, gone.after, events⟩
        | .ok () => (sweep choose (v :: asked) (removed + 1) gone.after).preceded events
      else
        (sweep choose (v :: asked) removed given.after).preceded (has.events ++ given.events)
  else ⟨⟨.ok removed, asked.reverse⟩, has.after, has.events⟩
termination_by budget s
decreasing_by
  · exact Nat.lt_of_le_of_lt (budget_remove_le _) (budget_next_lt _more _got)
  · exact budget_next_lt _more _got

/-- Visits every element left and removes those that the chooser picks. -/
def removeIf (choose : Chooser α) (s : σ) : Step ε σ (Sweep α) := sweep choose [] 0 s

end Cursor

end IntWalk
