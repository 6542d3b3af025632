import IntWalk.Cursor.Filter
import IntWalk.Cursor.Values

/-!
# Calls as data

Whatever can be asked of a cursor, kept as a value: a walk is then a list of
calls, and a statement about every walk speaks about every such list.  `perform`
runs one call and `performAll` a list of them.
-/

namespace IntWalk

/-- A call on a cursor over elements of type `α`. -/
inductive Call (α : Type) where
  /-- Whether an element is left. -/
  | hasNext
  /-- The next element. -/
  | next
  /-- Take out the element given out last. -/
  | remove
  /-- Give away up to `n` elements. -/
  | skip (n : Nat)
  /-- Remove the elements that the chooser picks. -/
  | removeIf (choose : Chooser α)
  /-- The next element of the stream. -/
  | value
  /-- Up to `n` elements of the stream. -/
  | take (n : Nat)
  /-- The element of the stream after the next `n`. -/
  | nth (n : Nat)
  /-- All elements left. -/
  | drain
  /-- How many elements are left. -/
  | count
  /-- The greatest element left. -/
  | greatest

/-- The answer to a call. -/
inductive Reply (α : Type) where
  /-- Whether an element is left. -/
  | flag (b : Bool)
  /-- An element, or why there is none. -/
  | given (r : Except WalkError α)
  /-- A removal, or why there was none. -/
  | gone (r : Except WalkError Unit)
  /-- How many elements were skipped or counted. -/
  | total (n : Nat)
  /-- The outcome of filtering. -/
  | swept (s : Sweep α)
  /-- An element of the stream, or its end. -/
  | found (v : Option α)
  /-- Elements of the stream. -/
  | values (vs : List α)

namespace Cursor

variable {σ ε α : Type} [Cursor σ ε α] [Max α]

/-- Runs one call. -/
def perform : Call α → σ → Step ε σ (Reply α)
  | .hasNext, s => (hasNext s).map .flag
  | .next, s => (next s).map .given
  | .remove, s => (remove s).map .gone
  | .skip n, s => (skip n s).map .total
  | .removeIf choose, s => (removeIf choose s).map .swept
  | .value, s => (value? s).map .found
  | .take n, s => (take n s).map .values
  | .nth n, s => (nth n s).map .found
  | .drain, s => (drain s).map .values
  | .count, s => (count s).map .total
  | .greatest, s => (greatest? s).map .found

/-- Runs the calls one after another and gives their answers in order. -/
def performAll : List (Call α) → σ → Step ε σ (List (Reply α))
  | [], s => .still [] s
  | c :: cs, s => (perform c s).andThen fun r t => (performAll cs t).map (r :: ·)

end Cursor

end IntWalk
