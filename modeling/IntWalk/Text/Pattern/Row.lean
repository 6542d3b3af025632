/-!
# Rows of parts

The parts of a pattern stand in rows, and a part can hold a row of its own.  The depth
of a part is the number of parts that lie around its innermost one, itself included;
single characters have none.  Of a row only the number and the depth of its parts are
kept.
-/

namespace IntWalk.Text.Pattern

/-- Parts that stand in a row. -/
structure Row where
  /-- How many parts there are. -/
  count : Nat
  /-- The greatest depth of a part. -/
  depth : Nat
deriving DecidableEq, Repr

namespace Row

/-- The row without parts. -/
def empty : Row := ⟨0, 0⟩

/-- The row with one more part of that depth. -/
def add (r : Row) (depth : Nat) : Row := ⟨r.count + 1, max r.depth depth⟩

/-- The depth of the row as a part: a row of one is just that part. -/
def total (r : Row) : Nat := if r.count ≤ 1 then r.depth else r.depth + 1

end Row

end IntWalk.Text.Pattern
