import IntWalk.Search

/-!
# Stretches of characters

A class of characters is held as stretches of code points, by their bounds in
ascending order: a stretch begins at every other bound, the first included, and
ends before the bound after it.  A last bound without a partner begins a stretch
without end.
-/

namespace IntWalk.Text

/-- Whether the character lies in a stretch: an odd number of bounds is at or below it. -/
def inStretch (bounds : Array Nat) (c : Char) : Bool :=
  boundary (· ≤ c.toNat) bounds % 2 == 1

end IntWalk.Text
