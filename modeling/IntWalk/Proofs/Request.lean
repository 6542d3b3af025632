import IntWalk.Error

/-!
# Requests to a set

What can be asked of a set of numbers, kept as data: a run of a program is then a
list of requests, and a statement about every run speaks about every such list.
-/

namespace IntWalk

/-- A request to a set of numbers of type `α`. -/
inductive Request (α : Type) where
  /-- Make a number a member. -/
  | insert (v : α)
  /-- Make a number given with its sign a member. -/
  | insertSigned (v : Int)
  /-- Make a number no member. -/
  | remove (v : α)
  /-- Whether a number is a member. -/
  | contains (v : α)
  /-- How many members there are. -/
  | size
  /-- Whether there is no member. -/
  | isEmpty
deriving DecidableEq, Repr

/-- The answer to a request. -/
inductive Answer where
  /-- Yes or no. -/
  | flag (b : Bool)
  /-- Whether a number was new, or why it was refused. -/
  | stored (r : Except StoreError Bool)
  /-- A number of members. -/
  | total (n : Nat)

end IntWalk
