import IntWalk.Parts.Run

/-!
# What can go wrong

Errors are kept as causes.  `WalkError` belongs to cursors, `StoreError` to the
collections.  `message` is the one place that words each of them.
-/

namespace IntWalk

/-- Why a cursor refuses to remove. -/
inductive Refusal where
  /-- No element has been given out so far. -/
  | nothingReturned
  /-- The element given out last is gone already. -/
  | alreadyRemoved
deriving DecidableEq, Repr

/-- The refusal in words. -/
def Refusal.message : Refusal → String
  | nothingReturned => "no element has been returned yet"
  | alreadyRemoved => "current element was already removed"

/-- What a call on a cursor fails with. -/
inductive WalkError where
  /-- There was no element left after `yielded` of them. -/
  | exhausted (yielded : Nat)
  /-- There was no element to remove. -/
  | refused (why : Refusal)
deriving DecidableEq, Repr

namespace WalkError

/-- The error in words. -/
def message : WalkError → String
  | exhausted yielded => s!"iterator exhausted after {yielded} elements"
  | refused why => "invalid removal state: " ++ why.message

/-- Whether the walk had run out of elements. -/
def isExhausted : WalkError → Bool
  | exhausted _ => true
  | refused _ => false

/-- Whether a removal was out of turn. -/
def isRefused : WalkError → Bool
  | exhausted _ => false
  | refused _ => true

end WalkError

/-- How stored data contradict the rules of their collection. -/
inductive Inconsistency where
  /-- The stored size of a bit set is not the number of its members. -/
  | sizeMismatch (stored counted : Nat)
  /-- A stored run begins after its end. -/
  | reversedRun (r : Run)
  /-- Two neighbouring runs leave no part free between them. -/
  | unseparatedRuns (a b : Run)
  /-- Any other contradiction, in the words of whoever found it. -/
  | other (text : String)
deriving DecidableEq, Repr

/-- The contradiction in words. -/
def Inconsistency.message : Inconsistency → String
  | sizeMismatch stored counted =>
    s!"bit set length {stored} does not match population {counted}"
  | reversedRun r => s!"part range starts at {r.first.toNat} after its end {r.last.toNat}"
  | unseparatedRuns a b =>
    s!"part ranges {a.first.toNat}..={a.last.toNat} and {b.first.toNat}..={b.last.toNat} "
      ++ "overlap, touch or are out of order"
  | other text => text

/-- Why a capacity is refused. -/
inductive BadCapacity where
  /-- A bit set needs room for at least one value. -/
  | zero
  /-- One more than the largest value is not a 64-bit number. -/
  | noRoom (largest : Nat)
  /-- Any other reason, in the words of whoever found it. -/
  | other (text : String)
deriving DecidableEq, Repr

/-- The reason in words. -/
def BadCapacity.message : BadCapacity → String
  | zero => "capacity must be > 0"
  | noRoom largest => s!"max value {largest} leaves no room for a capacity"
  | other text => text

/-- What building or changing a collection fails with. -/
inductive StoreError where
  /-- The value does not lie below the capacity. -/
  | outOfRange (value capacity : Nat)
  /-- The value is negative. -/
  | negative (value : Int)
  /-- The value lies above the largest that the collection can hold. -/
  | tooLarge (value : Int) (largest : Nat)
  /-- Stored data contradict themselves. -/
  | inconsistent (why : Inconsistency)
  /-- The capacity asked for cannot be had. -/
  | badCapacity (why : BadCapacity)
deriving DecidableEq, Repr

/-- The error in words. -/
def StoreError.message : StoreError → String
  | outOfRange value capacity => s!"value {value} out of range for capacity {capacity}"
  | negative value => s!"negative value {value} is not representable"
  | tooLarge value largest => s!"value {value} exceeds the largest representable value {largest}"
  | inconsistent why => "inconsistent collection state: " ++ why.message
  | badCapacity why => "invalid collection configuration: " ++ why.message

end IntWalk
