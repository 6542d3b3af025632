import IntWalk.Bits.Ones
import IntWalk.Error
import IntWalk.Event
import IntWalk.Step

/-!
# Bit sets

A bit set holds natural numbers below a fixed capacity, one binary digit for
each.  All digits together are one number, the mask, and the members are its
ones.  The size is kept beside the mask, so it need not be counted.

In stored words the digits may begin at another place than the first; this place
is the head.  No operation but writing the words looks at it.
-/

namespace IntWalk

/-- How many values a bit set has room for: a positive 64-bit number. -/
structure Capacity where
  /-- The values below this one have room. -/
  count : Nat
  pos : 0 < count
  fits : count < UInt64.size
deriving DecidableEq, Repr

namespace Capacity

/-- Room for the values below `n`. -/
def ofCount (n : Nat) : Except StoreError Capacity :=
  if pos : 0 < n then
    if fits : n < UInt64.size then .ok ⟨n, pos, fits⟩
    else .error (.badCapacity (.noRoom (n - 1)))
  else .error (.badCapacity .zero)

/-- The least room in which `largest` has a place. -/
def ofLargest (largest : Nat) : Except StoreError Capacity := ofCount (largest + 1)

/-- The capacity written for a developer to read. -/
def inspect (c : Capacity) : String := s!"BitSetConfig \x7b capacity: {c.count} \x7d"

end Capacity

/-- A set of numbers below a capacity. -/
structure BitSet where
  /-- The members lie below this number. -/
  capacity : Nat
  /-- The place of the digit for zero in the first stored word. -/
  head : Fin 64
  /-- The digits, that for zero lowest. -/
  mask : Nat
  /-- How many members there are. -/
  size : Nat
  within : Ones.Below mask capacity
deriving Repr

namespace BitSet

/-- Two sets are the same if they agree on capacity, members and size.  The head
does not count. -/
instance : BEq BitSet :=
  ⟨fun a b => a.capacity == b.capacity && a.mask == b.mask && a.size == b.size⟩

theorem beq_iff {a b : BitSet} :
    (a == b) = true ↔ a.capacity = b.capacity ∧ a.mask = b.mask ∧ a.size = b.size := by
  change (_ && _ && _) = true ↔ _
  simp [and_assoc]

/-- A number is in the set if its digit is one. -/
instance : Membership Nat BitSet := ⟨fun s v => s.mask.testBit v = true⟩

theorem mem_def {v : Nat} {s : BitSet} : v ∈ s ↔ s.mask.testBit v = true := Iff.rfl

theorem lt_capacity_of_mem {v : Nat} {s : BitSet} (h : v ∈ s) : v < s.capacity :=
  s.within v h

/-- The set without members and without room for any. -/
def empty : BitSet := ⟨0, 0, 0, 0, Ones.below_zero 0⟩

instance : Inhabited BitSet := ⟨empty⟩

/-- The set without members that has the given room. -/
def ofCapacity (c : Capacity) : BitSet := ⟨c.count, 0, 0, 0, Ones.below_zero _⟩

/-- The members in ascending order. -/
def toList (s : BitSet) : List Nat := Ones.listFrom s.mask 0

/-- Whether the number is a member. -/
def contains (s : BitSet) (v : Nat) : Bool := decide (v < s.capacity) && s.mask.testBit v

/-- Whether there is no member. -/
def isEmpty (s : BitSet) : Bool := s.size == 0

/-- Makes a number a member, and says whether it was none before. -/
def insert (s : BitSet) (v : Nat) : Step Event BitSet (Except StoreError Bool) :=
  if room : v < s.capacity then
    let present := s.mask.testBit v
    .still (.ok !present)
      { s with
        mask := Ones.set s.mask v
        size := if present then s.size else s.size + 1
        within := Ones.below_set s.within room }
  else .still (.error (.outOfRange v s.capacity)) s

/-- The greatest number that has a place in any bit set. -/
def largestValue : Nat := UInt64.size - 1

/-- Makes a number given with its sign a member. -/
def insertSigned (s : BitSet) (v : Int) : Step Event BitSet (Except StoreError Bool) :=
  if v < 0 then .still (.error (.negative v)) s
  else if largestValue < v then .still (.error (.tooLarge v largestValue)) s
  else s.insert v.toNat

/-- Clears the digit of a number, whether it is a member or not. -/
def clear (s : BitSet) (v : Nat) : BitSet :=
  { s with
    mask := Ones.clear s.mask v
    size := s.size - 1
    within := Ones.below_clear s.within v }

/-- Makes a number no member, and says whether it was one. -/
def remove (s : BitSet) (v : Nat) : Step Event BitSet Bool :=
  if s.contains v then .still true (s.clear v) else .still false s

/-- Makes all the numbers members, up to the first that has no room. -/
def insertAll : List Nat → BitSet → Except StoreError BitSet
  | [], s => .ok s
  | v :: vs, s =>
    let x := s.insert v
    match x.answer with
    | .ok _ => insertAll vs x.after
    | .error e => .error e

/-- The least set that has the numbers as its members. -/
def ofList (values : List Nat) : Except StoreError BitSet :=
  match values.max? with
  | none => .ok empty
  | some largest =>
    match Capacity.ofLargest largest with
    | .ok c => insertAll values (ofCapacity c)
    | .error e => .error e

end BitSet

end IntWalk
