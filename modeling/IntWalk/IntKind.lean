/-!
# Kinds of integers

A kind of integer is a width, with or without a sign.  There are twelve: each of
six widths in both forms.  A value of a kind carries the proof that it is in the
kind's range.
-/

namespace IntWalk

/-- The widths of integers; `word` is that of a machine word. -/
inductive Width where
  | byte
  | half
  | single
  | double
  | quad
  | word
deriving DecidableEq, Repr

/-- How many values there are: twice as many with each bit more, of which a byte has
8, a machine word 64, and each other width twice as many as the one before it. -/
def Width.count : Width → Int
  | byte => 0x100
  | half => 0x10000
  | single => 0x100000000
  | double => 0x10000000000000000
  | quad => 0x100000000000000000000000000000000
  | word => 0x10000000000000000

/-- A kind of integer. -/
structure IntKind where
  /-- Whether there are negative values. -/
  signed : Bool
  /-- How many bits a value has. -/
  width : Width
deriving DecidableEq, Repr

namespace IntKind

/-- The least value. -/
def least (k : IntKind) : Int := if k.signed then -(k.width.count / 2) else 0

/-- The greatest value. -/
def greatest (k : IntKind) : Int :=
  if k.signed then k.width.count / 2 - 1 else k.width.count - 1

/-- An integer in the range of the kind. -/
structure Value (k : IntKind) where
  /-- The integer. -/
  toInt : Int
  inRange : k.least ≤ toInt ∧ toInt ≤ k.greatest
deriving DecidableEq, Repr

namespace Value

variable {k : IntKind}

/-- The integer as a value of the kind, if it is in its range. -/
def ofInt? (k : IntKind) (v : Int) : Option k.Value :=
  if h : k.least ≤ v ∧ v ≤ k.greatest then some ⟨v, h⟩ else none

@[ext] theorem ext {a b : k.Value} (h : a.toInt = b.toInt) : a = b := by
  cases a
  cases b
  simpa using h

@[simp] theorem ofInt?_toInt (v : k.Value) : ofInt? k v.toInt = some v := by
  simp [ofInt?, v.inRange]

instance : Max k.Value := ⟨fun a b => if a.toInt ≤ b.toInt then b else a⟩

end Value

end IntKind

end IntWalk
