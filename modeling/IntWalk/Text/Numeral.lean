/-!
# Numerals

Integers as they are typed: decimal digits, at least one, after an optional sign.
Nothing else may stand before, between or after the digits.
-/

namespace IntWalk.Text

/-- The number that the digits make up. -/
def digits? (cs : List Char) : Option Nat :=
  if cs.isEmpty || !cs.all Char.isDigit then none else some (Nat.ofDigitChars 10 cs 0)

/-- A number that may have either sign. -/
def signed? (s : String) : Option Int :=
  match s.toList with
  | '+' :: cs => (digits? cs).map fun n => n
  | '-' :: cs => (digits? cs).map fun n => -n
  | cs => (digits? cs).map fun n => n

/-- A number that may have a plus sign. -/
def unsigned? (s : String) : Option Nat :=
  match s.toList with
  | '+' :: cs => digits? cs
  | cs => digits? cs

/-- Whether the text is a minus sign with digits after it. -/
def isNegative (s : String) : Bool :=
  match s.toList with
  | '-' :: cs => (digits? cs).isSome
  | _ => false

/-- The value of a hexadecimal digit. -/
def hexDigit? (c : Char) : Option Nat :=
  if '0' ≤ c ∧ c ≤ '9' then some (c.toNat - '0'.toNat)
  else if 'a' ≤ c ∧ c ≤ 'f' then some (c.toNat - 'a'.toNat + 10)
  else if 'A' ≤ c ∧ c ≤ 'F' then some (c.toNat - 'A'.toNat + 10)
  else none

end IntWalk.Text
