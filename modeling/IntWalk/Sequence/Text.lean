import IntWalk.IntKind
import IntWalk.Json.Reader
import IntWalk.Sequence.Basic

/-!
# Sequences of integers as text

A sequence is stored as an object with the list of its values.  A value must be
in the range of its kind, and a sign before zero is refused by all kinds but the
signed one of 128 bits.
-/

namespace IntWalk

open Json

namespace IntKind

/-- The value with the given sign and magnitude, if the kind has it and reads it. -/
def accept (k : IntKind) (negative : Bool) (magnitude : Nat) : Option k.Value :=
  if negative && magnitude == 0 && !(k.signed && k.width == .quad) then none
  else Value.ofInt? k (if negative then -magnitude else magnitude)

end IntKind

namespace Sequence

variable {k : IntKind}

/-- The sequence as it is stored. -/
def tokens (s : Sequence k.Value) : List Token :=
  Token.object [("values", Token.array (s.values.map fun v => [Token.ofInt v.toInt]))]

/-- The fields of a stored sequence. -/
def fields (k : IntKind) : List (Reader.Field (Sequence k.Value)) :=
  [⟨"values", fun _ => do return ⟨← Reader.array (Reader.number k.accept)⟩⟩]

/-- A stored sequence. -/
def reader (k : IntKind) : Reader (Sequence k.Value) := Reader.record (fields k) true empty

/-- The sequence as text. -/
def encode (s : Sequence k.Value) : String := Token.text s.tokens

/-- The sequence in the text. -/
def decode (k : IntKind) (text : String) : Except Fault (Sequence k.Value) :=
  Reader.decode (reader k) text

end Sequence

end IntWalk
