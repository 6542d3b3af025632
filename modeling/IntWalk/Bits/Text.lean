import IntWalk.Bits.Basic
import IntWalk.Json.Reader

/-!
# Bit sets as text

A bit set is stored as words of 64 digits, the lowest digit first.  Value `v` has
the digit at place `head + v`, counted through the words.  Beside the words stand
the order of the digits, the width of a word, the head, the number of digits and
the size of the set.

Reading takes any head and any number of words that hold the digits, and drops
whatever lies outside of them.  The size must be the number of members.
-/

namespace IntWalk

open Json

/-! ## Words -/

namespace Ones

/-- How many digits a word has. -/
def wordWidth : Nat := 64

/-- The number cut into `n` words, the lowest first. -/
def words : Nat → Nat → List Nat
  | 0, _ => []
  | n + 1, m => truncate m wordWidth :: words n (m >>> wordWidth)

/-- The number that the words make up, the lowest first. -/
def ofWords : List Nat → Nat
  | [] => 0
  | w :: ws => w ||| (ofWords ws <<< wordWidth)

end Ones

/-- The written parts of a bit set. -/
structure StoredBits where
  /-- The place of the digit for zero. -/
  head : Nat
  /-- How many digits there are. -/
  bits : Nat
  /-- The words that hold the digits. -/
  words : List Nat
  /-- How many of the digits are one. -/
  size : Nat
deriving DecidableEq, Repr

namespace StoredBits

/-- The name of the order of digits that starts with the lowest. -/
def lowestFirst : String := "bitvec::order::Lsb0"

/-- The parts as they are stored. -/
def tokens (b : StoredBits) : List Token :=
  let head := Token.object
    [("width", [Token.ofNat Ones.wordWidth]), ("index", [Token.ofNat b.head])]
  let bits := Token.object
    [("order", [Token.name lowestFirst]), ("head", head), ("bits", [Token.ofNat b.bits]),
      ("data", Token.array (b.words.map fun w => [Token.ofNat w]))]
  Token.object [("bits", bits), ("len", [Token.ofNat b.size])]

/-! ## Reading the parts -/

/-- The greatest number of 64 bits. -/
def largest : Nat := UInt64.size - 1

/-- Refuses all values but the given one. -/
def exactly {α : Type} [DecidableEq α] (expected found : α) : Reader Unit :=
  if found = expected then return () else throw .malformed

/-- The fields of a stored head. -/
def headFields : List (Reader.Field StoredBits) :=
  [⟨"width", fun b => do
      exactly Ones.wordWidth (← Reader.natural 255)
      return b⟩,
    ⟨"index", fun b => do return { b with head := ← Reader.natural 255 }⟩]

/-- The fields of the stored digits. -/
def bitsFields : List (Reader.Field StoredBits) :=
  [⟨"order", fun b => do
      exactly lowestFirst (← Reader.string)
      return b⟩,
    ⟨"head", fun b => Reader.record headFields false b⟩,
    ⟨"bits", fun b => do return { b with bits := ← Reader.natural largest }⟩,
    ⟨"data", fun b => do return { b with words := ← Reader.array (Reader.natural largest) }⟩]

/-- The fields of a stored bit set. -/
def fields : List (Reader.Field StoredBits) :=
  [⟨"bits", fun b => do
      let b ← Reader.record bitsFields false b
      if b.head < Ones.wordWidth ∧ b.head + b.bits ≤ Ones.wordWidth * b.words.length then return b
      else throw .malformed⟩,
    ⟨"len", fun b => do return { b with size := ← Reader.natural largest }⟩]

/-- The digits as one number, that for zero lowest. -/
def mask (b : StoredBits) : Nat := Ones.truncate (Ones.ofWords b.words >>> b.head) b.bits

/-- The set that the parts describe. -/
def toBitSet (b : StoredBits) : Except Inconsistency BitSet :=
  let counted := Ones.count b.mask
  if b.size = counted then
    .ok ⟨b.bits, ⟨b.head % 64, Nat.mod_lt _ (by decide)⟩, b.mask, b.size, Ones.below_truncate _ _⟩
  else .error (.sizeMismatch b.size counted)

end StoredBits

namespace BitSet

/-- The written parts of the set. -/
def stored (s : BitSet) : StoredBits :=
  let count := (s.head + s.capacity + (Ones.wordWidth - 1)) / Ones.wordWidth
  ⟨s.head, s.capacity, Ones.words count (s.mask <<< s.head.val), s.size⟩

/-- A stored bit set. -/
def reader : Reader BitSet := do
  let b ← Reader.record StoredBits.fields true ⟨0, 0, [], 0⟩
  match b.toBitSet with
  | .ok s => return s
  | .error why => throw (.inconsistent why)

/-- The set as text. -/
def encode (s : BitSet) : String := Token.text s.stored.tokens

/-- The set in the text. -/
def decode (text : String) : Except Fault BitSet := Reader.decode reader text

end BitSet

end IntWalk
