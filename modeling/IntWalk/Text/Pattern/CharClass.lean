import IntWalk.Text.Pattern.Atom
import IntWalk.Text.Pattern.Row

/-!
# Classes of characters

A class stands in brackets.  It holds characters, ranges between two characters, named
classes and other classes in brackets, and operators that combine what stands to their
left with what stands to their right.  A sign at its beginning negates it.

A class that is read by bytes must not be negated, since it would then go beyond ASCII.
-/

namespace IntWalk.Text.Pattern

/-- The names of the classes of ASCII characters. -/
def classNames : List String :=
  ["alnum", "alpha", "ascii", "blank", "cntrl", "digit", "graph", "lower", "print", "punct",
    "space", "upper", "word", "xdigit"]

/-- Passes a named class after its bracket, and says whether it is negated. -/
def named? : List Char → Option (Bool × List Char)
  | ':' :: cs =>
    let negated := cs.head? == some '^'
    let cs := if negated then cs.tail else cs
    match cs.dropWhile (· != ':') with
    | ':' :: ']' :: rest =>
      if classNames.contains (String.ofList (cs.takeWhile (· != ':'))) then some (negated, rest)
      else none
    | _ => none
  | _ => none

/-- Whether the atom can be a member of a class. -/
def Atom.isMember (m : Mode) : Atom → Bool
  | char c => m.unicode || c.toNat < 0x80
  | charClass => true
  | position => false

/-- Reads an atom of a class. -/
def atom? (m : Mode) : List Char → Option (Atom × List Char)
  | [] => none
  | '\\' :: cs => escape? m cs
  | c :: cs => some (.char c, cs)

/-- Passes a member of a class, which is an atom or a range between two characters.  A
dash does not make a range before the end of the class or before another dash. -/
def passMember (m : Mode) (cs : List Char) : Option (List Char) := do
  let (p, rest) ← atom? m cs
  let single := if p.isMember m then some (m.pass rest) else none
  match m.pass rest with
  | '-' :: further =>
    if [some ']', some '-'].contains (m.peek? further) then single
    else
      match p, ← atom? m (m.pass further) with
      | .char low, (.char high, rest) =>
        if low ≤ high && (Atom.char high).isMember m then some rest else none
      | _, _ => none
  | _ => single

/-! ## Brackets -/

/-- What has been read of a class. -/
structure Bracket where
  /-- The depth of what stands to the left of the last operator. -/
  left : Option Nat
  /-- What stands to its right, or in the class so far. -/
  row : Row
deriving DecidableEq, Repr

namespace Bracket

/-- The class at its beginning. -/
def empty : Bracket := ⟨none, .empty⟩

/-- The class with one more member of that depth. -/
def add (b : Bracket) (depth : Nat) : Bracket := { b with row := b.row.add depth }

/-- The depth of what is in the class. -/
def depth (b : Bracket) : Nat :=
  match b.left with
  | none => b.row.total
  | some left => max left b.row.total + 1

/-- The class after an operator, which takes all that stands to its left. -/
def operator (b : Bracket) : Bracket := ⟨some b.depth, .empty⟩

end Bracket

/-- Where in a class a reader is. -/
inductive Place where
  /-- At its beginning. -/
  | start
  /-- After dashes at its beginning, which stand for themselves. -/
  | dashes
  /-- Further on. -/
  | inside
deriving DecidableEq, Repr

/-- Passes the sign that negates a class. -/
def passNegation (m : Mode) (cs : List Char) : Option (List Char) :=
  match m.pass cs with
  | '^' :: rest => if m.unicode then some rest else none
  | rest => some rest

/-- Reads a class after its beginning in so many steps, with other classes around it, and
gives the depth of the outermost one. -/
def classWithin? (m : Mode) :
    Nat → Place → Bracket → List Bracket → List Char → Option (Nat × List Char)
  | 0, _, _, _, _ => none
  | steps + 1, place, b, outer, cs =>
    let member := fun place rest =>
      if m.readsCharacters then classWithin? m steps place (b.add 0) outer rest else none
    match place, m.pass cs with
    | _, [] => none
    | .start, '-' :: rest | .dashes, '-' :: rest => member .dashes rest
    | .start, ']' :: rest => member .inside rest
    | _, ']' :: rest =>
      match outer with
      | [] => some (b.depth + 1, rest)
      | around :: outer => classWithin? m steps .inside (around.add (b.depth + 1)) outer rest
    | _, '&' :: '&' :: rest | _, '-' :: '-' :: rest | _, '~' :: '~' :: rest =>
      classWithin? m steps .inside b.operator outer rest
    | _, '[' :: rest =>
      match named? rest with
      | some (negated, rest) => if negated && !m.unicode then none else member .inside rest
      | none => (passNegation m rest).bind (classWithin? m steps .start .empty (b :: outer))
    | _, rest => (passMember m rest).bind (member .inside)

/-- Reads a class after its bracket, and gives its depth. -/
def class? (m : Mode) (cs : List Char) : Option (Nat × List Char) :=
  (passNegation m cs).bind (classWithin? m cs.length .start .empty [])

end IntWalk.Text.Pattern
