import IntWalk.Text.Alphanumeric
import IntWalk.Text.Pattern.CharClass

/-!
# Patterns

A pattern describes texts.  Characters stand for themselves, a point for any
character, brackets for a class of characters; groups, alternatives and repetitions
combine them, and flags change how the characters after them are read.
`Pattern.isWellFormed` says whether a text is a pattern.  Repetitions have no counts
in braces.

The parts of a pattern must not lie too deep in each other.
-/

namespace IntWalk.Text.Pattern

/-! ## Groups -/

/-- What an opening parenthesis begins. -/
inductive Opening where
  /-- A group, which may have a name. -/
  | group (m : Mode) (name : Option (List Char))
  /-- Flags for the rest of the group around them. -/
  | flags (m : Mode)
deriving DecidableEq, Repr

/-- Whether the characters can name a group. -/
def isName : List Char → Bool
  | [] => false
  | c :: cs =>
    (c == '_' || isLetter c) && cs.all fun c => isAlphanumeric c || ['_', '.', '[', ']'].contains c

/-- Reads the name of a group. -/
def name? (cs : List Char) : Option (List Char × List Char) :=
  let name := cs.takeWhile (· != '>')
  match cs.dropWhile (· != '>') with
  | _ :: rest => if isName name then some (name, rest) else none
  | [] => none

/-- Whether the character is a flag, or the dash among the flags. -/
def isFlag (c : Char) : Bool := ['-', 'i', 'm', 's', 'u', 'U', 'R', 'x'].contains c

/-- Reads flags, each of which may be there once.  Those after the dash are turned off. -/
def flags? (m : Mode) (seen : List Char) : List Char → Option (Opening × List Char)
  | [] => none
  | ':' :: rest => if seen.head? == some '-' then none else some (.group m none, rest)
  | ')' :: rest =>
    if seen.isEmpty || seen.head? == some '-' then none else some (.flags m, rest)
  | c :: rest =>
    if !isFlag c || seen.contains c then none
    else flags? (m.set (!seen.contains '-') c) (c :: seen) rest

/-- Reads what stands after an opening parenthesis. -/
def opening? (m : Mode) (cs : List Char) : Option (Opening × List Char) :=
  match m.pass cs with
  | '?' :: 'P' :: '<' :: rest => (name? rest).map fun (n, rest) => (.group m (some n), rest)
  | '?' :: '<' :: rest => (name? rest).map fun (n, rest) => (.group m (some n), rest)
  | '?' :: rest => flags? m [] rest
  | rest => some (.group m none, rest)

/-! ## Alternatives -/

/-- A part of a pattern. -/
structure Part where
  /-- How deep it is. -/
  depth : Nat
  /-- Whether it can be repeated. -/
  repeatable : Bool
deriving DecidableEq, Repr

/-- What has been read of a group, or of the whole pattern. -/
structure Branches where
  /-- The alternatives before the last. -/
  alternatives : Row
  /-- The parts of the last alternative, but for the last one. -/
  earlier : Row
  /-- The last part. -/
  last : Option Part
deriving DecidableEq, Repr

namespace Branches

/-- The group at its beginning. -/
def empty : Branches := ⟨.empty, .empty, none⟩

/-- The parts of the last alternative. -/
def row (b : Branches) : Row := b.last.elim b.earlier (b.earlier.add ·.depth)

/-- The group with one more part. -/
def add (b : Branches) (p : Part) : Branches := { b with earlier := b.row, last := some p }

/-- The group at the beginning of its next alternative. -/
def next (b : Branches) : Branches := ⟨b.alternatives.add b.row.total, .empty, none⟩

/-- The depth of what is in the group. -/
def depth (b : Branches) : Nat := (b.alternatives.add b.row.total).total

/-- The group after its last part is repeated. -/
def repeated (b : Branches) : Option Branches :=
  match b.last with
  | some ⟨depth, true⟩ => some { b with last := some ⟨depth + 1, true⟩ }
  | _ => none

end Branches

/-! ## Whole patterns -/

/-- What a reader of a pattern keeps in mind. -/
structure Reader where
  /-- How it reads. -/
  mode : Mode
  /-- The group that it is in. -/
  branches : Branches
  /-- The groups around that one, and how it reads again in each. -/
  outer : List (Mode × Branches)
  /-- The names of the groups. -/
  names : List (List Char)
deriving DecidableEq, Repr

namespace Reader

/-- The reader at the beginning of a pattern. -/
def start : Reader := ⟨.plain, .empty, [], []⟩

/-- The reader after a part of that depth. -/
def took (r : Reader) (depth : Nat) : Reader := { r with branches := r.branches.add ⟨depth, true⟩ }

/-- The reader after the atom, if it can read it. -/
def atom (r : Reader) : Atom → Option Reader
  | .char _ => if r.mode.readsCharacters then some (r.took 0) else none
  | .charClass | .position => some (r.took 0)

/-- The reader after an opening parenthesis.  No two groups have the same name. -/
def opened (r : Reader) : Opening → Option Reader
  | .flags m => some { r with mode := m, branches := r.branches.add ⟨0, false⟩ }
  | .group m name =>
    if name.any r.names.contains then none
    else some ⟨m, .empty, (r.mode, r.branches) :: r.outer, name.toList ++ r.names⟩

/-- The reader after a closing parenthesis. -/
def closed (r : Reader) : Option Reader :=
  match r.outer with
  | [] => none
  | (m, around) :: outer =>
    some { r with mode := m, branches := around.add ⟨r.branches.depth + 1, true⟩, outer := outer }

/-- Reads the next part of a pattern.  A question mark right after a sign of repetition
belongs to it. -/
def next? (r : Reader) : List Char → Option (Reader × List Char)
  | [] => none
  | '(' :: cs => do
    let (o, rest) ← opening? r.mode cs
    return (← r.opened o, rest)
  | ')' :: cs => r.closed.map (·, cs)
  | '|' :: cs => some ({ r with branches := r.branches.next }, cs)
  | '[' :: cs => (class? r.mode cs).map fun (depth, rest) => (r.took depth, rest)
  | '{' :: _ => none
  | '\\' :: cs => do
    let (p, rest) ← escape? r.mode cs
    return (← r.atom p, rest)
  | '.' :: cs => if r.mode.unicode then some (r.took 0, cs) else none
  | c :: cs =>
    if ['?', '*', '+'].contains c then do
      let rest := if cs.head? == some '?' then cs.tail else cs
      return ({ r with branches := ← r.branches.repeated }, rest)
    else do
      let p := if ['^', '$'].contains c then .position else .char c
      return (← r.atom p, cs)

/-- How deep the parts of a pattern may lie. -/
def depthLimit : Nat := 250

/-- Whether the pattern can end here. -/
def canEnd (r : Reader) : Bool := r.outer.isEmpty && r.branches.depth ≤ depthLimit

/-- Whether the rest of a pattern can be read in so many steps. -/
def finishes (r : Reader) : Nat → List Char → Bool
  | 0, cs => (r.mode.pass cs).isEmpty && r.canEnd
  | steps + 1, cs =>
    match r.mode.pass cs with
    | [] => r.canEnd
    | rest => (r.next? rest).any fun (s, rest) => s.finishes steps rest

end Reader

/-- Whether the text is a pattern.  Each of its parts takes at least one character. -/
def isWellFormed (cs : List Char) : Bool := Reader.start.finishes cs.length cs

end IntWalk.Text.Pattern
