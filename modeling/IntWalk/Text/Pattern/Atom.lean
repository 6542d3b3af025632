import IntWalk.Text.Cut
import IntWalk.Text.Numeral

/-!
# Atoms of a pattern

The smallest parts of a pattern are characters, which stand for themselves or are
written as escapes, and escapes for a class of characters or for a place between two.
How they are read depends on flags.

The classes of digits, blanks and letters, the borders of words and blindness to case
are known for ASCII only.  Where texts are read by characters these escapes are refused;
where they are read by bytes all that is not ASCII is.
-/

namespace IntWalk.Text.Pattern

/-- How the characters of a pattern are read. -/
structure Mode where
  /-- Whether a letter stands for both its cases. -/
  caseBlind : Bool
  /-- Whether texts are read by characters, and not by bytes. -/
  unicode : Bool
  /-- Whether blanks and comments may stand between the parts. -/
  spaced : Bool
deriving DecidableEq, Repr

namespace Mode

/-- How a pattern begins. -/
def plain : Mode := ⟨false, true, false⟩

/-- Whether characters can be read at all, which takes knowing their cases if they do
not matter. -/
def readsCharacters (m : Mode) : Bool := !(m.caseBlind && m.unicode)

/-- The mode after a flag is turned on or off.  Other flags do not matter to the form. -/
def set (m : Mode) (on : Bool) : Char → Mode
  | 'i' => { m with caseBlind := on }
  | 'u' => { m with unicode := on }
  | 'x' => { m with spaced := on }
  | _ => m

end Mode

/-! ## Blanks and comments -/

/-- Passes blanks and comments.  A comment ends with its line. -/
def passSpace (inComment : Bool) : List Char → List Char
  | [] => []
  | c :: cs =>
    if inComment then passSpace (c != '\n') cs
    else if c == '#' then passSpace true cs
    else if isBlank c then passSpace false cs
    else c :: cs

/-- Passes what may stand between the parts. -/
def Mode.pass (m : Mode) (cs : List Char) : List Char :=
  if m.spaced then passSpace false cs else cs

/-- The next character beyond blanks and the sign that begins a comment; the comment
itself is not passed. -/
def Mode.peek? (m : Mode) (cs : List Char) : Option Char :=
  if m.spaced then
    match cs.dropWhile isBlank with
    | '#' :: rest => (rest.dropWhile isBlank).head?
    | rest => rest.head?
  else cs.head?

/-! ## Escapes -/

/-- What an atom stands for. -/
inductive Atom where
  /-- A character. -/
  | char (c : Char)
  /-- A class of characters. -/
  | charClass
  /-- A place between characters. -/
  | position
deriving DecidableEq, Repr

/-- Reads so many hexadecimal digits, after the number that stands before them. -/
def hex? (m : Mode) : Nat → Nat → List Char → Option (Nat × List Char)
  | 0, n, cs => some (n, cs)
  | k + 1, n, cs =>
    match m.pass cs with
    | [] => none
    | c :: rest => (hexDigit? c).bind fun d => hex? m k (16 * n + d) rest

/-- Reads a character given by its number in so many digits; two digits make a byte. -/
def numbered? (m : Mode) (digits : Nat) (cs : List Char) : Option (Atom × List Char) :=
  (hex? m digits 0 cs).bind fun (n, rest) =>
    if n.isValidChar && (m.unicode || digits != 2 || n < 0x80) then
      some (.char (Char.ofNat n), rest)
    else none

/-- Reads an escape after its backslash.  A character of ASCII that is neither a letter
nor a digit stands for itself. -/
def escape? (m : Mode) : List Char → Option (Atom × List Char)
  | [] => none
  | 'x' :: cs => numbered? m 2 cs
  | 'u' :: cs => numbered? m 4 cs
  | 'U' :: cs => numbered? m 8 cs
  | 'a' :: cs => some (.char '\x07', cs)
  | 'f' :: cs => some (.char '\x0c', cs)
  | 't' :: cs => some (.char '\t', cs)
  | 'n' :: cs => some (.char '\n', cs)
  | 'r' :: cs => some (.char '\r', cs)
  | 'v' :: cs => some (.char '\x0b', cs)
  | c :: cs =>
    if ['A', 'z'].contains c then some (.position, cs)
    else if ['b', 'B', '<', '>'].contains c then if m.unicode then none else some (.position, cs)
    else if ['d', 's', 'w'].contains c then if m.unicode then none else some (.charClass, cs)
    else if c.toNat < 0x80 && !c.isAlphanum then some (.char c, cs)
    else none

end IntWalk.Text.Pattern
