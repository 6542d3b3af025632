/-!
# Cutting text

A place in a text is given by the number of bytes before it, and only the places
between two characters are places to cut at.  Blanks at the ends of a text can be
cut off as well.
-/

namespace IntWalk.Text

/-- The number of bytes of the text. -/
def width : List Char → Nat
  | [] => 0
  | c :: cs => c.utf8Size + width cs

/-- What stands after that many bytes, unless this place is inside a character or
beyond the end. -/
def after? : Nat → List Char → Option (List Char)
  | 0, cs => some cs
  | _ + 1, [] => none
  | n + 1, c :: cs => if c.utf8Size ≤ n + 1 then after? (n + 1 - c.utf8Size) cs else none

/-- What stands in that many bytes, unless they end inside a character or beyond the end. -/
def upTo? : Nat → List Char → Option (List Char)
  | 0, _ => some []
  | _ + 1, [] => none
  | n + 1, c :: cs =>
    if c.utf8Size ≤ n + 1 then (upTo? (n + 1 - c.utf8Size) cs).map (c :: ·) else none

/-- The text between two places. -/
def between? (start stop : Nat) (cs : List Char) : Option (List Char) :=
  (after? start cs).bind (upTo? (stop - start))

/-- Whether the character is a blank of some script, or a line end. -/
def isBlank (c : Char) : Bool :=
  let n := c.toNat
  (9 ≤ n && n ≤ 13) || (0x2000 ≤ n && n ≤ 0x200A)
    || [0x20, 0x85, 0xA0, 0x1680, 0x2028, 0x2029, 0x202F, 0x205F, 0x3000].contains n

/-- The text without the blanks around it. -/
def trim (cs : List Char) : List Char :=
  ((cs.dropWhile isBlank).reverse.dropWhile isBlank).reverse

end IntWalk.Text
