import IntWalk.Text.Unprintable

/-!
# Quoted text

Text shown to a developer stands between double quotes.  Whatever could not be
told from the print is escaped: the quote, the backslash, line ends and tabs by
short escapes, other characters without a printed form by their code point.
-/

namespace IntWalk.Text

/-- A character as it is shown between quotes. -/
def escape (c : Char) : List Char :=
  match c with
  | '\x00' => ['\\', '0']
  | '\t' => ['\\', 't']
  | '\r' => ['\\', 'r']
  | '\n' => ['\\', 'n']
  | '\\' => ['\\', '\\']
  | '"' => ['\\', '"']
  | c =>
    if isUnprintable c then ['\\', 'u', '\x7b'] ++ Nat.toDigits 16 c.toNat ++ ['\x7d'] else [c]

/-- The text between quotes. -/
def quoted (s : String) : String := String.ofList ('"' :: s.toList.flatMap escape ++ ['"'])

end IntWalk.Text
