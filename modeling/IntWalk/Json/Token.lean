/-!
# JSON tokens

Stored text is JSON.  Between the text and the values stands a list of tokens:
what is written is first put together from tokens, and what is read is first cut
into them.  `text` writes tokens without any blanks.
-/

namespace IntWalk.Json

/-- A piece of JSON text. -/
inductive Token where
  | openBracket
  | closeBracket
  | openBrace
  | closeBrace
  | comma
  | colon
  /-- A string, or `none` if its escapes spell no characters. -/
  | string (text : Option String)
  /-- A number without fraction and exponent; zero may carry a sign. -/
  | integer (negative : Bool) (magnitude : Nat)
  /-- A number with a fraction or an exponent. -/
  | decimal
  /-- One of the words for true, false and nothing. -/
  | word
  /-- Something that is no JSON. -/
  | junk
deriving DecidableEq, Repr

namespace Token

/-- The number as a token. -/
def ofNat (n : Nat) : Token := .integer false n

/-- The number as a token. -/
def ofInt (v : Int) : Token := .integer (decide (v < 0)) v.natAbs

/-- A name as a token. -/
def name (s : String) : Token := .string (some s)

/-! ## Putting tokens together -/

/-- The items between brackets. -/
def array (items : List (List Token)) : List Token :=
  .openBracket :: List.intercalate [.comma] items ++ [.closeBracket]

/-- The named items between braces. -/
def object (members : List (String × List Token)) : List Token :=
  let items := members.map fun m => name m.1 :: .colon :: m.2
  .openBrace :: List.intercalate [.comma] items ++ [.closeBrace]

/-! ## Writing -/

/-- The hexadecimal digits of a control character. -/
def hexPair (n : Nat) : List Char := [Nat.digitChar (n / 16), Nat.digitChar (n % 16)]

/-- A character as it is written inside a string. -/
def escape (c : Char) : List Char :=
  if c = '"' ∨ c = '\\' then ['\\', c]
  else if c.toNat < 32 then ['\\', 'u', '0', '0'] ++ hexPair c.toNat
  else [c]

/-- The token in characters.  A token without a written form of its own gives none. -/
def chars : Token → List Char
  | openBracket => ['[']
  | closeBracket => [']']
  | openBrace => ['\x7b']
  | closeBrace => ['\x7d']
  | comma => [',']
  | colon => [':']
  | string (some s) => '"' :: s.toList.flatMap escape ++ ['"']
  | integer negative magnitude => (if negative then ['-'] else []) ++ Nat.toDigits 10 magnitude
  | string none | decimal | word | junk => []

/-- The tokens in characters, one after another. -/
def text (tokens : List Token) : String := String.ofList (tokens.flatMap chars)

end Token

end IntWalk.Json
