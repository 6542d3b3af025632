import IntWalk.Json.Token

/-!
# Where a value ends

A value of any shape can be passed over without being read: it is enough to know
what may come next and which brackets are open.  `Token.afterValue` gives what
follows the value at the front of a list of tokens.
-/

namespace IntWalk.Json.Token

/-- An opening bracket that is not closed yet. -/
inductive Enclosure where
  | bracket
  | brace
deriving DecidableEq, Repr

/-- What has to come next. -/
inductive Awaiting where
  /-- A value. -/
  | value
  /-- A first element, or the end of a list without elements. -/
  | element
  /-- A first name, or the end of an object without members. -/
  | member
  /-- A name. -/
  | key
  /-- The colon after a name. -/
  | colon
  /-- A comma, or the end of what encloses the value. -/
  | rest
deriving DecidableEq, Repr

namespace Awaiting

/-- What comes after the first token of a value, `outer` being the open brackets,
the innermost first. -/
def begin (outer : List Enclosure) : Token → Option (Awaiting × List Enclosure)
  | .openBracket => some (.element, .bracket :: outer)
  | .openBrace => some (.member, .brace :: outer)
  | .string _ | .integer _ _ | .decimal | .word => some (.rest, outer)
  | _ => none

/-- What comes after a token, `outer` being the open brackets, the innermost first. -/
def advance : Awaiting → List Enclosure → Token → Option (Awaiting × List Enclosure)
  | .value, outer, t => begin outer t
  | .element, .bracket :: outer, .closeBracket => some (.rest, outer)
  | .element, outer, t => begin outer t
  | .member, .brace :: outer, .closeBrace => some (.rest, outer)
  | .member, outer, .string _ => some (.colon, outer)
  | .key, outer, .string _ => some (.colon, outer)
  | .colon, outer, .colon => some (.value, outer)
  | .rest, .bracket :: outer, .comma => some (.value, .bracket :: outer)
  | .rest, .bracket :: outer, .closeBracket => some (.rest, outer)
  | .rest, .brace :: outer, .comma => some (.key, .brace :: outer)
  | .rest, .brace :: outer, .closeBrace => some (.rest, outer)
  | _, _, _ => none

end Awaiting

/-- What follows the value that the tokens complete. -/
def afterRest (want : Awaiting) (outer : List Enclosure) : List Token → Option (List Token)
  | [] => none
  | t :: ts =>
    match want.advance outer t with
    | none => none
    | some (.rest, []) => some ts
    | some (want, outer) => afterRest want outer ts

/-- What follows the value at the front. -/
def afterValue : List Token → Option (List Token) := afterRest .value []

end IntWalk.Json.Token
