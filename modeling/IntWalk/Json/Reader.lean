import IntWalk.Error
import IntWalk.Json.Outline
import IntWalk.Json.Scan

/-!
# Reading tokens

A reader takes tokens from the front of a list and makes a value of them, or
stops at the first fault.  Text can be at fault in two ways: it is no JSON of the
shape that is read, or the value in it contradicts itself.  What comes first in
the text decides, so a contradiction is reported as soon as its value is complete.
-/

namespace IntWalk.Json

/-- Why text is refused. -/
inductive Fault where
  /-- The text is no JSON, or JSON of another shape. -/
  | malformed
  /-- A value in the text breaks the rules of its collection. -/
  | inconsistent (why : Inconsistency)
deriving DecidableEq, Repr

/-- Makes a value of the tokens at the front. -/
abbrev Reader (α : Type) := StateT (List Token) (Except Fault) α

namespace Reader

variable {α σ : Type}

/-- The next token. -/
def token : Reader Token
  | [] => .error .malformed
  | t :: ts => .ok (t, ts)

/-- Passes one token, which must be the given one. -/
def expect (t : Token) : Reader Unit
  | [] => .error .malformed
  | u :: ts => if u = t then .ok ((), ts) else .error .malformed

/-- A string. -/
def string : Reader String
  | .string (some s) :: ts => .ok (s, ts)
  | _ => .error .malformed

/-- A number, if `accept` makes a value of its sign and magnitude. -/
def number (accept : Bool → Nat → Option α) : Reader α
  | .integer negative magnitude :: ts =>
    match accept negative magnitude with
    | some v => .ok (v, ts)
    | none => .error .malformed
  | _ => .error .malformed

/-- A number without a sign that is not above the bound. -/
def natural (bound : Nat) : Reader Nat :=
  number fun negative n => if negative then none else if n ≤ bound then some n else none

/-- Passes one value of any shape.  Also strings whose escapes spell nothing pass. -/
def pass : Reader Unit := fun ts =>
  match Token.afterValue ts with
  | some rest => .ok ((), rest)
  | none => .error .malformed

/-! ## Lists -/

/-- The elements of a list after its opening bracket, at least one and at most `n`. -/
def items (item : Reader α) : Nat → Reader (List α)
  | 0 => throw .malformed
  | n + 1 => do
    let x ← item
    match ← token with
    | .comma => return x :: (← items item n)
    | .closeBracket => return [x]
    | _ => throw .malformed

/-- A list of any length. -/
def array (item : Reader α) : Reader (List α) := do
  expect .openBracket
  match ← get with
  | .closeBracket :: ts => do
    set ts
    return []
  | ts => items item ts.length

/-! ## Records -/

/-- A field of a record of type `σ`: its name, and how to read it into the record. -/
structure Field (σ : Type) where
  name : String
  read : σ → Reader σ

/-- The fields in order, with commas between them, up to the closing bracket. -/
def positions : List (Field σ) → σ → Reader σ
  | [], s => do
    expect .closeBracket
    return s
  | [f], s => do
    let s ← f.read s
    expect .closeBracket
    return s
  | f :: fs, s => do
    let s ← f.read s
    expect .comma
    positions fs s

/-- The fields by name in any order, up to the closing brace and at most `n` of
them.  Each of `missing` has to come exactly once; of the names in `known` none
may come twice, and a name that is not known is passed over if `lenient`. -/
def members (known : List String) (lenient : Bool) : Nat → List (Field σ) → σ → Reader σ
  | 0, _, _ => throw .malformed
  | n + 1, missing, s => do
    let key ← string
    let (missing, s) ←
      match missing.find? (·.name == key) with
      | some f => do
        expect .colon
        pure (missing.filter (·.name != key), ← f.read s)
      | none =>
        if known.contains key || !lenient then throw .malformed
        else do
          expect .colon
          pass
          pure (missing, s)
    match ← token with
    | .comma => members known lenient n missing s
    | .closeBrace => if missing.isEmpty then return s else throw .malformed
    | _ => throw .malformed

/-- A record with the given fields: an object, or the list of the fields in order. -/
def record (fields : List (Field σ)) (lenient : Bool) (blank : σ) : Reader σ := do
  match ← token with
  | .openBracket => positions fields blank
  | .openBrace =>
    match ← get with
    | .closeBrace :: ts => do
      set ts
      if fields.isEmpty then return blank else throw .malformed
    | ts => members (fields.map Field.name) lenient ts.length fields blank
  | _ => throw .malformed

/-! ## Whole texts -/

/-- The value in the text, which must hold nothing else. -/
def decode (r : Reader α) (text : String) : Except Fault α :=
  match r (Token.scan text.toList) with
  | .ok (v, []) => .ok v
  | .ok (_, _ :: _) => .error .malformed
  | .error fault => .error fault

end Reader

end IntWalk.Json
