import IntWalk.CommandLine.LogFilter
import IntWalk.Text.Pattern

/-!
# Log settings

A log filter is set by a text of entries with commas between them.  An entry is a
level, or the beginning of an origin, or both with an equals sign between them;
between the origin and the sign may stand brackets that ask for the name of a span
or, in braces, for a field and its value.  A level is given by its name in any case
or by its rank in decimal digits.  An entry that asks for a span or for a value
concerns no report.

The form of an entry is found without the blanks around it.  Its parts are cut from
the entry as it stands, at the same numbers of bytes from its start, so blanks before
an entry shift the parts.
-/

namespace IntWalk

/-- The level of that name. -/
def Level.ofName? (name : String) : Option Level :=
  match name.toLower with
  | "error" => some .error
  | "warn" => some .warn
  | "info" => some .info
  | "debug" => some .debug
  | "trace" => some .trace
  | _ => none

namespace LogSetting

/-- What can be wrong with a setting. -/
inductive Fault where
  /-- It is not of the form that a setting has. -/
  | malformed
  /-- A part of it begins or ends inside a character. -/
  | splitCharacter
deriving DecidableEq, Repr

/-- The rank of the level that the text gives, 0 being the one above all levels. -/
def limit? (text : String) : Option Nat :=
  match Text.unsigned? text with
  | some rank => if rank ≤ Level.trace.rank then some rank else none
  | none => if text.toLower == "off" then some 0 else (Level.ofName? text).map Level.rank

/-- The limit that the text after an equals sign gives; the last level if there is no text. -/
def limit (text : String) : Except Fault Nat :=
  if text.isEmpty then .ok Level.trace.rank
  else match limit? text with
    | some rank => .ok rank
    | none => .error .malformed

/-! ## Cutting entries -/

/-- The text of the entry between two places. -/
def cut (entry : List Char) (start stop : Nat) : Except Fault String :=
  match Text.between? start stop entry with
  | some cs => .ok (String.ofList cs)
  | none => .error .splitCharacter

/-- The text of the entry from a place on. -/
def cutFrom (entry : List Char) (start : Nat) : Except Fault String :=
  cut entry start (Text.width entry)

/-! ## Fields -/

/-- Whether an exponent, or nothing, is all that is left. -/
def isExponent : List Char → Bool
  | [] => true
  | e :: cs =>
    let digits := match cs with
      | '+' :: ds | '-' :: ds => ds
      | ds => ds
    (e == 'e' || e == 'E') && (Text.digits? digits).isSome

/-- Whether the text is a number without a sign, which may have a point and an exponent. -/
def isUnsignedNumber (cs : List Char) : Bool :=
  let rest := cs.dropWhile Char.isDigit
  let whole := cs.takeWhile Char.isDigit
  ["inf", "infinity", "nan"].contains (String.ofList cs).toLower ||
    match rest with
    | '.' :: rest =>
      !(whole.isEmpty && (rest.takeWhile Char.isDigit).isEmpty)
        && isExponent (rest.dropWhile Char.isDigit)
    | rest => !whole.isEmpty && isExponent rest

/-- Whether an entry may ask for the value: it is a pattern or a number. -/
def isValue (cs : List Char) : Bool :=
  Text.Pattern.isWellFormed cs ||
    match cs with
    | '+' :: rest => isUnsignedNumber rest
    | _ => false

/-- A field as an entry asks for it. -/
structure Field where
  /-- Its name. -/
  name : String
  /-- Whether it is to have some value. -/
  valued : Bool
deriving DecidableEq, Repr

/-- Reads a field, with the value after an equals sign if there is one. -/
def field (text : String) : Except Fault Field :=
  match text.splitOn "=" with
  | name :: value :: _ =>
    if isValue value.toList then .ok ⟨name, true⟩ else .error .malformed
  | _ => if text.isEmpty then .error .malformed else .ok ⟨text, false⟩

/-! ## Entries -/

/-- Whether an origin may begin with the character. -/
def beginsOrigin (c : Char) : Bool := Text.isAlphanumeric c || ['-', ':', '_'].contains c

/-- The limit of an entry whose brackets end at the place. -/
def limitAfter (entry : List Char) (place : Nat) : List Char → Except Fault Nat
  | [] => .ok Level.trace.rank
  | '=' :: _ => do limit (← cutFrom entry (place + 1))
  | _ => .error .malformed

/-- Reads the brackets of an entry, which begin before the place, and what follows. -/
def bracketed (entry : List Char) (origin : Option String) (place : Nat) (form : List Char) :
    Except Fault (Option LogRule) := do
  let span := form.takeWhile fun c => c != ']' && c != '{'
  let stop := place + Text.width span
  match form.drop span.length with
  | ']' :: rest =>
    let _ ← cut entry place stop
    let _ ← limitAfter entry (stop + 1) rest
    return none
  | _ :: inner =>
    let _ ← cut entry place stop
    let inside := inner.takeWhile (· != '}')
    match inner.drop inside.length with
    | _ :: ']' :: rest =>
      let f ← field (← cut entry (stop + 1) (stop + 1 + Text.width inside))
      let rank ← limitAfter entry (stop + Text.width inside + 3) rest
      return if span.isEmpty && !f.valued then some ⟨origin, some f.name, rank⟩ else none
    | _ :: _ =>
      let _ ← cut entry (stop + 1) (stop + 1 + Text.width inside)
      .error .malformed
    | [] => .error .malformed
  | [] => .error .malformed

/-- Reads an entry.  There is no rule if it can concern no report. -/
def entry (text : List Char) : Except Fault (Option LogRule) := do
  match Text.trim text with
  | [] => .error .malformed
  | '[' :: form => bracketed text none 1 form
  | c :: cs =>
    if !beginsOrigin c then .error .malformed
    else
      let form := c :: cs
      let origin := form.takeWhile fun c => c != '=' && c != '['
      let place := Text.width origin
      match form.drop origin.length with
      | [] =>
        match limit? (String.ofList text) with
        | some rank => return some (.general rank)
        | none => return some ⟨some (String.ofList text), none, Level.trace.rank⟩
      | '=' :: _ =>
        let name ← cut text 0 place
        return some ⟨some name, none, ← limit (← cutFrom text (place + 1))⟩
      | _ :: form => bracketed text (some (← cut text 0 place)) (place + 1) form

/-- Reads a setting.  Empty entries do not count, and a setting without any other
shows the first level. -/
def read (setting : String) : Except Fault LogFilter := do
  match (setting.splitOn ",").filter (!·.isEmpty) with
  | [] => return .downTo .error
  | entries => return ⟨(← entries.mapM fun e => entry e.toList).filterMap id⟩

end LogSetting

end IntWalk
