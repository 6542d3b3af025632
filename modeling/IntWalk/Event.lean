import IntWalk.Parts.Part

/-!
# Events

Collections and cursors report what they did.  An event is kept as data; its
level, its origin and its wording are functions of it, and a log line is built
from the three.
-/

namespace IntWalk

/-- How important a report is, most important first. -/
inductive Level where
  | error
  | warn
  | info
  | debug
  | trace
deriving DecidableEq, Repr

namespace Level

/-- The level's place, the most important first. -/
def rank : Level → Nat
  | error => 1
  | warn => 2
  | info => 3
  | debug => 4
  | trace => 5

/-- The level as a log line shows it. -/
def label : Level → String
  | error => "ERROR"
  | warn => "WARN"
  | info => "INFO"
  | debug => "DEBUG"
  | trace => "TRACE"

end Level

/-- A report in its written parts. -/
structure Record where
  /-- How important the report is. -/
  level : Level
  /-- The part of the program that the report comes from. -/
  origin : String
  /-- The report in words. -/
  message : String
  /-- Named numbers that go with the words, in order. -/
  fields : List (String × Nat)
deriving DecidableEq, Repr

/-- The report as one line of a log. -/
def Record.line (r : Record) : String :=
  let numbers := r.fields.map fun f => s!" {f.1}={f.2}"
  s!"{r.level.label} {r.origin}: {r.message}" ++ String.join numbers

/-- The names of the report's fields.  Its words are a field as well. -/
def Record.fieldNames (r : Record) : List String := "message" :: r.fields.map (·.1)

/-- What a collection or one of its cursors reports. -/
inductive Event where
  /-- A cursor that had given out `yielded` elements was asked for one more. -/
  | exhausted (yielded : Nat)
  /-- A cursor took the value at `index` out of a sequence; `size` values are left. -/
  | removedAt (index size : Nat)
  /-- A cursor took `value` out of a bit set; `size` values are left. -/
  | cleared (value size : Nat)
  /-- A cursor took `part` out of a part set. -/
  | dropped (part : Part)
  /-- Inserting `part` joined two runs; `runs` runs are left. -/
  | bridged (part : Part) (runs : Nat)
  /-- Removing `part` cut a run in two; there are now `runs` runs. -/
  | split (part : Part) (runs : Nat)
deriving DecidableEq, Repr

/-- The written parts of an event. -/
def Event.record : Event → Record
  | exhausted yielded =>
    ⟨.trace, "intcursor::cursor::guard", "cursor exhausted", [("yielded", yielded)]⟩
  | removedAt index size =>
    ⟨.debug, "intcursor::collections::list", "removed list value",
      [("index", index), ("len", size)]⟩
  | cleared value size =>
    ⟨.debug, "intcursor::collections::bitset", "removed bit set value",
      [("value", value), ("len", size)]⟩
  | dropped part =>
    ⟨.debug, "intcursor::collections::parts", "removed tracked part", [("part", part.toNat)]⟩
  | bridged part runs =>
    ⟨.trace, "intcursor::collections::parts", "bridged two ranges",
      [("part", part.toNat), ("ranges", runs)]⟩
  | split part runs =>
    ⟨.trace, "intcursor::collections::parts", "split range",
      [("part", part.toNat), ("ranges", runs)]⟩

end IntWalk
