import IntWalk.Event

/-!
# Log filters

A filter says which reports a log shows.  It is made up of rules, and of the rules
that concern a report the most specific one decides: it shows the report if its level
is not beyond the rule's limit.  A report that no rule concerns is not shown.
-/

namespace IntWalk

/-- A rule about the reports of some origin, or about those with some field, or both. -/
structure LogRule where
  /-- How the origin of the reports begins, if that matters. -/
  origin : Option String
  /-- The field that the reports have, if that matters. -/
  field : Option String
  /-- The rank of the last level that is shown. -/
  limit : Nat
deriving DecidableEq, Repr

namespace LogRule

/-- The rule about all reports. -/
def general (limit : Nat) : LogRule := ⟨none, none, limit⟩

/-- Whether the rule is about the report. -/
def concerns (rule : LogRule) (r : Record) : Bool :=
  rule.origin.all (r.origin.startsWith ·) && rule.field.all r.fieldNames.contains

/-- How much a rule says about the origin: nothing, or so many characters. -/
def reach (rule : LogRule) : Nat := rule.origin.elim 0 (·.length + 1)

/-- Whether the rule says more about the field: one is more than none, and of two the
one whose name is later in the order of texts counts as more. -/
def narrower (a b : LogRule) : Bool :=
  match a.field, b.field with
  | some x, some y => y < x
  | some _, none => true
  | none, _ => false

/-- Whether the rule is more specific: the origin matters first, then the field. -/
def outranks (a b : LogRule) : Bool :=
  b.reach < a.reach || (a.reach == b.reach && a.narrower b)

end LogRule

/-- Which reports a log shows. -/
structure LogFilter where
  /-- The rules, in the order in which they were given. -/
  rules : List LogRule
deriving DecidableEq, Repr

namespace LogFilter

/-- The filter that shows the level and all levels above it. -/
def downTo (level : Level) : LogFilter := ⟨[.general level.rank]⟩

/-- The more specific of two rules, or the later one if none is. -/
def prefer (earlier : Option LogRule) (later : LogRule) : Option LogRule :=
  some (earlier.elim later fun e => if e.outranks later then e else later)

/-- The rule that decides on the report. -/
def deciding (f : LogFilter) (r : Record) : Option LogRule :=
  (f.rules.filter (·.concerns r)).foldl prefer none

/-- Whether the log shows the report. -/
def shows (f : LogFilter) (r : Record) : Bool :=
  (f.deciding r).any fun rule => r.level.rank ≤ rule.limit

@[simp] theorem shows_downTo (level : Level) (r : Record) :
    (downTo level).shows r = decide (r.level.rank ≤ level.rank) := by
  simp [shows, deciding, downTo, prefer, LogRule.general, LogRule.concerns]

end LogFilter

end IntWalk
