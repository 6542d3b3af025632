import IntWalk.Parts.Basic

/-!
# What is missing

The gaps of a part set are the stretches of parts below a total that have not
arrived.  They are read off the runs in one pass: `gapsFrom` keeps the least part
that may still be missing.
-/

namespace IntWalk

/-- A stretch of parts from `start` up to but without `stop`. -/
structure Gap where
  /-- The first part of the gap. -/
  start : Part
  /-- The part after the last one of the gap. -/
  stop : Part
deriving DecidableEq, Repr

/-- The stretch from `start` up to `stop`, if it holds a part at all. -/
def Gap.between (start stop : Part) : List Gap :=
  if start < stop then [⟨start, stop⟩] else []

namespace PartSet

/-- The gaps from `expected` up to `total` that the runs leave. -/
def gapsFrom (total : Part) : Part → List Run → List Gap
  | expected, [] => Gap.between expected total
  | expected, r :: rest =>
    if total ≤ r.first then Gap.between expected total
    else Gap.between expected r.first ++
      match r.last.next? with
      | some next => gapsFrom total next rest
      | none => []

/-- The stretches of parts below `total` that have not arrived. -/
def missing (s : PartSet) (total : Part) : List Gap := gapsFrom total 0 s.runs.toList

/-- Whether all parts below `total` have arrived. -/
def isComplete (s : PartSet) (total : Part) : Bool := (s.missing total).isEmpty

end PartSet

end IntWalk
