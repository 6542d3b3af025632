import IntWalk.Json.Reader
import IntWalk.Parts.Basic

/-!
# Part sets as text

A run is stored as an object with its first and its last part, a part set as an
object with the list of its runs.  Reading checks what writing guarantees: no run
begins after its end, and the runs of a set are in order with a part missing
between neighbours.
-/

namespace IntWalk

open Json

namespace Run

/-- The run as it is stored. -/
def tokens (r : Run) : List Token :=
  Token.object [("first", [Token.ofNat r.first.toNat]), ("last", [Token.ofNat r.last.toNat])]

/-- A part number. -/
def readPart : Reader Part := do return UInt32.ofNat (← Reader.natural Part.last.toNat)

/-- The fields of a stored run. -/
def fields : List (Reader.Field Run) :=
  [⟨"first", fun r => do return { r with first := ← readPart }⟩,
    ⟨"last", fun r => do return { r with last := ← readPart }⟩]

/-- A stored run, which must not begin after its end. -/
def reader : Reader Run := do
  let r ← Reader.record fields true ⟨0, 0⟩
  if r.last < r.first then throw (.inconsistent (.reversedRun r)) else return r

/-- The run as text. -/
def encode (r : Run) : String := Token.text r.tokens

/-- The run in the text. -/
def decode (text : String) : Except Fault Run := Reader.decode reader text

end Run

namespace PartSet

/-- The first two neighbours that leave no part free between them. -/
def unseparated? : List Run → Option (Run × Run)
  | a :: b :: rest => if Separated a b then unseparated? (b :: rest) else some (a, b)
  | _ => none

/-- The set as it is stored. -/
def tokens (s : PartSet) : List Token :=
  Token.object [("received", Token.array (s.runs.toList.map Run.tokens))]

/-- The fields of a stored set. -/
def fields : List (Reader.Field (List Run)) := [⟨"received", fun _ => Reader.array Run.reader⟩]

/-- A stored set, whose runs must be separated. -/
def reader : Reader PartSet := do
  let runs ← Reader.record fields true []
  match unseparated? runs with
  | some (a, b) => throw (.inconsistent (.unseparatedRuns a b))
  | none => return ⟨runs.toArray⟩

/-- The set as text. -/
def encode (s : PartSet) : String := Token.text s.tokens

/-- The set in the text. -/
def decode (text : String) : Except Fault PartSet := Reader.decode reader text

end PartSet

end IntWalk
