import IntWalk.Error
import IntWalk.Event
import IntWalk.Search
import IntWalk.Step

/-!
# Sets of parts

A part set records which parts of a transfer have arrived.  It keeps them as
runs in ascending order, and a transfer that is nearly complete needs only a few.
The order is that of `Canonical`: between two neighbouring runs at least one part
is missing.  So the run that holds a part, or would have to take it in, is found
by binary search, and one set of parts has one list of runs.
-/

namespace IntWalk

/-- A set of parts, kept as runs. -/
structure PartSet where
  /-- The runs, in ascending order. -/
  runs : Array Run
deriving DecidableEq, Repr

namespace PartSet

/-- `a` ends at least one part before `b` begins. -/
def Separated (a b : Run) : Prop := a.last.toNat + 1 < b.first.toNat

instance (a b : Run) : Decidable (Separated a b) :=
  inferInstanceAs (Decidable (_ < _))

/-- The runs hold something, ascend and leave a part free between each other. -/
def Canonical (runs : List Run) : Prop :=
  (∀ r ∈ runs, r.first ≤ r.last) ∧ runs.Pairwise Separated

instance (s : PartSet) : Decidable (Canonical s.runs.toList) :=
  inferInstanceAs (Decidable (_ ∧ _))

/-- The set without parts. -/
def empty : PartSet := ⟨#[]⟩

instance : Inhabited PartSet := ⟨empty⟩

instance : EmptyCollection PartSet := ⟨empty⟩

/-- A part is in the set if one of the runs holds it. -/
instance : Membership Part PartSet := ⟨fun s p => ∃ r ∈ s.runs.toList, p ∈ r⟩

theorem mem_def {p : Part} {s : PartSet} : p ∈ s ↔ ∃ r ∈ s.runs.toList, p ∈ r := Iff.rfl

/-- The index of the first run that ends at the part or after it. -/
def firstReaching (s : PartSet) (p : Part) : Nat := boundary (fun r => r.last < p) s.runs

/-- Whether the part has arrived. -/
def contains (s : PartSet) (p : Part) : Bool :=
  s.runs[s.firstReaching p]?.any (·.contains p)

/-- How many parts have arrived. -/
def size (s : PartSet) : Nat := Run.total s.runs.toList

/-- Whether no part has arrived. -/
def isEmpty (s : PartSet) : Bool := s.runs.isEmpty

/-- Puts other runs in the place of those from index `lo` up to `hi`. -/
def splice (s : PartSet) (lo hi : Nat) (others : List Run) : PartSet :=
  ⟨s.runs.extract 0 lo ++ others.toArray ++ s.runs.extract hi s.runs.size⟩

theorem toList_splice (s : PartSet) (lo hi : Nat) (others : List Run) :
    (s.splice lo hi others).runs.toList =
      s.runs.toList.take lo ++ others ++ s.runs.toList.drop hi := by
  have tail : (s.runs.toList.drop hi).take (s.runs.size - hi) = s.runs.toList.drop hi :=
    List.take_of_length_le (by simp)
  simp [splice, Array.toList_extract, tail]

/-! ## Arrivals -/

/-- The run before index `i`, if it ends right before the part. -/
def leftNeighbour (s : PartSet) (i : Nat) (p : Part) : Option Run :=
  if i = 0 then none else s.runs[i - 1]?.filter fun r => r.last.next? == some p

/-- The run at index `i`, if it begins right after the part. -/
def rightNeighbour (s : PartSet) (i : Nat) (p : Part) : Option Run :=
  s.runs[i]?.filter fun r => p.next? == some r.first

/-- Records a part that has not arrived before, `i` being the index of the first
run after it.  The part is joined with the runs that touch it on either side. -/
def place (s : PartSet) (i : Nat) (p : Part) : Step Event PartSet Bool :=
  let left := s.leftNeighbour i p
  let right := s.rightNeighbour i p
  let joined : Run := ⟨(left.map Run.first).getD p, (right.map Run.last).getD p⟩
  let t := s.splice (i - left.toList.length) (i + right.toList.length) [joined]
  ⟨true, t, if left.isSome && right.isSome then [.bridged p t.runs.size] else []⟩

/-- Records a part, and says whether it was new. -/
def insert (s : PartSet) (p : Part) : Step Event PartSet Bool :=
  let i := s.firstReaching p
  if s.runs[i]?.any (·.first ≤ p) then .still false s else s.place i p

/-- Records a part given by a signed number. -/
def insertSigned (s : PartSet) (v : Int) : Step Event PartSet (Except StoreError Bool) :=
  if v < 0 then .still (.error (.negative v)) s
  else if Part.last.toNat < v then .still (.error (.tooLarge v Part.last.toNat)) s
  else (s.insert (UInt32.ofNat v.toNat)).map .ok

/-- Records the parts in order, and says of each whether it was new. -/
def insertAll : List Part → PartSet → Step Event PartSet (List Bool)
  | [], s => .still [] s
  | p :: ps, s => (s.insert p).andThen fun new t => (insertAll ps t).map (new :: ·)

/-! ## Losses -/

/-- Forgets a part, and says whether it was there. -/
def remove (s : PartSet) (p : Part) : Step Event PartSet Bool :=
  let i := s.firstReaching p
  match s.runs[i]?.filter (·.first ≤ p) with
  | none => .still false s
  | some r =>
    let rest := r.without p
    let t := s.splice i (i + 1) rest
    ⟨true, t, if rest.length = 2 then [.split p t.runs.size] else []⟩

/-! ## For a developer to read -/

/-- The set written for a developer to read. -/
def inspect (s : PartSet) : String :=
  let runs := ", ".intercalate (s.runs.toList.map Run.inspect)
  s!"PartTracker \x7b received: [{runs}] \x7d"

end PartSet

end IntWalk
