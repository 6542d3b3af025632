import IntWalk.Proofs.Checked.Bits
import IntWalk.Proofs.Checked.Parts
import IntWalk.Proofs.Checked.Sequence

/-!
# No run comes to a stop

Part sets keep their runs apart, bit sets their size accurate, and a walk its place behind what
may be removed.  So whatever is done with a collection that a program can have, every sum and
difference has a value and every place is in its array, and nothing wraps around.
-/

namespace IntWalk.Checked

variable {α : Type} [DecidableEq α] [Max α]
variable {parts : PartSet} {bits₀ bits : BitSet} {list : Sequence α}

/-- Whatever is done with a part set, a bit set and a sequence, by requests with any arguments
and by walks with any calls, all of it goes through with checks, and comes to what it comes to
without.  The sequence must never have more values than a number of 64 bits can count. -/
theorem runs_go_through (hparts : parts.Reachable) (hbits₀ : BitSet.Origin bits₀)
    (hbits : BitSet.Reaches bits₀ bits) (onParts : List PartSet.Action)
    (onBits : List BitSet.Action) (onList : List (Sequence.Action α))
    (hlist : ∀ done, done <+: onList →
      (Step.runAll Sequence.act done list).after.size < UInt64.size) :
    let x := Step.runAll PartSet.act onParts parts
    let y := Step.runAll BitSet.act onBits bits
    let z := Step.runAll Sequence.act onList list
    runAll PartSet.act? onParts parts = some (x.answer, x.after) ∧
    runAll BitSet.act? onBits bits = some (y.answer, y.after) ∧
    runAll Sequence.act? onList list = some (z.answer, z.after) ∧
    ∀ values, BitSet.ofList? values = some (BitSet.ofList values) := by
  intro x y z
  obtain ⟨haccurate, hcapacity⟩ := hbits.accurate hbits₀.accurate
  have hfits : BitSet.Fits bits := ⟨haccurate, hcapacity ▸ hbits₀.capacity_le⟩
  exact ⟨PartSet.runAll_act?_eq hparts.canonical onParts, hfits.runAll_act?_eq onBits,
    Sequence.runAll_act?_eq onList hlist, BitSet.ofList?_eq⟩

/-- Joins, cuts, misused walks and removals at the last part, at the greatest member that has
room and at the end of a sequence. -/
theorem runs_go_through_at_edges :
    let bits := BitSet.ofCapacity ⟨6, by decide, by decide⟩
    let list : Sequence Int := ⟨[7, 5, 7]⟩
    let onParts : List PartSet.Action := [.ask (.insert 4294967295),
      .ask (.insertSigned 4294967293), .ask (.insert 4294967294), .ask (.insert 0), .ask .size,
      .walk [.remove, .next, .next, .next, .remove, .remove, .next, .next, .remove], .missing 1]
    let onBits : List BitSet.Action := [.ask (.insert 5), .ask (.insert 0),
      .walk [.remove, .next, .next, .remove, .remove, .next], .ask (.remove 0), .ask (.remove 0)]
    let onList : List (Sequence.Action Int) := [.append [2],
      .walk [.remove, .next, .next, .next, .next, .next, .remove, .remove], .size]
    let x := Step.runAll PartSet.act onParts .empty
    let y := Step.runAll BitSet.act onBits bits
    let z := Step.runAll Sequence.act onList list
    runAll PartSet.act? onParts .empty = some (x.answer, x.after) ∧
    runAll BitSet.act? onBits bits = some (y.answer, y.after) ∧
    runAll Sequence.act? onList list = some (z.answer, z.after) ∧
    (x.after.runs = #[⟨0, 0⟩, ⟨4294967293, 4294967293⟩] ∧ y.after.size = 0 ∧
      z.after.values = [7, 5, 7]) := by
  intro bits list onParts onBits onList
  have hlist : ∀ done, done <+: onList →
      (Step.runAll Sequence.act done list).after.size < UInt64.size := by
    intro done hdone
    simp only [onList, List.prefix_cons_iff, List.prefix_nil] at hdone
    rcases hdone with rfl | ⟨_, rfl, rfl | ⟨_, rfl, rfl | ⟨_, rfl, rfl⟩⟩⟩ <;> decide
  obtain ⟨hx, hy, hz, -⟩ :=
    runs_go_through .empty (.ofCapacity _) .refl onParts onBits onList hlist
  exact ⟨hx, hy, hz, by cbv, by cbv, by cbv⟩

end IntWalk.Checked
