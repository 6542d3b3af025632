import IntWalk.Proofs.Sequence.Recount

/-!
# Walks over a sequence meet the contract

In a sequence a value may occur several times, so what a removal takes out is named by
its place in the sequence at the start.  The places move as values before them are
removed; an occurrence is found again because the occurrences behind the cut are those
given out and not taken out, in order.
-/

namespace IntWalk.Sequence

variable {α : Type} {xs : List α} {rs : List (Reply α)}

namespace Walk.Recounts

variable {w : Walk α} (h : Recounts xs rs w)
include h

/-- What was given out and what is still to come make up the sequence at the start. -/
lemma remaining_add_yielded : w.remaining + w.progress.yielded = xs.length := by
  have hlength := congrArg List.length h.given
  rw [List.length_append] at hlength
  rw [h.yielded, remaining]
  omega

/-- An element that may be removed stands in the place given out last, from which it was
not taken out before.  Its removal closes the gap between what is kept of the elements
before it and the elements after it. -/
lemma exists_place (hremovable : Removable rs) :
    ∃ i v, (givenOut rs).length = i + 1 ∧ xs[i]? = some v ∧ i ∉ takenPlaces 0 rs ∧
      w.position = (leaveOut (takenPlaces 0 rs) (xs.take i)).length + 1 ∧
      w.sequence.values = leaveOut (takenPlaces 0 rs) (xs.take i) ++ v :: xs.drop (i + 1) ∧
      w.remove.after.sequence.values =
        leaveOut (takenPlaces 0 rs) (xs.take i) ++ xs.drop (i + 1) := by
  have hstanding := h.returned.2 hremovable
  obtain ⟨earlier, v, hgiven, hplaces, hbehind⟩ := h.exists_behind_eq hstanding
  have hxs : earlier ++ v :: w.ahead = xs := by
    rw [← h.given, hgiven, List.append_assoc]
    rfl
  have htake : xs.take earlier.length = earlier := by
    rw [← hxs]
    exact List.take_left' rfl
  have hdrop : xs.drop (earlier.length + 1) = w.ahead := by
    rw [← hxs, List.drop_length_add_append]
    rfl
  have hremove : w.remove.after = ⟨w.behind.tail, w.ahead, ⟨.removed, w.progress.yielded⟩⟩ := by
    have hclaim : w.progress.claimRemoval = .ok ⟨.removed, w.progress.yielded⟩ :=
      Progress.claimRemoval_eq_ok_iff.2 ⟨hstanding, rfl⟩
    rw [remove, hclaim]
  refine ⟨earlier.length, v, ?_, ?_, fun hmem => ?_, ?_, ?_, ?_⟩
  · rw [hgiven, List.length_append]
    rfl
  · rw [← hxs, List.getElem?_append_right (Nat.le_refl _), Nat.sub_self]
    rfl
  · exact Nat.lt_irrefl _ (hplaces _ hmem)
  · rw [position, hbehind, htake, List.length_cons, List.length_reverse]
  · rw [htake, hdrop, sequence, hbehind, List.reverse_cons, List.reverse_reverse,
      List.append_assoc]
    rfl
  · rw [htake, hdrop, hremove, sequence, hbehind, List.tail_cons, List.reverse_reverse]

end Walk.Recounts

/-! ## Whole walks -/

variable [Max α]

/-- Whatever the calls on a walk over a sequence were, the walk gives out the values by
their places, and its removals take out the place given out last: what is left are the
other places in order, whether or not their values are equal to those removed. -/
theorem walk_contract (s : Sequence α) (ps : List Primitive) :
    let x := Cursor.performAll (ps.map Primitive.call) s.walk
    Cursor.Contract s.values x.answer x.after x.after.progress ∧
    x.after.sequence.values = leaveOut (takenPlaces 0 x.answer) s.values ∧
    x.after.remaining + x.after.progress.yielded = s.size ∧
    (Removable x.answer → ∃ i v, (givenOut x.answer).length = i + 1 ∧ s.values[i]? = some v ∧
      i ∉ takenPlaces 0 x.answer ∧
      x.after.position = (leaveOut (takenPlaces 0 x.answer) (s.values.take i)).length + 1 ∧
      x.after.sequence.values =
        leaveOut (takenPlaces 0 x.answer) (s.values.take i) ++ v :: s.values.drop (i + 1) ∧
      x.after.remove.after.sequence.values =
        leaveOut (takenPlaces 0 x.answer) (s.values.take i) ++ s.values.drop (i + 1)) := by
  intro x
  have hrecounts := (Walk.recounts_walk s).performAll ps
  exact ⟨hrecounts.contract, hrecounts.values_eq, hrecounts.remaining_add_yielded,
    hrecounts.exists_place⟩

/-- Of two equal values the later one is removed, also after a read past the end. -/
theorem walk_contract_of_equal_values :
    let s : Sequence Int := ⟨[7, 5, 7]⟩
    let x := Cursor.performAll ([.next, .remove, .next, .next, .next].map Primitive.call) s.walk
    Removable x.answer ∧ takenPlaces 0 x.answer = [0] ∧
      x.after.sequence.values = [5, 7] ∧ x.after.remove.after.sequence.values = [5] := by
  intro s x
  have hremovable : Removable x.answer :=
    ⟨[.given (.ok 7), .gone (.ok ()), .given (.ok 5)], 7, [.given (.error (.exhausted 3))], rfl,
      by simp⟩
  obtain ⟨-, hvalues, -, hlast⟩ := walk_contract s [.next, .remove, .next, .next, .next]
  obtain ⟨i, v, hi, -, -, -, -, hremove⟩ := hlast hremovable
  obtain rfl : 2 = i := Nat.succ.inj hi
  exact ⟨hremovable, rfl, hvalues, hremove⟩

end IntWalk.Sequence
