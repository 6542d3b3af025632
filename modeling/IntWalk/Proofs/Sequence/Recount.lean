import IntWalk.Proofs.Cursor.History
import IntWalk.Sequence.Walk

/-!
# A walk over a sequence recounted

The state of a walk over a sequence follows from its history.  What was given out
and what lies ahead make up the sequence at the start, and what lies behind is what
was given out but for the places taken out again (`Recounts`).  The three calls keep
this, so the walk meets the contract.
-/

namespace IntWalk

variable {α : Type} {xs ys : List α} {v : α} {places : List Nat}

/-- The elements but those at the given places. -/
def leaveOut (places : List Nat) (xs : List α) : List α :=
  (xs.zipIdx.filter fun x => x.2 ∉ places).map Prod.fst

lemma mem_leaveOut : v ∈ leaveOut places xs ↔ ∃ i, xs[i]? = some v ∧ i ∉ places := by
  simp only [leaveOut, List.mem_map, List.mem_filter, decide_eq_true_eq, Prod.exists,
    List.mem_zipIdx_iff_getElem?, exists_and_right, exists_eq_right]

/-- Elements beyond all of the places are kept. -/
lemma leaveOut_append (h : ∀ i ∈ places, i < xs.length) :
    leaveOut places (xs ++ ys) = leaveOut places xs ++ ys := by
  have hys : (ys.zipIdx xs.length).filter (fun x => x.2 ∉ places) = ys.zipIdx xs.length := by
    refine List.filter_eq_self.2 fun x hx => decide_eq_true fun hi => ?_
    have := List.le_snd_of_mem_zipIdx hx
    have := h x.2 hi
    omega
  rw [leaveOut, List.zipIdx_append, List.filter_append, List.map_append, Nat.zero_add, hys,
    List.zipIdx_map_fst]
  rfl

/-- Leaving out the last place as well takes the last element away. -/
lemma leaveOut_append_singleton :
    leaveOut (places ++ [xs.length]) (xs ++ [v]) = leaveOut places xs := by
  have hxs : xs.zipIdx.filter (fun x => x.2 ∉ places ++ [xs.length]) =
      xs.zipIdx.filter (fun x => x.2 ∉ places) := by
    refine List.filter_congr fun x hx => ?_
    have := List.snd_lt_of_mem_zipIdx hx
    have hne : x.2 ≠ xs.length := by omega
    simp [hne]
  have hv : ([v].zipIdx xs.length).filter (fun x => x.2 ∉ places ++ [xs.length]) = [] := by
    simp
  rw [leaveOut, List.zipIdx_append, List.filter_append, hxs, Nat.zero_add, hv, List.append_nil]
  rfl

namespace Sequence.Walk

variable {rs : List (Reply α)} {w : Walk α}

lemma remove_answer (w : Walk α) : w.remove.answer = match w.progress.standing with
    | .unread => .error (.refused .nothingReturned)
    | .returned => .ok ()
    | .removed => .error (.refused .alreadyRemoved) := by
  rw [remove, Progress.claimRemoval]
  cases w.progress.standing <;> rfl

/-- The state of the walk follows from the replies. -/
structure Recounts (xs : List α) (rs : List (Reply α)) (w : Walk α) : Prop where
  given : givenOut rs ++ w.ahead = xs
  kept : w.behind.reverse = leaveOut (takenPlaces 0 rs) (givenOut rs)
  places : ∀ i ∈ takenPlaces 0 rs, i < (givenOut rs).length
  last : w.progress.standing = .returned → ∀ i ∈ takenPlaces 0 rs, i + 1 < (givenOut rs).length
  yielded : w.progress.yielded = (givenOut rs).length
  unread : w.progress.standing = .unread ↔ givenOut rs = []
  returned : w.progress.standing = .returned ↔ Removable rs

lemma recounts_walk (s : Sequence α) : Recounts s.values [] s.walk where
  given := rfl
  kept := rfl
  places := by simp [takenPlaces]
  last := by simp [takenPlaces]
  yielded := rfl
  unread := ⟨fun _ => rfl, fun _ => rfl⟩
  returned := by simp [walk, not_removable_nil]

namespace Recounts

variable (h : Recounts xs rs w)
include h

/-- A call that gives nothing out, removes nothing and leaves the walk as it was. -/
lemma silent {r : Reply α} (hr : r.Silent) : Recounts xs (rs ++ [r]) w where
  given := by rw [hr.givenOut, h.given]
  kept := by rw [hr.givenOut, hr.takenPlaces, h.kept]
  places := by
    rw [hr.givenOut, hr.takenPlaces]
    exact h.places
  last := by
    rw [hr.givenOut, hr.takenPlaces]
    exact h.last
  yielded := by rw [hr.givenOut, h.yielded]
  unread := by rw [hr.givenOut, h.unread]
  returned := by rw [hr.removable, h.returned]

lemma next_given {ahead : List α} (hw : w.ahead = v :: ahead) :
    Recounts xs (rs ++ [.given (.ok v)]) ⟨v :: w.behind, ahead, w.progress.advance⟩ where
  given := by
    rw [givenOut_given, List.append_assoc, List.singleton_append, ← hw]
    exact h.given
  kept := by
    rw [givenOut_given, takenPlaces_given, leaveOut_append h.places, List.reverse_cons, h.kept]
  places i hi := by
    rw [takenPlaces_given] at hi
    rw [givenOut_given, List.length_append]
    exact Nat.lt_of_lt_of_le (h.places i hi) (Nat.le_add_right _ _)
  last _ i hi := by
    rw [takenPlaces_given] at hi
    rw [givenOut_given, List.length_append]
    exact Nat.add_lt_add_right (h.places i hi) 1
  yielded := by
    rw [givenOut_given, List.length_append, Progress.advance_yielded, h.yielded]
    rfl
  unread := by
    rw [givenOut_given]
    simp
  returned := by
    rw [removable_append_singleton]
    simp

/-- An element that may be removed stands next to the cut. -/
lemma exists_behind_eq (hw : w.progress.standing = .returned) :
    ∃ earlier v, givenOut rs = earlier ++ [v] ∧ (∀ i ∈ takenPlaces 0 rs, i < earlier.length) ∧
      w.behind = v :: (leaveOut (takenPlaces 0 rs) earlier).reverse := by
  have hne : givenOut rs ≠ [] := fun e => by
    rw [h.unread.2 e] at hw
    cases hw
  obtain ⟨earlier, v, hv⟩ := (List.eq_nil_or_concat' (givenOut rs)).resolve_left hne
  have hplaces : ∀ i ∈ takenPlaces 0 rs, i < earlier.length := by
    intro i hi
    have := h.last hw i hi
    rw [hv, List.length_append, List.length_singleton] at this
    omega
  refine ⟨earlier, v, hv, hplaces, ?_⟩
  have hkept := h.kept
  rw [hv, leaveOut_append hplaces] at hkept
  rw [← List.reverse_reverse w.behind, hkept, List.reverse_append]
  rfl

lemma remove_gone (hw : w.progress.standing = .returned) : Recounts xs (rs ++ [.gone (.ok ())])
    ⟨w.behind.tail, w.ahead, ⟨.removed, w.progress.yielded⟩⟩ := by
  -- the place taken is the last one given out; those taken before lie earlier
  obtain ⟨earlier, v, hv, hplaces, hbehind⟩ := h.exists_behind_eq hw
  have hlast : (givenOut rs).length - 1 = earlier.length := by
    rw [hv, List.length_append, List.length_singleton, Nat.add_sub_cancel]
  refine ⟨?_, ?_, ?_, ?_, ?_, ?_, ?_⟩
  · rw [givenOut_gone]
    exact h.given
  · rw [givenOut_gone, takenPlaces_gone, hlast, hv, leaveOut_append_singleton, hbehind,
      List.tail_cons, List.reverse_reverse]
  · intro i hi
    rw [takenPlaces_gone, hlast, List.mem_append, List.mem_singleton] at hi
    rw [givenOut_gone, hv, List.length_append, List.length_singleton]
    rcases hi with hi | rfl
    · exact Nat.lt_succ_of_lt (hplaces i hi)
    · exact Nat.lt_succ_self _
  · intro hs
    cases hs
  · rw [givenOut_gone]
    exact h.yielded
  · rw [givenOut_gone]
    exact ⟨nofun, fun e => absurd (hv.symm.trans e) (List.append_ne_nil_of_right_ne_nil _ nofun)⟩
  · rw [removable_append_singleton]
    refine ⟨nofun, ?_⟩
    rintro (⟨v, hv⟩ | ⟨-, hgone⟩)
    · cases hv
    · exact absurd rfl (hgone ())

/-- What is left of the sequence are the elements but those taken out. -/
lemma values_eq : w.sequence.values = leaveOut (takenPlaces 0 rs) xs := by
  rw [← h.given, leaveOut_append h.places, ← h.kept]
  rfl

/-- Of elements that occur once, those are left that were not taken out. -/
lemma mem_values_iff (nodup : xs.Nodup) :
    v ∈ w.sequence.values ↔ v ∈ xs ∧ v ∉ takenOut rs := by
  have hplace : ∀ i ∈ takenPlaces 0 rs, (givenOut rs)[i]? = xs[i]? := by
    intro i hi
    rw [← h.given, List.getElem?_append_left (h.places i hi)]
  have htaken : v ∈ takenOut rs ↔ ∃ i ∈ takenPlaces 0 rs, xs[i]? = some v := by
    rw [takenOut, List.mem_filterMap]
    refine exists_congr fun i => and_congr_right fun hi => ?_
    rw [hplace i hi]
  rw [h.values_eq, mem_leaveOut, htaken]
  constructor
  · -- another place that holds the element would be the same one
    rintro ⟨i, hi, hkept⟩
    refine ⟨List.mem_of_getElem? hi, ?_⟩
    rintro ⟨j, hj, hv⟩
    have hlt := (List.getElem?_eq_some_iff.1 hi).1
    have hij : i = j := (List.getElem?_inj hlt nodup).1 (hi.trans hv.symm)
    exact hkept (hij ▸ hj)
  · rintro ⟨hv, hkept⟩
    obtain ⟨i, hi⟩ := List.mem_iff_getElem?.1 hv
    exact ⟨i, hi, fun hp => hkept ⟨i, hp, hi⟩⟩

/-- The walk stands where the replies say. -/
lemma contract : Cursor.Contract xs rs w w.progress where
  inOrder := ⟨w.ahead, h.given⟩
  announces := by
    show (!w.ahead.isEmpty) = true ↔ _
    rw [← h.given, List.length_append]
    cases w.ahead <;> simp
  gives u := by
    show w.next.answer = _ ↔ _
    rw [← h.given, List.getElem?_append_right (Nat.le_refl _), Nat.sub_self, next]
    cases w.ahead <;> simp
  exhausted e := by
    show w.next.answer = _ ↔ _
    rw [← h.given, List.length_append, next]
    cases w.ahead with
    | nil => simp [h.yielded, eq_comm]
    | cons v ahead =>
      refine ⟨nofun, fun ⟨hle, _⟩ => ?_⟩
      rw [List.length_cons] at hle
      omega
  removes := by
    show w.remove.answer = _ ↔ _
    rw [← h.returned, remove_answer]
    cases w.progress.standing <;> simp
  nothingReturned := by
    show w.remove.answer = _ ↔ _
    rw [← h.unread, remove_answer]
    cases w.progress.standing <;> simp
  alreadyRemoved := by
    show w.remove.answer = _ ↔ _
    rw [ne_eq, ← h.unread, ← h.returned, remove_answer]
    cases w.progress.standing <;> simp
  yielded := h.yielded
  unread := h.unread
  returned := h.returned
  removed := by
    rw [ne_eq, ← h.unread, ← h.returned]
    cases w.progress.standing <;> simp

variable [Max α]

/-- Each of the three calls keeps the account. -/
lemma perform (p : Primitive) : Recounts xs (rs ++ [(Cursor.perform p.call w).answer])
    (Cursor.perform p.call w).after := by
  cases p with
  | hasNext => exact h.silent ⟨nofun, nofun⟩
  | next =>
    show Recounts xs (rs ++ [.given w.next.answer]) w.next.after
    rw [next]
    split
    · exact h.silent ⟨nofun, nofun⟩
    · next v ahead hw => exact h.next_given hw
  | remove =>
    show Recounts xs (rs ++ [.gone w.remove.answer]) w.remove.after
    rw [remove]
    split
    · exact h.silent ⟨nofun, nofun⟩
    · next progress hw =>
      obtain ⟨hs, rfl⟩ := Progress.claimRemoval_eq_ok_iff.1 hw
      exact h.remove_gone hs

/-- The account goes on over a whole walk. -/
lemma performAll (ps : List Primitive) :
    Recounts xs (rs ++ (Cursor.performAll (ps.map Primitive.call) w).answer)
      (Cursor.performAll (ps.map Primitive.call) w).after := by
  induction ps generalizing rs w with
  | nil =>
    rw [List.map_nil, Cursor.performAll, Step.still_answer, List.append_nil]
    exact h
  | cons p ps ih =>
    have hrest := ih (h.perform p)
    rw [List.append_assoc] at hrest
    exact hrest

end Recounts

end Sequence.Walk

/-- The history of a cursor that mirrors the walk over a list goes on as that of the walk. -/
lemma Cursor.Mirrors.exists_recounts_perform {σ ε : Type} [Cursor σ ε α] [Max α]
    {R : σ → Sequence.Walk α → Prop} (m : Mirrors R) {s : σ} {u : Sequence.Walk α}
    {rs : List (Reply α)} (h : R s u) (hu : u.Recounts xs rs) (p : Primitive) :
    ∃ u', R (Cursor.perform p.call s).after u' ∧
      u'.Recounts xs (rs ++ [(Cursor.perform p.call s).answer]) := by
  obtain ⟨hanswer, hrelated⟩ := (m.echoes.perform p.call h).1
  refine ⟨_, hrelated, ?_⟩
  rw [hanswer]
  exact hu.perform p

/-- A cursor that mirrors the walk over a list has the history of such a walk. -/
lemma Cursor.Mirrors.exists_recounts {σ ε : Type} [Cursor σ ε α] [Max α]
    {R : σ → Sequence.Walk α → Prop} (m : Mirrors R) {s : σ} (h : R s (Sequence.walk ⟨xs⟩))
    (ps : List Primitive) :
    ∃ u, R (Cursor.performAll (ps.map Primitive.call) s).after u ∧
      u.Recounts xs (Cursor.performAll (ps.map Primitive.call) s).answer := by
  obtain ⟨hanswer, hrelated⟩ := m.performAll (ps.map Primitive.call) h
  have hrecounts := (Sequence.Walk.recounts_walk ⟨xs⟩).performAll ps
  rw [List.nil_append, ← hanswer] at hrecounts
  exact ⟨_, hrelated, hrecounts⟩

end IntWalk
