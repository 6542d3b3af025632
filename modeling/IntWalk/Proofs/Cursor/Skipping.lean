import IntWalk.Proofs.Bits.Text
import IntWalk.Proofs.Checked.Parts
import IntWalk.Proofs.Cursor.Tracks
import IntWalk.Proofs.Journals
import Mathlib.Logic.Function.Iterate

/-!
# Ways to advance

A walk can be advanced by skipping, by asking for elements whether or not there are any, by
reading a stream, and by a filter that picks nothing.  Each of them leaves the walk in the same
state, and the collection alone (`Advances`).  So skips add up, and what may be removed after a
skip is the last element skipped, or what it was before if there was none.
-/

namespace IntWalk

open Cursor

variable {C σ α : Type}

namespace Cursor

variable [Cursor σ Event α] [Max α]

/-- All ways to advance past up to `n` elements agree, where `left` are the elements ahead. -/
structure Advances (view : σ → List α) (holds : σ → C) (progress : σ → Progress)
    (passed left : List α) (s : σ) : Prop where
  before : view s = passed ++ left
  skips : ∀ n, (skip n s).answer = min n left.length
  progress : ∀ n, progress (skip n s).after = Progress.advance^[min n left.length] (progress s)
  untouched : ∀ n, holds (skip n s).after = holds s
  nexts : ∀ n, (performAll (List.replicate n .next) s).after = (skip n s).after
  takes : ∀ n, (take n s).after = (skip n s).after ∧ (take n s).answer = left.take n
  adds : ∀ m n, (skip m s).answer + (skip n (skip m s).after).answer = (skip (m + n) s).answer ∧
    (skip n (skip m s).after).after = (skip (m + n) s).after
  stays : ∀ n, (skip n s).answer = 0 → (skip n s).after = s
  removes : ∀ n k, (skip n s).answer = k + 1 →
    (remove (skip n s).after).answer = .ok () ∧
      view (remove (skip n s).after).after = passed ++ (left.take k ++ left.drop (k + 1))
  rejects : ∀ n, left.length ≤ n →
    (removeIf (.ofElement fun _ => false) s).after = (skip n s).after

namespace Tracks

variable {R : σ → Sequence.Walk α → Prop} {view : σ → List α} {progress : σ → Progress}
variable (h : Tracks R view progress) {s : σ} {u : Sequence.Walk α} (hs : R s u)
include h hs

omit [Max α] in
/-- Skipping moves elements across the cut. -/
lemma skipped (n : Nat) : (skip n s).answer = min n u.ahead.length ∧
    R (skip n s).after ⟨(u.ahead.take n).reverse ++ u.behind, u.ahead.drop n,
      Progress.advance^[min n u.ahead.length] u.progress⟩ := by
  induction n generalizing s u with
  | zero =>
    rw [Nat.zero_min]
    exact ⟨rfl, hs⟩
  | succ n ih =>
    obtain ⟨hasked, -⟩ | ⟨hasked, hgiven, htracked⟩ := h.round hs
    · rw [skip_of_ended hasked]
      exact ⟨rfl, hs⟩
    · obtain ⟨hanswer, hafter⟩ := ih htracked
      rw [skip_of_given hasked hgiven, List.length_cons, Nat.add_min_add_right]
      refine ⟨congrArg (· + 1) hanswer, ?_⟩
      rw [Function.iterate_succ_apply, List.take_succ_cons, List.reverse_cons, List.append_assoc]
      exact hafter

/-- A vain request changes nothing, so it matters not how many there are at the end. -/
lemma performAll_next (n : Nat) :
    (performAll (List.replicate n .next) s).after = (skip n s).after := by
  induction n generalizing s u with
  | zero => rfl
  | succ n ih =>
    obtain ⟨hasked, hvain⟩ | ⟨hasked, hgiven, htracked⟩ := h.round hs
    · have hrest := ih hs
      rw [skip_of_ended hasked] at hrest ⊢
      rw [List.replicate_succ, performAll, perform, hvain]
      exact hrest
    · rw [skip_of_given hasked hgiven, List.replicate_succ, performAll, perform, hgiven]
      exact ih htracked

omit [Max α] in
lemma take_eq (n : Nat) :
    (take n s).after = (skip n s).after ∧ (take n s).answer = u.ahead.take n := by
  induction n generalizing s u with
  | zero => exact ⟨rfl, rfl⟩
  | succ n ih =>
    obtain ⟨hasked, -⟩ | ⟨hasked, hgiven, htracked⟩ := h.round hs
    · rw [take_of_ended hasked, skip_of_ended hasked]
      exact ⟨rfl, rfl⟩
    · obtain ⟨hafter, hanswer⟩ := ih htracked
      rw [take_of_given hasked hgiven, skip_of_given hasked hgiven]
      exact ⟨hafter, congrArg (_ :: ·) hanswer⟩

omit [Max α] in
lemma skip_skip (m n : Nat) :
    (skip m s).answer + (skip n (skip m s).after).answer = (skip (m + n) s).answer ∧
      (skip n (skip m s).after).after = (skip (m + n) s).after := by
  induction m generalizing s u with
  | zero =>
    rw [Nat.zero_add]
    exact ⟨Nat.zero_add _, rfl⟩
  | succ m ih =>
    obtain ⟨hasked, -⟩ | ⟨hasked, hgiven, htracked⟩ := h.round hs
    · rw [skip_of_ended hasked, skip_of_ended hasked, Step.still_after, skip_of_ended hasked]
      exact ⟨rfl, rfl⟩
    · obtain ⟨hanswer, hafter⟩ := ih htracked
      rw [Nat.add_right_comm, skip_of_given hasked hgiven, skip_of_given hasked hgiven]
      refine ⟨?_, hafter⟩
      rw [Step.map_answer, Step.map_answer, Step.map_after, ← hanswer, Nat.add_right_comm]

omit [Max α] in
lemma skip_of_answer_eq_zero {n : Nat} (hn : (skip n s).answer = 0) : (skip n s).after = s := by
  cases n with
  | zero => rfl
  | succ n =>
    obtain ⟨hasked, -⟩ | ⟨hasked, hgiven, -⟩ := h.round hs
    · rw [skip_of_ended hasked, Step.still_after]
    · rw [skip_of_given hasked hgiven] at hn
      cases hn

omit [Max α] in
/-- The last element skipped stands next to the cut, and may be removed. -/
lemma remove_skip {n k : Nat} (hk : (skip n s).answer = k + 1) :
    (remove (skip n s).after).answer = .ok () ∧
      view (remove (skip n s).after).after =
        u.behind.reverse ++ (u.ahead.take k ++ u.ahead.drop (k + 1)) := by
  obtain ⟨hanswer, htracked⟩ := h.skipped hs n
  have hmin : min n u.ahead.length = k + 1 := hanswer.symm.trans hk
  have hlt : k < u.ahead.length := by omega
  have htake : u.ahead.take n = u.ahead.take k ++ [u.ahead[k]] := by
    rw [← List.take_succ_eq_append_getElem hlt, List.take_eq_take_iff]
    omega
  have hdrop : u.ahead.drop n = u.ahead.drop (k + 1) := by
    rw [List.drop_eq_drop_iff]
    omega
  have hstanding : (Progress.advance^[k + 1] u.progress).standing = .returned := by
    rw [Function.iterate_succ_apply', Progress.advance_standing]
  rw [hmin, htake, hdrop, List.reverse_concat, List.cons_append] at htracked
  obtain ⟨hgone, hafter⟩ := h.remove_of_returned htracked hstanding
  refine ⟨hgone, ?_⟩
  rw [h.view_eq hafter, List.reverse_append, List.reverse_reverse, List.append_assoc]

omit [Max α] in
/-- A filter that picks nothing passes over all that is left. -/
lemma sweep_never (asked : List α) (removed : Nat) {n : Nat} (hn : u.ahead.length ≤ n) :
    (sweep (.ofElement fun _ => false) asked removed s).after = (skip n s).after := by
  induction n generalizing s u asked with
  | zero =>
    obtain ⟨hasked, -⟩ | - := h.round hs
    · rw [sweep_eq, hasked]
      rfl
    · cases hn
  | succ n ih =>
    obtain ⟨hasked, -⟩ | ⟨hasked, hgiven, htracked⟩ := h.round hs
    · rw [sweep_eq, skip_of_ended hasked, hasked]
      rfl
    · rw [sweep_eq, hasked, Step.still_andThen, if_pos rfl, hgiven, Step.still_andThen,
        skip_of_given hasked hgiven]
      exact ih htracked _ (Nat.le_of_succ_le_succ hn)

lemma advances {holds : σ → C} (gives : ∀ s, holds (next s).after = holds s) :
    Advances view holds progress u.behind.reverse u.ahead s where
  before := h.view_eq hs
  skips n := (h.skipped hs n).1
  progress n := by rw [h.progress_eq (h.skipped hs n).2, h.progress_eq hs]
  untouched n := by
    induction n generalizing s u with
    | zero => rfl
    | succ n ih =>
      obtain ⟨hasked, -⟩ | ⟨hasked, hgiven, htracked⟩ := h.round hs
      · rw [skip_of_ended hasked, Step.still_after]
      · have hgives := gives s
        rw [hgiven, Step.still_after] at hgives
        rw [skip_of_given hasked hgiven, Step.map_after, ih htracked, hgives]
  nexts n := h.performAll_next hs n
  takes n := h.take_eq hs n
  adds m n := h.skip_skip hs m n
  stays n hn := h.skip_of_answer_eq_zero hs hn
  removes n k hk := h.remove_skip hs hk
  rejects n hn := h.sweep_never hs [] 0 hn

end Tracks

end Cursor

lemma BitSet.Accurate.length_toList {s : BitSet} (h : s.Accurate) : s.toList.length = s.size := by
  rw [h, members, List.toFinset_card_of_nodup s.nodup_toList]

variable [Max α] {s₀ s : BitSet} {t : PartSet}

/-- Wherever a walk over a sequence, a bit set or a part set stands, all ways to advance it agree.
To filter it with a chooser that picks nothing comes to skipping as many elements as a number of
64 bits can say, for there are no more; of a sequence, whose length nothing else bounds, this has
to be said. -/
theorem ways_to_advance_agree (xs : Sequence α) (h₀ : BitSet.Origin s₀)
    (h : BitSet.Reaches s₀ s) (ht : t.Reachable) :
    Midway xs.values xs.walk (fun passed left w =>
      Advances (fun w => w.sequence.values) Sequence.Walk.sequence Sequence.Walk.progress
        passed left w ∧
      (xs.size < UInt64.size →
        (removeIf (.ofElement fun _ => false) w).after = (skip (UInt64.size - 1) w).after)) ∧
    Midway s.toList s.walk (fun passed left w =>
      Advances (fun w => w.bits.toList) BitSet.Walk.bits BitSet.Walk.progress passed left w ∧
      (removeIf (.ofElement fun _ => false) w).after = (skip (UInt64.size - 1) w).after) ∧
    Midway t.toList t.walk (fun passed left w =>
      Advances (fun w => w.parts.toList) PartSet.Walk.parts PartSet.Walk.progress passed left w ∧
      (removeIf (.ofElement fun _ => false) w).after = (skip (UInt64.size - 1) w).after) := by
  have hbits : s.toList.length < UInt64.size := by
    obtain ⟨haccurate, hcapacity⟩ := h.accurate h₀.accurate
    have hle := haccurate.size_le_capacity
    have hlargest := h₀.capacity_le
    rw [hcapacity] at hle
    rw [haccurate.length_toList]
    exact Nat.lt_of_le_of_lt (Nat.le_trans hle hlargest) (by decide)
  have hparts : t.toList.length < UInt64.size := by
    rw [PartSet.length_toList]
    exact ht.canonical.size_lt
  have hsequence := Sequence.Walk.tracks.midway (s := xs.walk) rfl fun w u hw =>
    Sequence.Walk.tracks.advances hw (Sequence.kept_ledger xs).gives
  have hbitset := BitSet.Walk.tracks.midway (BitSet.Walk.follows_walk s) fun w u hw =>
    BitSet.Walk.tracks.advances hw (BitSet.kept_ledger s).gives
  have hpartset := PartSet.Walk.tracks.midway (PartSet.Walk.follows_walk ht.canonical)
    fun w u hw => PartSet.Walk.tracks.advances hw (PartSet.kept_ledger t).gives
  refine ⟨hsequence.imp ?_, hbitset.imp ?_, hpartset.imp ?_⟩
  · intro passed left w hle hw
    exact ⟨hw, fun hxs => hw.rejects _ (Nat.le_pred_of_lt (Nat.lt_of_le_of_lt hle hxs))⟩
  · intro passed left w hle hw
    exact ⟨hw, hw.rejects _ (Nat.le_pred_of_lt (Nat.lt_of_le_of_lt hle hbits))⟩
  · intro passed left w hle hw
    exact ⟨hw, hw.rejects _ (Nat.le_pred_of_lt (Nat.lt_of_le_of_lt hle hparts))⟩

/-- A walk that removed its first member: to skip is to pass the other one, which can be removed
then, and to filter with nothing picked comes to the same as to skip far beyond the end. -/
theorem ways_to_advance_agree_after_removal :
    let s := (((BitSet.ofCapacity ⟨6, by decide, by decide⟩).ask (.insert 5)).after.ask
      (.insert 2)).after
    let w := (performAll [.next, .remove] s.walk).after
    Advances (fun w => w.bits.toList) BitSet.Walk.bits BitSet.Walk.progress [] [5] w ∧
      (removeIf (.ofElement fun _ => false) w).after = (skip (UInt64.size - 1) w).after := by
  intro s w
  have hs : BitSet.Reaches _ s := .request (.insert 2) (.request (.insert 5) .refl)
  obtain ⟨-, hbits, -⟩ := ways_to_advance_agree (Sequence.empty : Sequence Nat)
    (.ofCapacity _) hs .empty
  have hgiven : givenOut ((trace [.next, .remove] s.walk).map Told.reply) = [2] := by
    decide +kernel
  have hplaces : takenPlaces 0 ((trace [.next, .remove] s.walk).map Told.reply) = [0] := by
    decide +kernel
  have hlist : s.toList = [2] ++ [5] := by decide +kernel
  exact hbits.after hgiven hplaces hlist

end IntWalk
