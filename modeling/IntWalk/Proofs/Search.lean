import IntWalk.Search
import Mathlib.Tactic.Lemma

/-!
# What the search finds

If `p` stays false in an array once it is false, then `boundary p` cuts the array
in two: `p` is true of all that comes before and false of the rest.
-/

namespace IntWalk

variable {α : Type} {p : α → Bool} {xs : Array α}

/-- Once the test is false in the array it stays false. -/
def Downward (p : α → Bool) (xs : Array α) : Prop :=
  ∀ i j (hi : i < xs.size) (hj : j < xs.size), i < j → p xs[j] = true → p xs[i] = true

lemma Downward.of_pairwise (h : xs.toList.Pairwise fun a b => p b = true → p a = true) :
    Downward p xs := by
  intro i j hi hj hij
  have := List.pairwise_iff_getElem.1 h i j (by simpa using hi) (by simpa using hj) hij
  simpa only [Array.getElem_toList] using this

/-- The boundary is found inside a window outside of which everything is known. -/
lemma lt_boundaryWithin_iff (down : Downward p xs) {lo hi : Nat} {fits : hi ≤ xs.size}
    (hle : lo ≤ hi) (below : ∀ i (h : i < xs.size), i < lo → p xs[i] = true)
    (above : ∀ i (h : i < xs.size), hi ≤ i → p xs[i] = false) (i : Nat) (h : i < xs.size) :
    i < boundaryWithin p xs lo hi fits ↔ p xs[i] = true := by
  fun_induction boundaryWithin p xs lo hi fits with
  | case1 lo hi fits window mid inside hp ih =>
    have hmid : mid = lo + (hi - lo) / 2 := rfl
    refine ih (by omega) (fun j hj hlt => ?_) above
    rcases Nat.lt_or_eq_of_le (Nat.le_of_lt_succ hlt) with hjm | rfl
    · exact down j mid hj inside hjm hp
    · exact hp
  | case2 lo hi fits window mid inside hp ih =>
    have hmid : mid = lo + (hi - lo) / 2 := rfl
    refine ih (by omega) below (fun j hj hle => ?_)
    rcases Nat.lt_or_eq_of_le hle with hmj | rfl
    · exact Bool.eq_false_iff.2 fun hpj => hp (down mid j inside hj hmj hpj)
    · exact Bool.eq_false_iff.2 hp
  | case3 lo hi fits window =>
    constructor
    · exact below i h
    · intro hp
      refine Nat.lt_of_not_le fun hle' => ?_
      have := above i h (by omega)
      rw [hp] at this
      contradiction

lemma lt_boundary_iff (down : Downward p xs) {i : Nat} (h : i < xs.size) :
    i < boundary p xs ↔ p xs[i] = true :=
  lt_boundaryWithin_iff down (Nat.zero_le _) (fun _ _ hlt => absurd hlt (Nat.not_lt_zero _))
    (fun _ hj hle => absurd hj (Nat.not_lt.2 hle)) i h

/-- The boundary cuts the array where the test stops being true. -/
lemma exists_split_boundary (down : Downward p xs) :
    ∃ before after, xs.toList = before ++ after ∧ before.length = boundary p xs ∧
      (∀ x ∈ before, p x = true) ∧ ∀ x ∈ after, p x = false := by
  have hle : boundary p xs ≤ xs.toList.length := by
    simpa using boundary_le_size p xs
  refine ⟨xs.toList.take (boundary p xs), xs.toList.drop (boundary p xs),
    (List.take_append_drop _ _).symm, List.length_take_of_le hle, fun x hx => ?_, fun x hx => ?_⟩
  · obtain ⟨i, hi, rfl⟩ := List.mem_take_iff_getElem.1 hx
    rw [Nat.min_eq_left hle] at hi
    exact (lt_boundary_iff down (by simpa using Nat.lt_of_lt_of_le hi hle)).1 hi
  · obtain ⟨i, hi, rfl⟩ := List.mem_drop_iff_getElem.1 hx
    have inside : boundary p xs + i < xs.size := by simpa [Nat.add_comm] using hi
    refine Bool.eq_false_iff.2 fun hp => ?_
    have := (lt_boundary_iff down inside).2 (by simpa using hp)
    omega

/-- A search finds the number of the elements that pass the test. -/
lemma boundary_eq_countP (down : Downward p xs) : boundary p xs = xs.countP p := by
  obtain ⟨before, after, hxs, hlength, hbefore, hafter⟩ := exists_split_boundary down
  have hnone : after.countP p = 0 :=
    List.countP_eq_zero.2 fun x hx => Bool.eq_false_iff.1 (hafter x hx)
  rw [← Array.countP_toList, hxs, List.countP_append, List.countP_eq_length.2 hbefore, hnone,
    Nat.add_zero, hlength]

/-- What stands at the boundary is what a pass from the front stops at. -/
lemma getElem?_boundary (down : Downward p xs) :
    xs[boundary p xs]? = xs.find? fun x => !p x := by
  obtain ⟨before, after, hxs, hlength, hbefore, hafter⟩ := exists_split_boundary down
  have hpassed : before.find? (fun x => !p x) = none :=
    List.find?_eq_none.2 fun x hx => by simp [hbefore x hx]
  rw [← Array.getElem?_toList, ← Array.find?_toList, hxs, List.find?_append, hpassed,
    Option.none_or, ← hlength, List.getElem?_append_right (Nat.le_refl _), Nat.sub_self]
  cases after with
  | nil => rfl
  | cons x rest => simp [hafter x (List.mem_cons_self ..)]

end IntWalk
