import IntWalk.Proofs.Cursor.Stateful
import IntWalk.Proofs.Cursor.Tracks
import Mathlib.Data.List.Count

/-!
# Filtering the rest of a walk

Filtering may begin anywhere in a walk.  It asks the chooser about each element still ahead, in
order, and removes those that it picks; what was given out before stays as it is, the element
given out last included (`FiltersRest`).  What a chooser says may hang on what it was asked
before, so what it says of a list is a list as well (`Chooser.verdicts`).
-/

namespace IntWalk

variable {α : Type}

/-! ## What a chooser says -/

namespace Chooser

variable (choose : Chooser α) (asked : List α) (v : α) (vs : List α)

/-- What the chooser says of the elements, asked about them in order when it was asked about
`asked` before, the latest first. -/
def verdicts : List Bool := vs.mapIdx fun i v => choose ((vs.take i).reverse ++ asked) v

/-- The elements that it does not pick, in order. -/
def spared : List α := ((vs.zip (choose.verdicts asked vs)).filter fun x => !x.2).map Prod.fst

@[simp] lemma verdicts_cons : choose.verdicts asked (v :: vs) =
    choose asked v :: choose.verdicts (v :: asked) vs := by
  simp [verdicts, List.mapIdx_cons]

@[simp] lemma length_verdicts : (choose.verdicts asked vs).length = vs.length :=
  List.length_mapIdx

lemma spared_cons_of_picked (h : choose asked v = true) :
    choose.spared asked (v :: vs) = choose.spared (v :: asked) vs := by
  simp [spared, h]

lemma spared_cons_of_not_picked (h : choose asked v ≠ true) :
    choose.spared asked (v :: vs) = v :: choose.spared (v :: asked) vs := by
  simp [spared, h]

/-! A chooser may look at the element only. -/

variable (p : α → Bool)

lemma verdicts_ofElement : (ofElement p).verdicts asked vs = vs.map p := by
  induction vs generalizing asked with
  | nil => rfl
  | cons v vs ih => rw [verdicts_cons, ih, List.map_cons, ofElement]

lemma spared_ofElement : (ofElement p).spared asked vs = vs.filter fun v => !p v := by
  induction vs generalizing asked with
  | nil => rfl
  | cons v vs ih =>
    by_cases hv : p v = true
    · rw [spared_cons_of_picked _ _ _ _ hv, ih, List.filter_cons_of_neg (by simp [hv])]
    · rw [spared_cons_of_not_picked _ _ _ _ hv, ih, List.filter_cons_of_pos (by simp [hv])]

end Chooser

/-- The progress of a walk that gave out an element for each verdict and removed those picked. -/
def Progress.filtered (p : Progress) (verdicts : List Bool) : Progress where
  standing := match verdicts.getLast? with
    | none => p.standing
    | some true => .removed
    | some false => .returned
  yielded := p.yielded + verdicts.length

lemma Progress.filtered_cons (p : Progress) (picked : Bool) (verdicts : List Bool) :
    p.filtered (picked :: verdicts) =
      (if picked then ⟨.removed, p.yielded + 1⟩ else p.advance).filtered verdicts := by
  have hyielded : p.yielded + (verdicts.length + 1) = p.yielded + 1 + verdicts.length := by omega
  rw [filtered, filtered, List.getLast?_cons, List.length_cons, hyielded]
  -- the last verdict decides, and if there is no other this is the first
  rcases verdicts.getLast? with _ | last
  · cases picked <;> rfl
  · cases last <;> cases picked <;> rfl

namespace Cursor

variable {σ : Type} [Cursor σ Event α]

/-- Filtering asks about just the elements `left` not given out yet and removes those picked,
each of them once; it keeps those that were `passed`.  Afterwards the walk has come to its end, and
a predicate that passes a state along has passed it along the elements left. -/
structure FiltersRest (view : σ → List α) (progress : σ → Progress) (choose : Chooser α)
    (passed left : List α) (s : σ) : Prop where
  asks : (removeIf choose s).answer.asked = left
  counts : (removeIf choose s).answer.removed = .ok ((choose.verdicts [] left).count true)
  before : view s = passed ++ left
  keeps : view (removeIf choose s).after = passed ++ choose.spared [] left
  ended : (hasNext (removeIf choose s).after).answer = false
  vain : (next (removeIf choose s).after).answer =
    .error (.exhausted ((progress s).yielded + left.length))
  progress : progress (removeIf choose s).after = (progress s).filtered (choose.verdicts [] left)
  passesOn : ∀ {τ : Type} (f : τ → α → Bool × τ) (t : τ), choose = .ofState f t →
    removeIfBy f t s = (removeIf choose s).map fun out =>
      (out.removed, Chooser.stateAfter f t left)

/-- What filtering comes to on a cursor that tracks a list, where the elements `asked` were met
before, the latest first, and `removed` of them removed. -/
structure Swept (R : σ → Sequence.Walk α → Prop) (choose : Chooser α) (asked : List α)
    (removed : Nat) (u : Sequence.Walk α) (x : Step Event σ (Sweep α)) : Prop where
  asks : x.answer.asked = asked.reverse ++ u.ahead
  counts : x.answer.removed = .ok (removed + (choose.verdicts asked u.ahead).count true)
  tracked : R x.after ⟨(choose.spared asked u.ahead).reverse ++ u.behind, [],
    u.progress.filtered (choose.verdicts asked u.ahead)⟩

namespace Tracks

variable {R : σ → Sequence.Walk α → Prop} {view : σ → List α} {progress : σ → Progress}
variable (h : Tracks R view progress) {s : σ} {u : Sequence.Walk α} (hs : R s u)
include h hs

lemma swept (choose : Chooser α) (asked : List α) (removed : Nat) :
    Swept R choose asked removed u (sweep choose asked removed s) := by
  -- on the elements ahead
  obtain ⟨behind, ahead, p⟩ := u
  induction ahead generalizing s behind p asked removed with
  | nil =>
    obtain ⟨hasked, -⟩ := h.round hs
    rw [sweep_eq, hasked]
    exact ⟨(List.append_nil _).symm, rfl, hs⟩
  | cons v ahead ih =>
    obtain - | ⟨hasked, hgiven, htracked⟩ := h.round hs
    rw [sweep_eq, hasked, Step.still_andThen, if_pos rfl, hgiven, Step.still_andThen]
    dsimp only
    by_cases hv : choose asked v = true
    · obtain ⟨hgone, hafter⟩ := h.remove_of_returned htracked rfl
      rw [if_pos hv, Step.andThen, hgone]
      obtain ⟨hasks, hcounts, htracked⟩ := ih (v :: asked) (removed + 1) _ _ hafter
      refine ⟨?_, ?_, ?_⟩
      · simpa using hasks
      · simpa [hv, Nat.add_assoc, Nat.add_comm 1] using hcounts
      · simpa [hv, Chooser.spared_cons_of_picked, Progress.filtered_cons] using htracked
    · rw [if_neg hv]
      obtain ⟨hasks, hcounts, htracked⟩ := ih (v :: asked) removed _ _ htracked
      refine ⟨?_, ?_, ?_⟩
      · simpa using hasks
      · simpa [hv] using hcounts
      · simpa [hv, Chooser.spared_cons_of_not_picked, Progress.filtered_cons] using htracked

lemma filtersRest (choose : Chooser α) :
    FiltersRest view progress choose u.behind.reverse u.ahead s := by
  obtain ⟨hasks, hcounts, htracked⟩ := h.swept hs choose [] 0
  rw [Nat.zero_add] at hcounts
  obtain ⟨hended, hvain⟩ := h.round htracked
  refine ⟨hasks, hcounts, h.view_eq hs, ?_, ?_, ?_, ?_, ?_⟩
  · rw [removeIf, h.view_eq htracked]
    simp
  · rw [removeIf, hended]
    rfl
  · rw [removeIf, hvain, h.progress_eq hs]
    simp [Progress.filtered]
  · rw [removeIf, h.progress_eq htracked, h.progress_eq hs]
  · rintro τ f t rfl
    have hasked : (removeIf (.ofState f t) s).answer.asked = u.ahead := hasks
    rw [removeIfBy_eq_map_removeIf, ← hasked]
    rfl

/-- A chooser that looks at the element only filters what is ahead as a list is filtered. -/
lemma filters_ofElement (p : α → Bool) :
    (removeIf (.ofElement p) s).answer.removed = .ok (u.ahead.filter p).length ∧
      view (removeIf (.ofElement p) s).after =
        u.behind.reverse ++ u.ahead.filter fun v => !p v := by
  obtain ⟨-, hcounts, -, hkeeps, -⟩ := h.filtersRest hs (.ofElement p)
  rw [Chooser.verdicts_ofElement, List.count, List.countP_map] at hcounts
  rw [Chooser.spared_ofElement] at hkeeps
  refine ⟨?_, hkeeps⟩
  rw [hcounts, List.countP_eq_length_filter]
  simp [Function.comp_def]

end Tracks

end Cursor

/-- Wherever a walk over a sequence, a bit set or a part set stands, filtering what is left of it
comes to an end without failing, asks about each element not given out yet once and in order, and
removes just those that the chooser picked. -/
theorem removeIf_filters_rest [Max α] (xs : Sequence α) (s : BitSet) {t : PartSet}
    (ht : t.Reachable) :
    Cursor.Midway xs.values xs.walk (fun passed left w => ∀ choose,
      Cursor.FiltersRest (fun w => w.sequence.values) Sequence.Walk.progress choose passed left w) ∧
    Cursor.Midway s.toList s.walk (fun passed left w => ∀ choose,
      Cursor.FiltersRest (fun w => w.bits.toList) BitSet.Walk.progress choose passed left w) ∧
    Cursor.Midway t.toList t.walk (fun passed left w => ∀ choose,
      Cursor.FiltersRest (fun w => w.parts.toList) PartSet.Walk.progress choose passed left w) := by
  refine ⟨?_, ?_, ?_⟩
  · exact Sequence.Walk.tracks.midway rfl fun w u h => Sequence.Walk.tracks.filtersRest h
  · exact BitSet.Walk.tracks.midway (BitSet.Walk.follows_walk s)
      fun w u h => BitSet.Walk.tracks.filtersRest h
  · exact PartSet.Walk.tracks.midway (PartSet.Walk.follows_walk ht.canonical)
      fun w u h => PartSet.Walk.tracks.filtersRest h

/-- A walk that cut a run at the second part given out, and then removes every second of the parts
that are left. -/
theorem removeIf_filters_rest_after_cut :
    let t := ((((PartSet.empty.ask (.insert 4)).after.ask (.insert 5)).after.ask
      (.insert 6)).after.ask (.insert 8)).after
    let w := (Cursor.performAll [.next, .next, .remove] t.walk).after
    let everySecond : Chooser Part := fun asked _ => asked.length % 2 == 0
    Cursor.FiltersRest (fun w => w.parts.toList) PartSet.Walk.progress everySecond [4] [6, 8] w ∧
      everySecond.verdicts [] [6, 8] = [true, false] := by
  intro t w everySecond
  have ht : t.Reachable := .request _ (.request _ (.request _ (.request _ .empty)))
  obtain ⟨-, -, hparts⟩ := removeIf_filters_rest (Sequence.empty : Sequence Nat) .empty ht
  have hgiven : givenOut ((Cursor.trace [.next, .next, .remove] t.walk).map Told.reply) =
      [4, 5] := by decide +kernel
  have hplaces : takenPlaces 0 ((Cursor.trace [.next, .next, .remove] t.walk).map Told.reply) =
      [1] := by decide +kernel
  have hlist : t.toList = [4, 5] ++ [6, 8] := by decide +kernel
  exact ⟨hparts.after hgiven hplaces hlist everySecond, rfl⟩

end IntWalk
