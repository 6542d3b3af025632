import IntWalk.Proofs.Cursor.Mirror

/-!
# Predicates with a state

A predicate may carry a state along from each question to the next.  As a chooser it has to make
up its state from the elements that it was asked about before (`Chooser.ofState`).  Filtering that
passes the state along (`removeIfBy`) comes to the same: the elements before are just those that
the predicate was asked about, once each and in order, and the state that filtering leaves is what
these questions have made of the first.  The other way round, a chooser is a predicate that writes
the questions down (`Chooser.writing`).
-/

namespace IntWalk

variable {α τ : Type}

namespace Chooser

/-- The state of the predicate once it was asked about the elements, in order. -/
def stateAfter (f : τ → α → Bool × τ) (t : τ) (vs : List α) : τ :=
  vs.foldl (fun t v => (f t v).2) t

lemma stateAfter_reverse_cons (f : τ → α → Bool × τ) (t : τ) (v : α) (asked : List α) :
    stateAfter f t (v :: asked).reverse = (f (stateAfter f t asked.reverse) v).2 := by
  simp only [stateAfter, List.reverse_cons, List.foldl_append, List.foldl_cons, List.foldl_nil]

/-- The chooser that asks the predicate in the state that the elements before have led to. -/
def ofState (f : τ → α → Bool × τ) (t : τ) : Chooser α :=
  fun asked v => (f (stateAfter f t asked.reverse) v).1

/-- The predicate that answers like the chooser and writes down what it is asked about. -/
def writing (choose : Chooser α) (asked : List α) (v : α) : Bool × List α :=
  (choose asked v, v :: asked)

lemma stateAfter_writing (choose : Chooser α) (asked vs : List α) :
    stateAfter choose.writing asked vs = vs.reverse ++ asked := by
  induction vs generalizing asked with
  | nil => rfl
  | cons v vs ih =>
    rw [List.reverse_cons, List.append_assoc]
    exact ih (v :: asked)

lemma ofState_writing (choose : Chooser α) : ofState choose.writing [] = choose := by
  funext asked v
  rw [ofState, stateAfter_writing, List.reverse_reverse, List.append_nil, writing]

end Chooser

/-- If the second call comes to the same up to its answer, so do both calls together. -/
lemma Step.andThen_eq_map {ε σ ρ φ ψ : Type} {x : Step ε σ ρ} {k : ρ → σ → Step ε σ φ}
    {l : ρ → σ → Step ε σ ψ} {g : φ → ψ} (h : l x.answer x.after = (k x.answer x.after).map g) :
    x.andThen l = (x.andThen k).map g := congrArg (Step.preceded x.events) h

namespace Cursor

variable {σ ε : Type} [Cursor σ ε α]

/-- Filters the rest of a walk in which `removed` elements were removed, with a predicate in that
state. -/
def sweepBy (f : τ → α → Bool × τ) (t : τ) (removed : Nat) (s : σ) :
    Step ε σ (Except WalkError Nat × τ) :=
  let has := hasNext s
  if _more : has.answer = true then
    let given := next has.after
    match _got : given.answer with
    | .error e => ⟨(.error e, t), given.after, has.events ++ given.events⟩
    | .ok v =>
      if (f t v).1 then
        let gone := remove given.after
        let events := has.events ++ (given.events ++ gone.events)
        match gone.answer with
        | .error e => ⟨(.error e, (f t v).2), gone.after, events⟩
        | .ok () => (sweepBy f (f t v).2 (removed + 1) gone.after).preceded events
      else (sweepBy f (f t v).2 removed given.after).preceded (has.events ++ given.events)
  else ⟨(.ok removed, t), has.after, has.events⟩
termination_by budget s
decreasing_by
  · exact Nat.lt_of_le_of_lt (budget_remove_le _) (budget_next_lt _more _got)
  · exact budget_next_lt _more _got

/-- Visits every element left and removes those that the predicate picks, which is asked once about
each of them and passes its state along. -/
def removeIfBy (f : τ → α → Bool × τ) (t : τ) (s : σ) : Step ε σ (Except WalkError Nat × τ) :=
  sweepBy f t 0 s

open Chooser (stateAfter ofState)

/-- Filtering asks for an element, gives it to the predicate and goes on with the new state. -/
lemma sweepBy_eq (f : τ → α → Bool × τ) (t : τ) (removed : Nat) (s : σ) :
    sweepBy f t removed s = (hasNext s).andThen fun more x =>
      if more then
        (next x).andThen fun
          | .error e, y => .still (.error e, t) y
          | .ok v, y =>
            if (f t v).1 then
              (remove y).andThen fun
                | .error e, z => .still (.error e, (f t v).2) z
                | .ok (), z => sweepBy f (f t v).2 (removed + 1) z
            else sweepBy f (f t v).2 removed y
      else .still (.ok removed, t) x := by
  fun_cases sweepBy f t removed s with
  | case1 has more given e got =>
    simp [Step.andThen, Step.preceded, Step.still, has, more, given, got]
  | case2 has more given v got picked gone events e refused =>
    simp [Step.andThen, Step.preceded, Step.still, has, more, given, got, picked, gone,
      events, refused]
  | case3 has more given v got picked gone events done =>
    simp [Step.andThen, Step.preceded, has, more, given, got, picked, gone, events, done]
  | case4 has more given v got spared =>
    simp [Step.andThen, Step.preceded, has, more, given, got, spared]
  | case5 has more => simp [Step.andThen, Step.preceded, Step.still, has, more]

/-- The rest of a walk is filtered alike, if the state is the one that the elements `asked` before
have led to. -/
lemma sweepBy_eq_map_sweep (f : τ → α → Bool × τ) (t : τ) (asked : List α) (removed : Nat)
    (s : σ) : sweepBy f (stateAfter f t asked.reverse) removed s =
      (sweep (ofState f t) asked removed s).map fun out =>
        (out.removed, stateAfter f t out.asked) := by
  -- on what the cursor can still give out
  induction hn : budget s using Nat.strongRecOn generalizing asked removed s with
  | ind n ih =>
    subst hn
    rw [sweepBy_eq, sweep_eq]
    refine Step.andThen_eq_map ?_
    cases more : (hasNext s).answer with
    | false => rfl
    | true =>
      rw [if_pos rfl, if_pos rfl]
      refine Step.andThen_eq_map ?_
      cases got : (next (hasNext s).after).answer with
      | error e => rfl
      | ok v =>
        have paid := budget_next_lt more got
        have hverdict : ofState f t asked v = (f (stateAfter f t asked.reverse) v).1 := rfl
        simp only [hverdict, ← Chooser.stateAfter_reverse_cons]
        by_cases picked : (f (stateAfter f t asked.reverse) v).1 = true
        · have kept := budget_remove_le (next (hasNext s).after).after
          rw [if_pos picked, if_pos picked]
          refine Step.andThen_eq_map ?_
          cases (remove (next (hasNext s).after).after).answer with
          | error e => rfl
          | ok => exact ih _ (Nat.lt_of_le_of_lt kept paid) _ _ _ rfl
        · rw [if_neg picked, if_neg picked]
          exact ih _ paid _ _ _ rfl

/-- To pass the state along is to make it up from the elements before: the predicate is asked
once about each element given out, in order. -/
lemma removeIfBy_eq_map_removeIf (f : τ → α → Bool × τ) (t : τ) (s : σ) : removeIfBy f t s =
    (removeIf (ofState f t) s).map fun out => (out.removed, stateAfter f t out.asked) :=
  sweepBy_eq_map_sweep f t [] 0 s

/-- The predicate that writes its questions down filters like the chooser, and what it has written
down in the end are the elements that the chooser was asked about, the latest first. -/
lemma removeIfBy_writing (choose : Chooser α) (s : σ) : removeIfBy choose.writing [] s =
    (removeIf choose s).map fun out => (out.removed, out.asked.reverse) := by
  rw [removeIfBy_eq_map_removeIf, Chooser.ofState_writing]
  simp only [Chooser.stateAfter_writing, List.append_nil]

end Cursor

end IntWalk
