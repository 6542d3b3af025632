import IntWalk.Cursor.Call
import IntWalk.Proofs.Script
import Mathlib.Tactic.Lemma

/-!
# Cursors that mirror each other

A relation between the states of two cursors is a mirror if the three calls that
make a cursor are answered alike from related states and leave related states.
Then every call is answered alike, the loops included, and so is every walk.  What
the two report may belong together as well (`Echoes`), call by call and so over a
whole walk.
-/

namespace IntWalk.Cursor

open Step (Alike Joinable Matches)

variable {σ τ ε ε' α : Type} [Cursor σ ε α] [Cursor τ ε' α]

/-- From related states the three calls are answered alike, and leave related states. -/
structure Mirrors (R : σ → τ → Prop) : Prop where
  hasNext : ∀ s t, R s t → Alike R (hasNext s) (hasNext t)
  next : ∀ s t, R s t → Alike R (next s) (next t)
  remove : ∀ s t, R s t → Alike R (remove s) (remove t)

/-- A mirror in which the two cursors also report what belongs together. -/
structure Echoes (R : σ → τ → Prop) (E : List ε → List ε' → Prop) : Prop where
  joins : Joinable E
  hasNext : ∀ s t, R s t → Matches R E (hasNext s) (hasNext t)
  next : ∀ s t, R s t → Matches R E (next s) (next t)
  remove : ∀ s t, R s t → Matches R E (remove s) (remove t)

lemma Mirrors.echoes {R : σ → τ → Prop} (m : Mirrors R) : Echoes R fun _ _ => True where
  joins := ⟨trivial, fun _ _ => trivial⟩
  hasNext s t h := ⟨m.hasNext s t h, trivial⟩
  next s t h := ⟨m.next s t h, trivial⟩
  remove s t h := ⟨m.remove s t h, trivial⟩

/-! ## One round of a loop -/

/-- Filtering asks for an element, gives it to the chooser and goes on. -/
lemma sweep_eq (choose : Chooser α) (asked : List α) (removed : Nat) (s : σ) :
    sweep choose asked removed s = (hasNext s).andThen fun more t =>
      if more then
        (next t).andThen fun
          | .error e, u => .still ⟨.error e, asked.reverse⟩ u
          | .ok v, u =>
            if choose asked v then
              (remove u).andThen fun
                | .error e, w => .still ⟨.error e, (v :: asked).reverse⟩ w
                | .ok (), w => sweep choose (v :: asked) (removed + 1) w
            else sweep choose (v :: asked) removed u
      else .still ⟨.ok removed, asked.reverse⟩ t := by
  fun_cases sweep choose asked removed s with
  | case1 has more given e got =>
    simp [Step.andThen, Step.preceded, Step.still, has, more, given, got]
  | case2 has more given v got chosen gone events e refused =>
    simp [Step.andThen, Step.preceded, Step.still, has, more, given, got, chosen, gone, events,
      refused]
  | case3 has more given v got chosen gone events done =>
    simp [Step.andThen, Step.preceded, has, more, given, got, chosen, gone, events, done]
  | case4 has more given v got kept =>
    simp [Step.andThen, Step.preceded, has, more, given, got, kept]
  | case5 has more => simp [Step.andThen, Step.preceded, Step.still, has, more]

/-- Draining asks for a value and goes on. -/
lemma drain_eq (s : σ) : drain s = (value? s).andThen fun
    | none, t => .still [] t
    | some v, t => (drain t).map (v :: ·) := by
  fun_cases drain s with
  | case1 first ended => simp [Step.andThen, Step.preceded, Step.still, first, ended]
  | case2 first v found => simp [Step.andThen, first, found]

namespace Echoes

variable {R : σ → τ → Prop} {E : List ε → List ε' → Prop} (m : Echoes R E) {s : σ} {t : τ}
include m

/-! ## The loops -/

lemma skip (n : Nat) (h : R s t) : Matches R E (skip n s) (skip n t) := by
  induction n generalizing s t with
  | zero => exact Matches.still m.joins 0 h
  | succ n ih =>
    rw [Cursor.skip, Cursor.skip]
    refine (m.hasNext s t h).andThen m.joins fun t h => ?_
    split
    · refine (m.next _ t h).andThen m.joins fun t h => ?_
      cases (Cursor.next (Cursor.hasNext s).after).answer with
      | ok v => exact (ih h).map (· + 1)
      | error e => exact Matches.still m.joins 0 h
    · exact Matches.still m.joins 0 h

lemma sweep (choose : Chooser α) (asked : List α) (removed : Nat) (h : R s t) :
    Matches R E (sweep choose asked removed s) (sweep choose asked removed t) := by
  -- on what the first cursor can still give out
  induction hn : budget s using Nat.strongRecOn generalizing asked removed s t with
  | ind n ih =>
    subst hn
    rw [sweep_eq, sweep_eq]
    refine (m.hasNext s t h).andThen m.joins fun t h => ?_
    cases more : (Cursor.hasNext s).answer with
    | false => exact Matches.still m.joins _ h
    | true =>
      rw [if_pos rfl, if_pos rfl]
      refine (m.next _ t h).andThen m.joins fun t h => ?_
      cases got : (Cursor.next (Cursor.hasNext s).after).answer with
      | error e => exact Matches.still m.joins _ h
      | ok v =>
        have paid := budget_next_lt more got
        simp only
        split
        · have kept := budget_remove_le (Cursor.next (Cursor.hasNext s).after).after
          refine (m.remove _ t h).andThen m.joins fun t h => ?_
          cases (Cursor.remove (Cursor.next (Cursor.hasNext s).after).after).answer with
          | error e => exact Matches.still m.joins _ h
          | ok => exact ih _ (Nat.lt_of_le_of_lt kept paid) _ _ h rfl
        · exact ih _ paid _ _ h rfl

lemma value? (h : R s t) : Matches R E (value? s) (value? t) := by
  rw [Cursor.value?, Cursor.value?]
  refine (m.hasNext s t h).andThen m.joins fun t h => ?_
  split
  · exact (m.next _ t h).map Except.toOption
  · exact Matches.still m.joins none h

lemma drain (h : R s t) : Matches R E (drain s) (drain t) := by
  induction hn : budget s using Nat.strongRecOn generalizing s t with
  | ind n ih =>
    subst hn
    rw [drain_eq, drain_eq]
    refine (m.value? h).andThen m.joins fun t h => ?_
    cases found : (Cursor.value? s).answer with
    | none => exact Matches.still m.joins [] h
    | some v => exact (ih _ (budget_value?_lt found) h rfl).map (v :: ·)

lemma take (n : Nat) (h : R s t) : Matches R E (take n s) (take n t) := by
  induction n generalizing s t with
  | zero => exact Matches.still m.joins [] h
  | succ n ih =>
    rw [Cursor.take, Cursor.take]
    refine (m.value? h).andThen m.joins fun t h => ?_
    cases (Cursor.value? s).answer with
    | none => exact Matches.still m.joins [] h
    | some v => exact (ih h).map (v :: ·)

lemma nth (n : Nat) (h : R s t) : Matches R E (nth n s) (nth n t) := by
  induction n generalizing s t with
  | zero => exact m.value? h
  | succ n ih =>
    rw [Cursor.nth, Cursor.nth]
    refine (m.value? h).andThen m.joins fun t h => ?_
    cases (Cursor.value? s).answer with
    | none => exact Matches.still m.joins none h
    | some v => exact ih h

/-! ## Whole walks -/

variable [Max α]

lemma perform (c : Call α) (h : R s t) : Matches R E (perform c s) (perform c t) := by
  cases c with
  | hasNext => exact (m.hasNext s t h).map Reply.flag
  | next => exact (m.next s t h).map Reply.given
  | remove => exact (m.remove s t h).map Reply.gone
  | skip n => exact (m.skip n h).map Reply.total
  | removeIf choose => exact (m.sweep choose [] 0 h).map Reply.swept
  | value => exact (m.value? h).map Reply.found
  | take n => exact (m.take n h).map Reply.values
  | nth n => exact (m.nth n h).map Reply.found
  | drain => exact (m.drain h).map Reply.values
  | count => exact ((m.drain h).map List.length).map Reply.total
  | greatest => exact ((m.drain h).map List.max?).map Reply.found

/-- Cursors that echo each other answer every walk alike, and report what belongs together. -/
lemma performAll (cs : List (Call α)) (h : R s t) :
    Matches R E (performAll cs s) (performAll cs t) := by
  induction cs generalizing s t with
  | nil => exact Matches.still m.joins [] h
  | cons c cs ih => exact (m.perform c h).andThen m.joins fun t h => (ih h).map (_ :: ·)

end Echoes

/-- Cursors that mirror each other answer every walk alike. -/
lemma Mirrors.performAll [Max α] {R : σ → τ → Prop} (m : Mirrors R) {s : σ} {t : τ}
    (cs : List (Call α)) (h : R s t) : Alike R (performAll cs s) (performAll cs t) :=
  (m.echoes.performAll cs h).1

end IntWalk.Cursor
