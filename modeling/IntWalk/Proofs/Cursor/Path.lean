import IntWalk.Cursor.Call
import Mathlib.Tactic.Lemma

/-!
# What a call is made of

Whatever is asked of a cursor comes down to the three calls that make it.  A
`Path` is a sequence of these three, with the events that they report, and
`perform_path` finds the path of every call: so what the three keep, every walk
keeps (`Keeps.performAll`).  All loops but filtering only read (`Reading`).
-/

namespace IntWalk.Cursor

variable {σ ε α ρ φ : Type} [Cursor σ ε α]

/-- One of the three calls after the other leads from the first state to the
second and reports the events. -/
inductive Path : σ → List ε → σ → Prop
  | nil (s : σ) : Path s [] s
  | hasNext {s t : σ} {es : List ε} :
      Path (hasNext s).after es t → Path s ((hasNext s).events ++ es) t
  | next {s t : σ} {es : List ε} : Path (next s).after es t → Path s ((next s).events ++ es) t
  | remove {s t : σ} {es : List ε} :
      Path (remove s).after es t → Path s ((remove s).events ++ es) t

namespace Path

lemma trans {s t u : σ} {es fs : List ε} (h : Path s es t) (h' : Path t fs u) :
    Path s (es ++ fs) u := by
  induction h with
  | nil => exact h'
  | hasNext _ ih => simpa only [List.append_assoc] using Path.hasNext (ih h')
  | next _ ih => simpa only [List.append_assoc] using Path.next (ih h')
  | remove _ ih => simpa only [List.append_assoc] using Path.remove (ih h')

lemma andThen {s : σ} {x : Step ε σ ρ} {k : ρ → σ → Step ε σ φ} (h : Path s x.events x.after)
    (h' : Path x.after (k x.answer x.after).events (k x.answer x.after).after) :
    Path s (x.andThen k).events (x.andThen k).after := h.trans h'

end Path

lemma hasNext_path (s : σ) : Path s (hasNext s).events (hasNext s).after := by
  simpa only [List.append_nil] using Path.hasNext (Path.nil (hasNext s).after)

lemma next_path (s : σ) : Path s (next s).events (next s).after := by
  simpa only [List.append_nil] using Path.next (Path.nil (next s).after)

lemma remove_path (s : σ) : Path s (remove s).events (remove s).after := by
  simpa only [List.append_nil] using Path.remove (Path.nil (remove s).after)

/-- None of the three calls breaks the property. -/
structure Keeps (I : σ → Prop) : Prop where
  hasNext : ∀ s, I s → I (hasNext s).after
  next : ∀ s, I s → I (next s).after
  remove : ∀ s, I s → I (remove s).after

lemma Keeps.along {I : σ → Prop} (h : Keeps I) {s t : σ} {es : List ε} (path : Path s es t)
    (hs : I s) : I t := by
  induction path with
  | nil => exact hs
  | hasNext _ ih => exact ih (h.hasNext _ hs)
  | next _ ih => exact ih (h.next _ hs)
  | remove _ ih => exact ih (h.remove _ hs)

/-! ## The loops -/

/-- A path on which elements are only given out, each of them announced right before. -/
inductive Reading : σ → List ε → σ → Prop
  | nil (s : σ) : Reading s [] s
  | ask {s t : σ} {es : List ε} :
      Reading (hasNext s).after es t → Reading s ((hasNext s).events ++ es) t
  | give {s t : σ} {es : List ε} : (hasNext s).answer = true →
      Reading (next (hasNext s).after).after es t →
      Reading s ((hasNext s).events ++ ((next (hasNext s).after).events ++ es)) t

namespace Reading

lemma path {s t : σ} {es : List ε} (h : Reading s es t) : Path s es t := by
  induction h with
  | nil s => exact .nil s
  | ask _ ih => exact .hasNext ih
  | give _ _ ih => exact .hasNext (.next ih)

lemma trans {s t u : σ} {es fs : List ε} (h : Reading s es t) (h' : Reading t fs u) :
    Reading s (es ++ fs) u := by
  induction h with
  | nil => exact h'
  | ask _ ih => simpa only [List.append_assoc] using Reading.ask (ih h')
  | give more _ ih => simpa only [List.append_assoc] using Reading.give more (ih h')

lemma andThen {s : σ} {x : Step ε σ ρ} {k : ρ → σ → Step ε σ φ} (h : Reading s x.events x.after)
    (h' : Reading x.after (k x.answer x.after).events (k x.answer x.after).after) :
    Reading s (x.andThen k).events (x.andThen k).after := h.trans h'

end Reading

lemma hasNext_reading (s : σ) : Reading s (hasNext s).events (hasNext s).after := by
  simpa only [List.append_nil] using Reading.ask (Reading.nil (hasNext s).after)

lemma next_reading {s : σ} (more : (hasNext s).answer = true) :
    Reading s ((hasNext s).events ++ (next (hasNext s).after).events)
      (next (hasNext s).after).after := by
  simpa only [List.append_nil] using Reading.give more (Reading.nil (next (hasNext s).after).after)

lemma skip_reading (n : Nat) (s : σ) : Reading s (skip n s).events (skip n s).after := by
  induction n generalizing s with
  | zero => exact Reading.nil s
  | succ n ih =>
    rw [skip, Step.andThen_events, Step.andThen_after]
    split
    · next more =>
      rw [Step.andThen_events, Step.andThen_after, ← List.append_assoc]
      refine (next_reading more).trans ?_
      cases (next (hasNext s).after).answer with
      | ok v => exact ih _
      | error e => exact Reading.nil _
    · exact (hasNext_reading s).trans (Reading.nil _)

lemma value?_reading (s : σ) : Reading s (value? s).events (value? s).after := by
  rw [value?, Step.andThen_events, Step.andThen_after]
  split
  · next more => exact next_reading more
  · exact (hasNext_reading s).trans (Reading.nil _)

lemma drain_reading (s : σ) : Reading s (drain s).events (drain s).after := by
  fun_induction drain s with
  | case1 s first ended => exact value?_reading s
  | case2 s first v found ih => exact (value?_reading s).trans ih

lemma take_reading (n : Nat) (s : σ) : Reading s (take n s).events (take n s).after := by
  induction n generalizing s with
  | zero => exact Reading.nil s
  | succ n ih =>
    rw [take]
    refine (value?_reading s).andThen ?_
    cases (value? s).answer with
    | none => exact Reading.nil _
    | some v => exact ih _

lemma nth_reading (n : Nat) (s : σ) : Reading s (nth n s).events (nth n s).after := by
  induction n generalizing s with
  | zero => exact value?_reading s
  | succ n ih =>
    rw [nth]
    refine (value?_reading s).andThen ?_
    cases (value? s).answer with
    | none => exact Reading.nil _
    | some v => exact ih _

/-- Filtering removes as well, so its path is no mere reading. -/
lemma sweep_path (choose : Chooser α) (asked : List α) (removed : Nat) (s : σ) :
    Path s (sweep choose asked removed s).events (sweep choose asked removed s).after := by
  fun_induction sweep choose asked removed s with
  | case1 asked removed s has more given e got => exact (hasNext_path s).trans (next_path _)
  | case2 asked removed s has more given v got chosen gone events e refused =>
    exact (hasNext_path s).trans ((next_path _).trans (remove_path _))
  | case3 asked removed s has more given v got chosen gone events done ih =>
    exact ((hasNext_path s).trans ((next_path _).trans (remove_path _))).trans ih
  | case4 asked removed s has more given v got chosen ih =>
    exact ((hasNext_path s).trans (next_path _)).trans ih
  | case5 asked removed s has more => exact hasNext_path s

/-! ## Whole walks -/

variable [Max α]

/-- Every call is made of the three. -/
lemma perform_path (c : Call α) (s : σ) : Path s (perform c s).events (perform c s).after := by
  cases c with
  | hasNext => exact hasNext_path s
  | next => exact next_path s
  | remove => exact remove_path s
  | skip n => exact (skip_reading n s).path
  | removeIf choose => exact sweep_path choose [] 0 s
  | value => exact (value?_reading s).path
  | take n => exact (take_reading n s).path
  | nth n => exact (nth_reading n s).path
  | drain | count | greatest => exact (drain_reading s).path

lemma performAll_path (cs : List (Call α)) (s : σ) :
    Path s (performAll cs s).events (performAll cs s).after := by
  induction cs generalizing s with
  | nil => exact Path.nil s
  | cons c cs ih => exact (perform_path c s).andThen (ih _)

lemma Keeps.performAll {I : σ → Prop} (h : Keeps I) (cs : List (Call α)) {s : σ} (hs : I s) :
    I (performAll cs s).after := h.along (performAll_path cs s) hs

end IntWalk.Cursor
