import IntWalk.Step
import Mathlib.Tactic.Lemma

/-!
# Scripts

A script is a list of requests, and `Step.runAll` puts them one after another.
Two machines that answer every request alike and stay related answer every script
alike, and requests that change nothing can be left out of a script (`Trims`).
-/

namespace IntWalk.Step

variable {ε ε' ρ σ τ φ χ : Type}

/-- Puts the requests one after another and gives the answers in order. -/
def runAll (act : ρ → σ → Step ε σ φ) : List ρ → σ → Step ε σ (List φ)
  | [], s => .still [] s
  | r :: rs, s => (act r s).andThen fun a t => (runAll act rs t).map (a :: ·)

variable {act : ρ → σ → Step ε σ φ} {act' : ρ → τ → Step ε' τ φ}

/-- What every request keeps, every script keeps. -/
lemma after_runAll {P : σ → Prop} (h : ∀ r s, P s → P (act r s).after) (rs : List ρ) {s : σ}
    (hs : P s) : P (runAll act rs s).after := by
  induction rs generalizing s with
  | nil => exact hs
  | cons r rs ih => exact ih (h r s hs)

/-! ## Two machines -/

/-- Two steps with the same answer that leave related states. -/
def Alike (R : σ → τ → Prop) (x : Step ε σ φ) (y : Step ε' τ φ) : Prop :=
  x.answer = y.answer ∧ R x.after y.after

variable {R : σ → τ → Prop} {s : σ} {t : τ}

lemma Alike.still (a : φ) (h : R s t) :
    Alike R (still a s : Step ε σ φ) (still a t : Step ε' τ φ) := ⟨rfl, h⟩

lemma Alike.map {x : Step ε σ φ} {y : Step ε' τ φ} (h : Alike R x y) (f : φ → χ) :
    Alike R (x.map f) (y.map f) := ⟨congrArg f h.1, h.2⟩

/-- The second calls need to be alike only for what the first ones come to. -/
lemma Alike.andThen {x : Step ε σ φ} {y : Step ε' τ φ} {k : φ → σ → Step ε σ χ}
    {k' : φ → τ → Step ε' τ χ} (h : Alike R x y)
    (hk : ∀ t, R x.after t → Alike R (k x.answer x.after) (k' x.answer t)) :
    Alike R (x.andThen k) (y.andThen k') := by
  obtain ⟨hanswer, hafter⟩ := hk y.after h.2
  refine ⟨?_, ?_⟩
  · rw [andThen_answer, andThen_answer, ← h.1]
    exact hanswer
  · rw [andThen_after, andThen_after, ← h.1]
    exact hafter

/-- Reports that belong together, and still do when more of them follow. -/
structure Joinable (E : List ε → List ε' → Prop) : Prop where
  nil : E [] []
  append : ∀ {es es' fs fs'}, E es es' → E fs fs' → E (es ++ fs) (es' ++ fs')

/-- Alike steps whose reports belong together. -/
def Matches (R : σ → τ → Prop) (E : List ε → List ε' → Prop) (x : Step ε σ φ)
    (y : Step ε' τ φ) : Prop := Alike R x y ∧ E x.events y.events

section Matches

variable {E : List ε → List ε' → Prop}

lemma Matches.still (joins : Joinable E) (a : φ) (h : R s t) :
    Matches R E (still a s : Step ε σ φ) (still a t : Step ε' τ φ) := ⟨Alike.still a h, joins.nil⟩

lemma Matches.map {x : Step ε σ φ} {y : Step ε' τ φ} (h : Matches R E x y) (f : φ → χ) :
    Matches R E (x.map f) (y.map f) := ⟨h.1.map f, h.2⟩

lemma Matches.andThen (joins : Joinable E) {x : Step ε σ φ} {y : Step ε' τ φ}
    {k : φ → σ → Step ε σ χ} {k' : φ → τ → Step ε' τ χ} (h : Matches R E x y)
    (hk : ∀ t, R x.after t → Matches R E (k x.answer x.after) (k' x.answer t)) :
    Matches R E (x.andThen k) (y.andThen k') := by
  refine ⟨h.1.andThen fun t ht => (hk t ht).1, ?_⟩
  rw [andThen_events, andThen_events, ← h.1.1]
  exact joins.append h.2 (hk y.after h.1.2).2

end Matches

/-- If related states answer every request alike and remain related, they answer
every script alike and remain related. -/
lemma runAll_alike (alike : ∀ r s t, R s t → Alike R (act r s) (act' r t)) (rs : List ρ)
    (h : R s t) : Alike R (runAll act rs s) (runAll act' rs t) := by
  induction rs generalizing s t with
  | nil => exact Alike.still [] h
  | cons r rs ih => exact (alike r s t h).andThen fun t h => (ih h).map (_ :: ·)

/-! ## Leaving requests out -/

/-- The script with each request cut down to what `trim` leaves of it in the state in which it
is put. -/
def trimAll (trim : ρ → σ → Option ρ) (act : ρ → σ → Step ε σ φ) : List ρ → σ → List ρ
  | [], _ => []
  | r :: rs, s => (trim r s).toList ++ trimAll trim act rs (act r s).after

/-- Cut down, a script comes to what it comes to in full but for what is cut from the answers. -/
def Spares (act : ρ → σ → Step ε σ φ) (trim : ρ → σ → Option ρ) (keep : φ → Option φ) : Prop :=
  ∀ rs s, (runAll act (trimAll trim act rs s) s).answer = (runAll act rs s).answer.filterMap keep ∧
    (runAll act (trimAll trim act rs s) s).after = (runAll act rs s).after

/-- What is left of a request comes to what the request comes to, and one that is left out
changes nothing. -/
inductive Trims (act : ρ → σ → Step ε σ φ) (keep : φ → Option φ) (r : ρ) (s : σ) :
    Option ρ → Prop
  | out : keep (act r s).answer = none → (act r s).after = s → Trims act keep r s none
  | kept (r' : ρ) : keep (act r s).answer = some (act r' s).answer →
      (act r s).after = (act r' s).after → Trims act keep r s (some r')

lemma spares_of_trims {trim : ρ → σ → Option ρ} {keep : φ → Option φ}
    (h : ∀ r s, Trims act keep r s (trim r s)) : Spares act trim keep := by
  intro rs s
  induction rs generalizing s with
  | nil => exact ⟨rfl, rfl⟩
  | cons r rs ih =>
    obtain ⟨hanswer, hafter⟩ := ih (act r s).after
    have hr := h r s
    rw [trimAll, runAll, andThen_answer, andThen_after, map_answer, map_after]
    cases htrim : trim r s with
    | none =>
      rw [htrim] at hr
      cases hr with | out hkept hleft
      rw [List.filterMap_cons_none hkept, Option.toList_none, List.nil_append, hleft]
      rw [hleft] at hanswer hafter
      exact ⟨hanswer, hafter⟩
    | some r' =>
      rw [htrim] at hr
      cases hr with | kept _ hkept hleft
      rw [List.filterMap_cons_some hkept, Option.toList_some, List.singleton_append, runAll,
        andThen_answer, andThen_after, map_answer, map_after, ← hleft]
      exact ⟨congrArg _ hanswer, hafter⟩

end IntWalk.Step
