import IntWalk.Proofs.Cursor.History
import IntWalk.Proofs.Cursor.Path

/-!
# The calls behind a walk

Whatever is asked of a cursor comes down to the three calls that make it.  A `Watched` cursor
writes each of them down, with its reply, what it reported and where the cursor stood, and is
otherwise the cursor that it was (`performAll_watched`).  What it wrote down is the `trace` of a
walk.

To show something of every call in a trace, it is enough to show it of one of the three calls
after any trace that came about in the same way (`Path.chronicle`).
-/

namespace IntWalk

/-- One of the three calls as it was made. -/
structure Told (σ ε α : Type) where
  /-- The reply to the call. -/
  reply : Reply α
  /-- What the call reported. -/
  reported : List ε
  /-- The cursor before the call. -/
  before : σ

/-- A cursor of which each call is written down. -/
structure Watched (σ : Type) where
  /-- The cursor itself. -/
  inner : σ

namespace Cursor

variable {σ ε α ρ : Type}

/-- The one cursor is the other with its calls written down. -/
def Watches (w : Watched σ) (s : σ) : Prop := w.inner = s

/-- What was written down says what was reported. -/
def Records (ts : List (Told σ ε α)) (es : List ε) : Prop := es = ts.flatMap Told.reported

/-- The one call is the other with the calls behind it written down. -/
def Retells (x : Step (Told σ ε α) (Watched σ) ρ) (y : Step ε σ ρ) : Prop :=
  Step.Matches Watches Records x y

/-- Writes a call down. -/
def note (kind : ρ → Reply α) (s : σ) (x : Step ε σ ρ) : Step (Told σ ε α) (Watched σ) ρ :=
  ⟨x.answer, ⟨x.after⟩, [⟨kind x.answer, x.events, s⟩]⟩

variable [Cursor σ ε α]

instance : Cursor (Watched σ) (Told σ ε α) α where
  hasNext w := note .flag w.inner (hasNext w.inner)
  next w := note .given w.inner (next w.inner)
  remove w := note .gone w.inner (remove w.inner)
  budget w := budget w.inner
  budget_next_lt more got := budget_next_lt more got
  budget_remove_le w := budget_remove_le w.inner

/-- What a watched cursor writes down is what the cursor reports, call by call. -/
lemma echoes_watched : Echoes (Watches (σ := σ)) (Records (σ := σ) (ε := ε) (α := α)) where
  joins := by
    refine ⟨rfl, fun hes hfs => ?_⟩
    rw [Records] at hes hfs ⊢
    rw [List.flatMap_append, hes, hfs]
  hasNext w s h := by
    subst h
    exact ⟨⟨rfl, rfl⟩, (List.append_nil _).symm⟩
  next w s h := by
    subst h
    exact ⟨⟨rfl, rfl⟩, (List.append_nil _).symm⟩
  remove w s h := by
    subst h
    exact ⟨⟨rfl, rfl⟩, (List.append_nil _).symm⟩

variable [Max α]

/-- The calls that a walk is made of, in order. -/
def trace (calls : List (Call α)) (s : σ) : List (Told σ ε α) :=
  (performAll calls (Watched.mk s)).events

/-- A walk that is watched is the walk that it is without. -/
lemma performAll_watched (calls : List (Call α)) (s : σ) :
    (performAll calls (Watched.mk s)).answer = (performAll calls s).answer ∧
    (performAll calls (Watched.mk s)).after.inner = (performAll calls s).after ∧
    (performAll calls s).events = (trace calls s).flatMap Told.reported := by
  obtain ⟨⟨hanswer, hafter⟩, hevents⟩ :=
    echoes_watched.performAll calls (rfl : (Watched.mk s).inner = s)
  exact ⟨hanswer, hafter, hevents⟩

/-- One of the three calls as it is made now. -/
def told (p : Primitive) (s : σ) : Told σ ε α :=
  ⟨(perform p.call s).answer, (perform p.call s).events, s⟩

section Chronicle

variable {Inv : List (Told σ ε α) → σ → Prop} {Right : List (Told σ ε α) → Told σ ε α → Prop}
variable {ts t : List (Told σ ε α)}

omit [Cursor σ ε α] [Max α] in
lemma right_of_cons {e₀ : Told σ ε α} (first : Right ts e₀)
    (rest : ∀ early e late, t = early ++ e :: late → Right (ts ++ [e₀] ++ early) e)
    (early : List (Told σ ε α)) (e : Told σ ε α) (late : List (Told σ ε α))
    (h : e₀ :: t = early ++ e :: late) : Right (ts ++ early) e := by
  cases early with
  | nil =>
    obtain ⟨rfl, -⟩ := List.cons.inj h
    rwa [List.append_nil]
  | cons e₁ early =>
    obtain ⟨rfl, ht⟩ := List.cons.inj h
    rw [List.append_cons]
    exact rest early e late ht

/-- If each of the three calls is right after any trace that keeps `Inv`, and keeps it in turn,
then all calls of a trace are right. -/
lemma Path.chronicle (step : ∀ p ts (s : σ), Inv ts s →
      Right ts (told p s) ∧ Inv (ts ++ [told p s]) (perform p.call s).after)
    {w u : Watched σ} (path : Path w t u) (h : Inv ts w.inner) :
    Inv (ts ++ t) u.inner ∧ ∀ early e late, t = early ++ e :: late → Right (ts ++ early) e := by
  induction path generalizing ts with
  | nil => exact ⟨by rwa [List.append_nil], by simp⟩
  | @hasNext w u t _ ih =>
    obtain ⟨first, hafter⟩ := step .hasNext ts w.inner h
    obtain ⟨hinv, rest⟩ := ih hafter
    exact ⟨by rwa [List.append_assoc] at hinv, right_of_cons first rest⟩
  | @next w u t _ ih =>
    obtain ⟨first, hafter⟩ := step .next ts w.inner h
    obtain ⟨hinv, rest⟩ := ih hafter
    exact ⟨by rwa [List.append_assoc] at hinv, right_of_cons first rest⟩
  | @remove w u t _ ih =>
    obtain ⟨first, hafter⟩ := step .remove ts w.inner h
    obtain ⟨hinv, rest⟩ := ih hafter
    exact ⟨by rwa [List.append_assoc] at hinv, right_of_cons first rest⟩

/-- All calls of a walk are right. -/
lemma chronicle (Inv : List (Told σ ε α) → σ → Prop)
    (Right : List (Told σ ε α) → Told σ ε α → Prop)
    (step : ∀ p ts (s : σ), Inv ts s →
      Right ts (told p s) ∧ Inv (ts ++ [told p s]) (perform p.call s).after)
    {s : σ} (h : Inv [] s) (calls : List (Call α)) :
    Inv (trace calls s) (performAll calls s).after ∧
      ∀ early e late, trace calls s = early ++ e :: late → Right early e := by
  have path := performAll_path calls (Watched.mk s)
  obtain ⟨hinv, hright⟩ := Path.chronicle step path h
  rw [(performAll_watched calls s).2.1] at hinv
  exact ⟨hinv, hright⟩

end Chronicle

end Cursor

end IntWalk
