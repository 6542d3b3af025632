/-!
# Steps

A call on a collection or on a cursor gives an answer, leaves a state and may
report events.  `Step` holds the three together.  Also a call that fails leaves
a state, so what a failure does to the state can be stated about it.
-/

namespace IntWalk

/-- What one call amounts to. -/
structure Step (ε σ ρ : Type) where
  /-- What the caller is told. -/
  answer : ρ
  /-- The state the call leaves. -/
  after : σ
  /-- What the call reports, in order. -/
  events : List ε
deriving DecidableEq, Repr

namespace Step

variable {ε σ ρ φ : Type}

/-- A call that leaves the state alone and reports nothing. -/
def still (answer : ρ) (s : σ) : Step ε σ ρ := ⟨answer, s, []⟩

/-- The same step, reported after earlier events. -/
def preceded (early : List ε) (x : Step ε σ ρ) : Step ε σ ρ :=
  { x with events := early ++ x.events }

/-- The same step with another answer. -/
def map (f : ρ → φ) (x : Step ε σ ρ) : Step ε σ φ :=
  ⟨f x.answer, x.after, x.events⟩

/-- A second call on the state that the first one left. -/
def andThen (x : Step ε σ ρ) (k : ρ → σ → Step ε σ φ) : Step ε σ φ :=
  (k x.answer x.after).preceded x.events

@[simp] theorem still_answer (a : ρ) (s : σ) : (still a s : Step ε σ ρ).answer = a := rfl

@[simp] theorem still_after (a : ρ) (s : σ) : (still a s : Step ε σ ρ).after = s := rfl

@[simp] theorem still_events (a : ρ) (s : σ) : (still a s : Step ε σ ρ).events = [] := rfl

@[simp] theorem preceded_answer (early : List ε) (x : Step ε σ ρ) :
    (x.preceded early).answer = x.answer := rfl

@[simp] theorem preceded_after (early : List ε) (x : Step ε σ ρ) :
    (x.preceded early).after = x.after := rfl

@[simp] theorem preceded_events (early : List ε) (x : Step ε σ ρ) :
    (x.preceded early).events = early ++ x.events := rfl

@[simp] theorem map_answer (f : ρ → φ) (x : Step ε σ ρ) : (x.map f).answer = f x.answer := rfl

@[simp] theorem map_after (f : ρ → φ) (x : Step ε σ ρ) : (x.map f).after = x.after := rfl

@[simp] theorem map_events (f : ρ → φ) (x : Step ε σ ρ) : (x.map f).events = x.events := rfl

@[simp] theorem andThen_answer (x : Step ε σ ρ) (k : ρ → σ → Step ε σ φ) :
    (x.andThen k).answer = (k x.answer x.after).answer := rfl

@[simp] theorem andThen_after (x : Step ε σ ρ) (k : ρ → σ → Step ε σ φ) :
    (x.andThen k).after = (k x.answer x.after).after := rfl

@[simp] theorem andThen_events (x : Step ε σ ρ) (k : ρ → σ → Step ε σ φ) :
    (x.andThen k).events = x.events ++ (k x.answer x.after).events := rfl

end Step

end IntWalk
