import IntWalk.Proofs.Cursor.Counts
import IntWalk.Proofs.Cursor.Mirror

/-!
# Machines that can come to a stop

A number of 64 bits has a greatest value and an array has an end, so a sum, a difference or
an access may have no value.  Here each of these is checked, and where one has no value the
machine stops.  A cursor whose three calls are checked in this way makes such a machine
(`Machine`): the loops over it run as over any other cursor, and once it has stopped nothing
starts it again.

A machine that follows a cursor (`Follows`) never stops, and every walk and every script is
answered as without the checks.
-/

namespace IntWalk

namespace Checked

variable {α : Type} {a b i : Nat} {x : α} {xs : Array α}

/-! ## Numbers and arrays -/

/-- The sum, if it is a number of 64 bits. -/
def add (a b : Nat) : Option Nat := if a + b < UInt64.size then some (a + b) else none

/-- The difference, if it is not negative. -/
def sub (a b : Nat) : Option Nat := if b ≤ a then some (a - b) else none

/-- One more element was given out, if it can still be counted. -/
def advance (p : Progress) : Option Progress := do
  let yielded ← add p.yielded 1
  return ⟨.returned, yielded⟩

/-- The array with another element at the place, if the place is in it. -/
def set (xs : Array α) (i : Nat) (x : α) : Option (Array α) :=
  if h : i < xs.size then some (xs.set i x) else none

/-- The array without the element at the place, if the place is in it. -/
def erase (xs : Array α) (i : Nat) : Option (Array α) :=
  if h : i < xs.size then some (xs.eraseIdx i) else none

/-- The array with one more element before the place, which may be its end. -/
def insert (xs : Array α) (i : Nat) (x : α) : Option (Array α) :=
  if h : i ≤ xs.size then some (xs.insertIdx i x) else none

lemma add_eq_some (h : a + b < UInt64.size) : add a b = some (a + b) := if_pos h

lemma sub_eq_some (h : b ≤ a) : sub a b = some (a - b) := if_pos h

lemma add_eq_some_iff {n : Nat} : add a b = some n ↔ a + b < UInt64.size ∧ n = a + b := by
  rw [add]
  split <;> simp [*, eq_comm]

lemma sub_eq_some_iff {n : Nat} : sub a b = some n ↔ b ≤ a ∧ n = a - b := by
  rw [sub]
  split <;> simp [*, eq_comm]

lemma advance_eq_some {p : Progress} (h : p.yielded + 1 < UInt64.size) :
    advance p = some p.advance := by
  rw [advance, add_eq_some h]
  rfl

lemma eq_of_advance {p q : Progress} (h : advance p = some q) : q = p.advance := by
  obtain ⟨yielded, hyielded, hq⟩ := Option.bind_eq_some_iff.1 h
  obtain ⟨-, rfl⟩ := add_eq_some_iff.1 hyielded
  exact (Option.some.inj hq).symm

/-! ### Edits at a place -/

lemma insertIdx_append (before after : List α) (x : α) :
    (before ++ after).insertIdx before.length x = before ++ x :: after := by
  induction before with
  | nil => rfl
  | cons y before ih =>
    rw [List.cons_append, List.length_cons, List.insertIdx_succ_cons, ih]
    rfl

section Edit

variable {before after : List α} {y : α}

lemma getElem?_eq_some (h : xs.toList = before ++ y :: after) :
    xs[before.length]? = some y := by
  rw [← Array.getElem?_toList, h, List.getElem?_append_right (Nat.le_refl _), Nat.sub_self]
  rfl

lemma set_eq_some (h : xs.toList = before ++ y :: after) :
    set xs before.length x = some (before ++ x :: after).toArray := by
  obtain rfl : xs = (before ++ y :: after).toArray := by rw [← h]
  simp [set]

lemma erase_eq_some (h : xs.toList = before ++ y :: after) :
    erase xs before.length = some (before ++ after).toArray := by
  obtain rfl : xs = (before ++ y :: after).toArray := by rw [← h]
  simp [erase, List.eraseIdx_append_of_length_le]

lemma insert_eq_some (h : xs.toList = before ++ after) :
    insert xs before.length x = some (before ++ x :: after).toArray := by
  obtain rfl : xs = (before ++ after).toArray := by rw [← h]
  simp [insert, insertIdx_append]

end Edit

/-! ## Cursors with checks -/

/-- The three calls of a cursor, none of which need go through. -/
class Calls (σ : Type) (α : outParam Type) where
  /-- Whether an element is left. -/
  hasNext : σ → Option (Bool × σ)
  /-- Gives out the next element. -/
  next : σ → Option (Except WalkError α × σ)
  /-- Takes the element given out last out of the collection. -/
  remove : σ → Option (Except WalkError Unit × σ)
  /-- A bound on the elements that can still be announced and given out. -/
  budget : σ → Nat
  budget_next_lt : ∀ {s t u : σ} {v : α}, hasNext s = some (true, t) →
    next t = some (.ok v, u) → budget u < budget s
  budget_remove_le : ∀ {s t : σ} {r : Except WalkError Unit}, remove s = some (r, t) →
    budget t ≤ budget s

end Checked

/-- A machine that runs, or has come to an expression without a value. -/
inductive Machine (σ : Type) where
  /-- All went through so far. -/
  | running (s : σ)
  /-- Something did not go through. -/
  | stopped

namespace Machine

open Checked

variable {σ α ρ : Type}

/-- Runs a checked call.  Where it does not go through, the machine stops and says `never`. -/
def run (never : ρ) (call : σ → Option (ρ × σ)) : Machine σ → Step Empty (Machine σ) ρ
  | .running s =>
    match call s with
    | some (answer, t) => .still answer (.running t)
    | none => .still never .stopped
  | .stopped => .still never .stopped

lemma run_of_eq_some (never : ρ) {answer : ρ} {call : σ → Option (ρ × σ)} {s t : σ}
    (h : call s = some (answer, t)) : run never call (.running s) = .still answer (.running t) := by
  simp only [run, h]

variable [Calls σ α]

/-- What the machine can still give out; nothing once it has stopped. -/
def budget : Machine σ → Nat
  | .running s => Calls.budget s
  | .stopped => 0

/-- A machine is a cursor, whose loops end at a stop. -/
instance : Cursor (Machine σ) Empty α where
  hasNext := run false Calls.hasNext
  next := run (.error (.exhausted 0)) Calls.next
  remove := run (.error (.refused .nothingReturned)) Calls.remove
  budget := budget
  budget_next_lt := by
    intro m v hmore hgot
    cases m with
    | stopped => cases hmore
    | running s =>
      cases hhas : Calls.hasNext s with
      | none => simp [run, hhas] at hmore
      | some x =>
        rw [run_of_eq_some _ hhas] at hmore hgot ⊢
        cases hnext : Calls.next x.2 with
        | none => simp [run, hnext] at hgot
        | some y =>
          rw [Step.still_after, run_of_eq_some _ hnext] at hgot ⊢
          obtain ⟨more, t⟩ := x
          obtain ⟨got, u⟩ := y
          obtain rfl : more = true := hmore
          obtain rfl : got = .ok v := hgot
          exact Calls.budget_next_lt hhas hnext
  budget_remove_le := by
    intro m
    cases m with
    | stopped => exact Nat.le_refl 0
    | running s =>
      cases hgone : Calls.remove s with
      | none => simp [run, hgone, budget]
      | some x =>
        rw [run_of_eq_some _ hgone]
        exact Calls.budget_remove_le hgone

end Machine

namespace Checked

variable {σ τ ε α : Type} [Calls σ α] [Cursor τ ε α]

/-- While the cursor keeps `I`, each of its calls goes through with the checks, and does to
the checked state that `view` gives of it what it does to the cursor.  What it can still give
out can be counted. -/
structure Follows (view : τ → σ) (I : τ → Prop) : Prop extends Cursor.Keeps I where
  hasNext_eq : ∀ t, I t → Calls.hasNext (view t) =
    some ((Cursor.hasNext t).answer, view (Cursor.hasNext t).after)
  next_eq : ∀ t, I t → Calls.next (view t) =
    some ((Cursor.next t).answer, view (Cursor.next t).after)
  remove_eq : ∀ t, I t → Calls.remove (view t) =
    some ((Cursor.remove t).answer, view (Cursor.remove t).after)
  budget_lt : ∀ t, I t → Cursor.budget t < UInt64.size

variable {view : τ → σ} {I : τ → Prop} {t : τ}

/-- The machine runs at the state that the view gives. -/
def At (view : τ → σ) (I : τ → Prop) (m : Machine σ) (t : τ) : Prop :=
  m = .running (view t) ∧ I t

lemma Follows.mirrors (h : Follows view I) : Cursor.Mirrors (At view I) where
  hasNext m t hm := by
    obtain ⟨rfl, ht⟩ := hm
    have hrun := Machine.run_of_eq_some false (h.hasNext_eq t ht)
    exact ⟨congrArg Step.answer hrun, congrArg Step.after hrun, h.hasNext t ht⟩
  next m t hm := by
    obtain ⟨rfl, ht⟩ := hm
    have hrun := Machine.run_of_eq_some (.error (.exhausted 0)) (h.next_eq t ht)
    exact ⟨congrArg Step.answer hrun, congrArg Step.after hrun, h.next t ht⟩
  remove m t hm := by
    obtain ⟨rfl, ht⟩ := hm
    have hrun := Machine.run_of_eq_some (.error (.refused .nothingReturned))
      (h.remove_eq t ht)
    exact ⟨congrArg Step.answer hrun, congrArg Step.after hrun, h.remove t ht⟩

/-! ## Walks and scripts -/

section Walk

variable [Max α]

/-- The replies to a walk with checks, if all of it goes through.  Also what its loops count
must be numbers of 64 bits. -/
def performAll (calls : List (Call α)) (s : σ) : Option (List (Reply α) × σ) :=
  let x := Cursor.performAll calls (Machine.running s)
  match x.after with
  | .running t => if ∀ r ∈ x.answer, r.counted < UInt64.size then some (x.answer, t) else none
  | .stopped => none

/-- A walk that keeps what its calls need goes through. -/
lemma Follows.performAll (h : Follows view I) (ht : I t) (calls : List (Call α)) :
    Checked.performAll calls (view t) =
      some ((Cursor.performAll calls t).answer, view (Cursor.performAll calls t).after) := by
  obtain ⟨hanswer, hafter, -⟩ := h.mirrors.performAll calls ⟨rfl, ht⟩
  have hcounts : ∀ r ∈ (Cursor.performAll calls t).answer, r.counted < UInt64.size :=
    fun r hr => Nat.lt_of_le_pred (by decide)
      (h.counted_le (fun t ht => Nat.le_pred_of_lt (h.budget_lt t ht)) calls ht r hr)
  rw [Checked.performAll, hafter, hanswer]
  exact if_pos hcounts

end Walk

/-- Puts the requests with checks one after another, if all of them go through. -/
def runAll {ρ φ : Type} (act : ρ → τ → Option (φ × τ)) : List ρ → τ → Option (List φ × τ)
  | [], t => some ([], t)
  | r :: rs, t => do
    let (a, t) ← act r t
    let (as, t) ← runAll act rs t
    return (a :: as, t)

section RunAll

variable {ρ φ : Type} {act : ρ → τ → Step ε τ φ} {act' : ρ → τ → Option (φ × τ)} {P : τ → Prop}

/-- A script goes through if each request does in the state that it comes to. -/
lemma runAll_eq_some (h : ∀ r t, P t → act' r t = some ((act r t).answer, (act r t).after))
    (rs : List ρ) (hP : ∀ rs', rs' <+: rs → P (Step.runAll act rs' t).after) :
    runAll act' rs t = some ((Step.runAll act rs t).answer, (Step.runAll act rs t).after) := by
  induction rs generalizing t with
  | nil => rfl
  | cons r rs ih =>
    have ht : P t := hP [] List.nil_prefix
    have hrest := ih (t := (act r t).after) fun rs' hrs' =>
      hP (r :: rs') (List.cons_prefix_cons.2 ⟨rfl, hrs'⟩)
    simp only [runAll, h r t ht, Option.bind_eq_bind, Option.bind_some, hrest]
    rfl

end RunAll

end Checked

end IntWalk
