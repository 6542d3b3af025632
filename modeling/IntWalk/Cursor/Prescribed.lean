import IntWalk.Cursor.Basic

/-!
# A cursor with prescribed answers

The answers of this cursor are laid down beforehand, one list for each of the
three calls, and need not fit together.  It walks over no collection and reports
every call made on it, so it shows in which order a loop calls a cursor and what
the loop makes of the answers.
-/

namespace IntWalk

/-- One of the three calls that make a cursor. -/
inductive Primitive where
  | hasNext
  | next
  | remove
deriving DecidableEq, Repr

/-- The answers that are still to be given. -/
structure Prescribed (α : Type) where
  /-- Answers to `hasNext`; afterwards nothing is left. -/
  has : List Bool
  /-- Answers to `next`; `none` and the end stand for a failure. -/
  next : List (Option α)
  /-- Answers to `remove`; `none` and the end stand for success. -/
  remove : List (Option Refusal)
  /-- How often `next` was called, successful or not. -/
  asked : Nat
deriving Repr

namespace Prescribed

variable {α : Type}

/-- Answers the next `hasNext`. -/
def hasNextStep (s : Prescribed α) : Step Primitive (Prescribed α) Bool :=
  ⟨s.has.headD false, { s with has := s.has.tail }, [.hasNext]⟩

/-- Answers the next `next`. -/
def nextStep (s : Prescribed α) : Step Primitive (Prescribed α) (Except WalkError α) :=
  ⟨match s.next.headD none with
    | some v => .ok v
    | none => .error (.exhausted s.asked),
    { s with next := s.next.tail, asked := s.asked + 1 }, [.next]⟩

/-- Answers the next `remove`. -/
def removeStep (s : Prescribed α) : Step Primitive (Prescribed α) (Except WalkError Unit) :=
  ⟨match s.remove.headD none with
    | some why => .error (.refused why)
    | none => .ok (),
    { s with remove := s.remove.tail }, [.remove]⟩

/-- An announced element uses up an answer to `hasNext`. -/
theorem length_has_hasNextStep_lt {s : Prescribed α} (h : s.hasNextStep.answer = true) :
    s.hasNextStep.after.has.length < s.has.length := by
  unfold hasNextStep at h ⊢
  cases hs : s.has with
  | nil => simp [hs] at h
  | cons b rest => simp

instance : Cursor (Prescribed α) Primitive α where
  hasNext := hasNextStep
  next := nextStep
  remove := removeStep
  budget s := s.has.length
  budget_next_lt h _ := length_has_hasNextStep_lt h
  budget_remove_le _ := Nat.le_refl _

end Prescribed

end IntWalk
