import IntWalk.Proofs.Bits.Head
import IntWalk.Proofs.Checked.Parts
import IntWalk.Proofs.Checked.Sequence
import IntWalk.Proofs.Cursor.Exact

/-!
# Calls that fail

A call on a collection or on one of its walks that fails leaves everything as it was: the
collection, the place of the walk and the right to remove.  So a program does the same if all
calls that fail are left out of it.
-/

namespace IntWalk

open Step Cursor

/-- Calls on the cursor that fail change nothing: the right to remove outlives them, to be used
once, and all of them can be left out. -/
structure Cursor.FailsStill {α : Type} [Max α] (σ : Type) [Cursor σ Event α] : Prop where
  next : ∀ (s : σ) (e : WalkError), (next s).answer = .error e →
    (next s).after = s ∧ ∃ n, e = .exhausted n
  remove : ∀ (s : σ) (e : WalkError), (remove s).answer = .error e →
    (remove s).after = s ∧ ∃ why, e = .refused why
  removeIf : ∀ (choose : Chooser α) (s : σ) (e : WalkError),
    (removeIf choose s).answer.removed ≠ .error e
  removal : ∀ (s : σ) (v : α), (Cursor.next s).answer = .ok v →
    ∀ e, (Cursor.next (Cursor.next s).after).answer = .error e →
      let gone := Cursor.remove (Cursor.next (Cursor.next s).after).after
      gone.answer = .ok () ∧
        (Cursor.remove gone.after).answer = .error (.refused .alreadyRemoved)
  spares : Spares (perform (σ := σ)) unlessFailing Reply.unlessFailed

lemma Cursor.Exact.failsStill {α : Type} [Max α] {σ : Type} [Cursor σ Event α] (h : Exact σ) :
    FailsStill σ where
  next s e he := h.next_failed he
  remove s e he := h.remove_failed he
  removeIf choose s e := h.sweep_done choose [] 0 s e
  removal s v got e he := by
    rw [(h.next_failed he).1]
    have gone := h.earned s v got
    exact ⟨gone, h.spent _ gone⟩
  spares := h.spares

/-- Whether the answer is an error. -/
def Answer.failed : Answer → Bool
  | .stored (.error _) => true
  | _ => false

/-! ## Sequences -/

namespace Sequence

variable {α : Type}

/-- The outcome without replies that are errors. -/
def Outcome.unlessFailed : Outcome α → Option (Outcome α)
  | .replies rs progress remaining =>
    some (.replies (rs.filterMap Reply.unlessFailed) progress remaining)
  | o => some o

variable [Max α]

/-- What is asked without calls that fail. -/
def Action.unlessFailing : Action α → Sequence α → Option (Action α)
  | .walk calls, s => some (.walk (withoutFailing calls s.walk))
  | x, _ => some x

variable [DecidableEq α]

lemma spares_act : Spares (act (α := α)) Action.unlessFailing Outcome.unlessFailed := by
  refine spares_of_trims fun x s => ?_
  cases x with
  | append | size | isEmpty | contains => exact .kept _ rfl rfl
  | walk calls =>
    obtain ⟨hanswer, hafter⟩ := Walk.exact.performAll_withoutFailing calls s.walk
    refine .kept _ ?_ ?_
    · simp only [Outcome.unlessFailed, act, hanswer, hafter]
    · simp only [act, hafter]

end Sequence

/-! ## Bit sets -/

namespace BitSet

variable {s : BitSet} {e : StoreError}

lemma insert_failed {v : Nat} (he : (s.insert v).answer = .error e) : (s.insert v).after = s := by
  rw [insert] at he ⊢
  split at he
  · cases he
  · next room => rw [dif_neg room, still_after]

lemma insertSigned_failed {v : Int} (he : (s.insertSigned v).answer = .error e) :
    (s.insertSigned v).after = s := by
  rw [insertSigned] at he ⊢
  split at he
  · next neg => rw [if_pos neg, still_after]
  · next neg =>
    split at he
    · next large => rw [if_neg neg, if_pos large, still_after]
    · next large =>
      rw [if_neg neg, if_neg large]
      exact insert_failed he

lemma ask_failed {r : Request Nat} (hr : (s.ask r).answer.failed = true) : (s.ask r).after = s := by
  cases r with
  | insert v =>
    cases he : (s.insert v).answer with
    | ok new => simp [ask, he, Answer.failed] at hr
    | error e => exact insert_failed he
  | insertSigned v =>
    cases he : (s.insertSigned v).answer with
    | ok new => simp [ask, he, Answer.failed] at hr
    | error e => exact insertSigned_failed he
  | remove | contains | size | isEmpty => cases hr

/-- The outcome without answers and replies that are errors. -/
def Outcome.unlessFailed : Outcome → Option Outcome
  | .answer a => if a.failed then none else some (.answer a)
  | .replies rs progress => some (.replies (rs.filterMap Reply.unlessFailed) progress)
  | o => some o

/-- What is asked without calls that fail. -/
def Action.unlessFailing : Action → BitSet → Option Action
  | .ask r, s => if (s.ask r).answer.failed then none else some (.ask r)
  | .walk calls, s => some (.walk (withoutFailing calls s.walk))
  | x, _ => some x

lemma spares_act : Spares act Action.unlessFailing Outcome.unlessFailed := by
  refine spares_of_trims fun x s => ?_
  cases x with
  | capacity | list | compare => exact .kept _ rfl rfl
  | ask r =>
    rw [Action.unlessFailing]
    split
    · next hr =>
      refine .out ?_ (ask_failed hr)
      simp only [Outcome.unlessFailed, act, map_answer, if_pos hr]
    · next hr =>
      refine .kept _ ?_ rfl
      simp only [Outcome.unlessFailed, act, map_answer, if_neg hr]
  | walk calls =>
    obtain ⟨hanswer, hafter⟩ := Walk.exact.performAll_withoutFailing calls s.walk
    refine .kept _ ?_ ?_
    · simp only [Outcome.unlessFailed, act, hanswer, hafter]
    · simp only [act, hafter]

end BitSet

/-! ## Part sets -/

namespace PartSet

variable {s : PartSet} {e : StoreError}

lemma insertSigned_failed {v : Int} (he : (s.insertSigned v).answer = .error e) :
    (s.insertSigned v).after = s := by
  rw [insertSigned] at he ⊢
  split at he
  · next neg => rw [if_pos neg, still_after]
  · next neg =>
    split at he
    · next large => rw [if_neg neg, if_pos large, still_after]
    · cases he

lemma ask_failed {r : Request Part} (hr : (s.ask r).answer.failed = true) :
    (s.ask r).after = s := by
  cases r with
  | insertSigned v =>
    cases he : (s.insertSigned v).answer with
    | ok new => simp [ask, he, Answer.failed] at hr
    | error e => exact insertSigned_failed he
  | insert | remove | contains | size | isEmpty => cases hr

/-- The outcome without answers and replies that are errors. -/
def Outcome.unlessFailed : Outcome → Option Outcome
  | .answer a => if a.failed then none else some (.answer a)
  | .replies rs progress => some (.replies (rs.filterMap Reply.unlessFailed) progress)
  | o => some o

/-- What is asked without calls that fail. -/
def Action.unlessFailing : Action → PartSet → Option Action
  | .ask r, s => if (s.ask r).answer.failed then none else some (.ask r)
  | .walk calls, s => some (.walk (withoutFailing calls s.walk))
  | x, _ => some x

lemma spares_act : Spares act Action.unlessFailing Outcome.unlessFailed := by
  refine spares_of_trims fun x s => ?_
  cases x with
  | missing total => exact .kept _ rfl rfl
  | ask r =>
    rw [Action.unlessFailing]
    split
    · next hr =>
      refine .out ?_ (ask_failed hr)
      simp only [Outcome.unlessFailed, act, map_answer, if_pos hr]
    · next hr =>
      refine .kept _ ?_ rfl
      simp only [Outcome.unlessFailed, act, map_answer, if_neg hr]
  | walk calls =>
    obtain ⟨hanswer, hafter⟩ := Walk.exact.performAll_withoutFailing calls s.walk
    refine .kept _ ?_ ?_
    · simp only [Outcome.unlessFailed, act, hanswer, hafter]
    · simp only [act, hafter]

end PartSet

/-- Calls that fail change nothing, on the three walks as on the collections; without all of them
a script comes to the same answers and leaves the same collection. -/
theorem failing_calls_change_nothing {α : Type} [DecidableEq α] [Max α] :
    (FailsStill (Sequence.Walk α) ∧ FailsStill BitSet.Walk ∧ FailsStill PartSet.Walk) ∧
    ((∀ (s : BitSet) (v : Nat) (e : StoreError), (s.insert v).answer = .error e →
        (s.insert v).after = s) ∧
      (∀ (s : BitSet) (v : Int) (e : StoreError), (s.insertSigned v).answer = .error e →
        (s.insertSigned v).after = s) ∧
      ∀ (s : PartSet) (v : Int) (e : StoreError), (s.insertSigned v).answer = .error e →
        (s.insertSigned v).after = s) ∧
    Spares (Sequence.act (α := α)) Sequence.Action.unlessFailing Sequence.Outcome.unlessFailed ∧
    Spares BitSet.act BitSet.Action.unlessFailing BitSet.Outcome.unlessFailed ∧
    Spares PartSet.act PartSet.Action.unlessFailing PartSet.Outcome.unlessFailed :=
  ⟨⟨Sequence.Walk.exact.failsStill, BitSet.Walk.exact.failsStill, PartSet.Walk.exact.failsStill⟩,
    ⟨fun _ _ _ => BitSet.insert_failed, fun _ _ _ => BitSet.insertSigned_failed,
      fun _ _ _ => PartSet.insertSigned_failed⟩,
    Sequence.spares_act, BitSet.spares_act, PartSet.spares_act⟩

/-- The only value is given out, then asked for once more in vain, and can still be removed, but
only once. -/
theorem removal_outlives_exhaustion :
    let w := (Sequence.walk ⟨[7]⟩ : Sequence.Walk Nat)
    let vain := next (next w).after
    vain.answer = .error (.exhausted 1) ∧ (remove vain.after).answer = .ok () ∧
      (remove (remove vain.after).after).answer = .error (.refused .alreadyRemoved) := by
  intro w vain
  exact ⟨rfl, (failing_calls_change_nothing (α := Nat)).1.1.removal w 7 rfl _ rfl⟩

end IntWalk
