import IntWalk.Proofs.Cursor.Path

/-!
# How far loops count

Some loops over a cursor count what they meet.  Each element counted was announced and given
out, so what the cursor can still give out bounds the count.
-/

namespace IntWalk

variable {σ ε α : Type}

/-- How far filtering counted.  Where it was stopped this is not told, but it counted no more
elements than it asked about. -/
def Sweep.counted (s : Sweep α) : Nat :=
  match s.removed with
  | .ok n => n
  | .error _ => s.asked.length

/-- How far was counted for a reply. -/
def Reply.counted : Reply α → Nat
  | .total n => n
  | .swept s => s.counted
  | _ => 0

namespace Cursor

variable [Cursor σ ε α]

lemma skip_le_budget (n : Nat) (s : σ) : (skip n s).answer ≤ budget s := by
  induction n generalizing s with
  | zero => exact Nat.zero_le _
  | succ n ih =>
    rw [skip, Step.andThen_answer]
    split
    · next more =>
      rw [Step.andThen_answer]
      cases got : (next (hasNext s).after).answer with
      | ok v =>
        have hpaid := budget_next_lt more got
        have hrest := ih (next (hasNext s).after).after
        simp only [Step.map_answer]
        omega
      | error e => exact Nat.zero_le _
    · exact Nat.zero_le _

lemma sweep_le_budget (choose : Chooser α) (asked : List α) (removed : Nat) (s : σ)
    (h : removed ≤ asked.length) :
    (sweep choose asked removed s).answer.counted ≤ asked.length + budget s := by
  fun_induction sweep choose asked removed s with
  | case1 asked removed s has more given e got =>
    simp [Sweep.counted]
  | case2 asked removed s has more given v got chosen gone events e refused =>
    have hpaid : budget given.after < budget s := budget_next_lt more got
    simp only [Sweep.counted, List.length_reverse, List.length_cons]
    omega
  | case3 asked removed s has more given v got chosen gone events done ih =>
    have hpaid : budget given.after < budget s := budget_next_lt more got
    have hkept : budget gone.after ≤ budget given.after := budget_remove_le _
    have hrest := ih (Nat.succ_le_succ h)
    rw [List.length_cons] at hrest
    rw [Step.preceded_answer]
    omega
  | case4 asked removed s has more given v got chosen ih =>
    have hpaid : budget given.after < budget s := budget_next_lt more got
    have hrest := ih (Nat.le_succ_of_le h)
    rw [List.length_cons] at hrest
    rw [Step.preceded_answer]
    omega
  | case5 asked removed s has more => exact Nat.le_trans h (Nat.le_add_right _ _)

lemma drain_le_budget (s : σ) : (drain s).answer.length ≤ budget s := by
  fun_induction drain s with
  | case1 s first ended => exact Nat.zero_le _
  | case2 s first v found ih =>
    have hpaid := budget_value?_lt found
    exact Nat.le_trans (Nat.succ_le_succ ih) hpaid

/-! ## Whole walks -/

variable [Max α]

lemma perform_le_budget (c : Call α) (s : σ) : (perform c s).answer.counted ≤ budget s := by
  cases c with
  | skip n => exact skip_le_budget n s
  | removeIf choose =>
    have hle := sweep_le_budget choose [] 0 s (Nat.le_refl 0)
    rwa [List.length_nil, Nat.zero_add] at hle
  | count => exact drain_le_budget s
  | hasNext | next | remove | value | take n | nth n | drain | greatest => exact Nat.zero_le _

/-- A bound on what the cursor can still give out, kept on the walk, bounds all counts. -/
lemma Keeps.counted_le {I : σ → Prop} {n : Nat} (h : Keeps I) (hn : ∀ s, I s → budget s ≤ n)
    (cs : List (Call α)) {s : σ} (hs : I s) :
    ∀ r ∈ (Cursor.performAll cs s).answer, r.counted ≤ n := by
  induction cs generalizing s with
  | nil => exact nofun
  | cons c cs ih =>
    have hafter := h.along (perform_path c s) hs
    intro r hr
    rcases List.mem_cons.1 hr with rfl | hr
    · exact Nat.le_trans (perform_le_budget c s) (hn s hs)
    · exact ih hafter r hr

end Cursor

end IntWalk
