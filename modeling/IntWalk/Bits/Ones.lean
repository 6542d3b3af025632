/-!
# The ones of a number

A natural number stands for the finite set of the places at which its binary
digits are one.  This module finds ones by whole-number operations on all digits
at once and lists them in ascending order.
-/

namespace IntWalk.Ones

/-- The place of the lowest one; the number must not be zero.  Subtracting one
flips the digits up to that place and no others. -/
def lowest (m : Nat) : Nat := (m ^^^ (m - 1)).log2

/-- The place of the first one from place `i` on. -/
def nextFrom? (m i : Nat) : Option Nat :=
  let rest := m >>> i
  if rest = 0 then none else some (i + lowest rest)

/-- The number with a one at place `i` as well. -/
def set (m i : Nat) : Nat := m ||| (1 <<< i)

/-- The number without a one at place `i`. -/
def clear (m i : Nat) : Nat := m ^^^ (m &&& (1 <<< i))

/-! ## Setting and clearing -/

@[simp] theorem testBit_set (m i j : Nat) :
    (set m i).testBit j = (m.testBit j || decide (i = j)) := by
  simp [set, Nat.one_shiftLeft, Nat.testBit_or, Nat.testBit_two_pow]

@[simp] theorem testBit_clear (m i j : Nat) :
    (clear m i).testBit j = (m.testBit j && !decide (i = j)) := by
  simp only [clear, Nat.one_shiftLeft, Nat.testBit_xor, Nat.testBit_and, Nat.testBit_two_pow]
  cases m.testBit j <;> cases decide (i = j) <;> rfl

/-- All ones stand below place `n`. -/
def Below (m n : Nat) : Prop := ∀ i, m.testBit i = true → i < n

theorem below_zero (n : Nat) : Below 0 n := by
  intro i h
  simp at h

theorem below_set {m i n : Nat} (hm : Below m n) (hi : i < n) : Below (set m i) n := by
  intro j h
  rw [testBit_set, Bool.or_eq_true, decide_eq_true_eq] at h
  rcases h with h | rfl
  · exact hm j h
  · exact hi

theorem below_clear {m n : Nat} (hm : Below m n) (i : Nat) : Below (clear m i) n := by
  intro j h
  rw [testBit_clear, Bool.and_eq_true] at h
  exact hm j h.1

/-- The number without the ones from place `n` on. -/
def truncate (m n : Nat) : Nat := m % (1 <<< n)

@[simp] theorem testBit_truncate (m n i : Nat) :
    (truncate m n).testBit i = (decide (i < n) && m.testBit i) := by
  rw [truncate, Nat.one_shiftLeft, Nat.testBit_mod_two_pow]

theorem below_truncate (m n : Nat) : Below (truncate m n) n := by
  intro i h
  rw [testBit_truncate, Bool.and_eq_true, decide_eq_true_eq] at h
  exact h.1

/-! ## The lowest one -/

theorem xor_pred_odd (k : Nat) : (2 * k + 1) ^^^ (2 * k) = 1 := by
  apply Nat.eq_of_testBit_eq
  intro i
  cases i with
  | zero => simp
  | succ i =>
    rw [Nat.testBit_xor, Nat.testBit_succ, Nat.testBit_succ, Nat.testBit_succ]
    have h : (2 * k + 1) / 2 = 2 * k / 2 := by omega
    rw [h]
    simp

theorem xor_pred_even {k : Nat} (hk : 0 < k) :
    (2 * k) ^^^ (2 * k - 1) = 2 * (k ^^^ (k - 1)) + 1 := by
  apply Nat.eq_of_testBit_eq
  intro i
  cases i with
  | zero =>
    have h : (2 * k - 1) % 2 = 1 := by omega
    simp [h]
  | succ i =>
    rw [Nat.testBit_xor, Nat.testBit_succ, Nat.testBit_succ, Nat.testBit_succ]
    have h₁ : 2 * k / 2 = k := by omega
    have h₂ : (2 * k - 1) / 2 = k - 1 := by omega
    have h₃ : (2 * (k ^^^ (k - 1)) + 1) / 2 = k ^^^ (k - 1) := by omega
    rw [h₁, h₂, h₃, Nat.testBit_xor]

theorem half_cases (m : Nat) : ∃ k, m = 2 * k ∨ m = 2 * k + 1 := ⟨m / 2, by omega⟩

theorem xor_pred_pos {m : Nat} (hm : 0 < m) : 0 < m ^^^ (m - 1) := by
  obtain ⟨k, rfl | rfl⟩ := half_cases m
  · rw [xor_pred_even (by omega)]
    omega
  · rw [Nat.add_sub_cancel, xor_pred_odd]
    omega

theorem lowest_odd (k : Nat) : lowest (2 * k + 1) = 0 := by
  rw [lowest, Nat.add_sub_cancel, xor_pred_odd]
  decide

theorem lowest_even {k : Nat} (hk : 0 < k) : lowest (2 * k) = lowest k + 1 := by
  have pos := xor_pred_pos hk
  rw [lowest, xor_pred_even hk, Nat.log2_def, if_pos (by omega), lowest]
  congr 2
  omega

/-- There is a one at the lowest place, and none below. -/
theorem testBit_lowest {m : Nat} (hm : 0 < m) :
    m.testBit (lowest m) = true ∧ ∀ i < lowest m, m.testBit i = false := by
  induction m using Nat.strongRecOn with
  | ind m ih =>
    obtain ⟨k, rfl | rfl⟩ := half_cases m
    · have hk : 0 < k := by omega
      obtain ⟨one, zeros⟩ := ih k (by omega) hk
      rw [lowest_even hk]
      refine ⟨?_, fun i hi => ?_⟩
      · rw [Nat.testBit_succ, Nat.mul_div_cancel_left k (by omega), one]
      · cases i with
        | zero => simp
        | succ i =>
          rw [Nat.testBit_succ, Nat.mul_div_cancel_left k (by omega)]
          exact zeros i (by omega)
    · rw [lowest_odd]
      exact ⟨by simp, fun i hi => absurd hi (Nat.not_lt_zero i)⟩

/-! ## Finding and listing ones -/

theorem nextFrom?_eq_none_iff {m i : Nat} :
    nextFrom? m i = none ↔ ∀ j, i ≤ j → m.testBit j = false := by
  unfold nextFrom?
  constructor
  · intro h j hj
    have zero : m >>> i = 0 := by
      by_cases e : m >>> i = 0
      · exact e
      · simp [e] at h
    have := congrArg (·.testBit (j - i)) zero
    simpa [Nat.testBit_shiftRight, Nat.add_sub_cancel' hj] using this
  · intro h
    have zero : m >>> i = 0 := Nat.eq_of_testBit_eq fun j => by
      rw [Nat.testBit_shiftRight, h _ (Nat.le_add_right i j), Nat.zero_testBit]
    simp [zero]

/-- The place found holds a one, and no place between `i` and it does. -/
theorem nextFrom?_eq_some_iff {m i v : Nat} :
    nextFrom? m i = some v ↔
      i ≤ v ∧ m.testBit v = true ∧ ∀ j, i ≤ j → j < v → m.testBit j = false := by
  by_cases zero : m >>> i = 0
  · have none := nextFrom?_eq_none_iff.1 (show nextFrom? m i = none by simp [nextFrom?, zero])
    constructor
    · intro h
      simp [nextFrom?, zero] at h
    · rintro ⟨le, one, -⟩
      rw [none v le] at one
      contradiction
  · obtain ⟨one, zeros⟩ := testBit_lowest (Nat.pos_of_ne_zero zero)
    rw [Nat.testBit_shiftRight] at one
    have found : nextFrom? m i = some (i + lowest (m >>> i)) := by simp [nextFrom?, zero]
    have before : ∀ j, i ≤ j → j < i + lowest (m >>> i) → m.testBit j = false := by
      intro j le lt
      have := zeros (j - i) (by omega)
      rwa [Nat.testBit_shiftRight, Nat.add_sub_cancel' le] at this
    rw [found, Option.some.injEq]
    constructor
    · rintro rfl
      exact ⟨Nat.le_add_right _ _, one, before⟩
    · rintro ⟨le, hv, first⟩
      rcases Nat.lt_trichotomy (i + lowest (m >>> i)) v with h | h | h
      · rw [first _ (Nat.le_add_right _ _) h] at one
        contradiction
      · exact h
      · rw [before v le h] at hv
        contradiction

theorem lt_of_nextFrom? {m i v : Nat} (h : nextFrom? m i = some v) : i ≤ v ∧ v < m := by
  obtain ⟨le, one, -⟩ := nextFrom?_eq_some_iff.1 h
  exact ⟨le, Nat.lt_of_lt_of_le Nat.lt_two_pow_self (Nat.ge_two_pow_of_testBit one)⟩

/-- The places of all ones from place `i` on, in ascending order. -/
def listFrom (m i : Nat) : List Nat :=
  match _found : nextFrom? m i with
  | none => []
  | some v => v :: listFrom m (v + 1)
termination_by m - i
decreasing_by
  have := lt_of_nextFrom? _found
  omega

/-- How many ones the number has. -/
def count (m : Nat) : Nat := (listFrom m 0).length

end IntWalk.Ones
