import IntWalk.Bits.Text
import IntWalk.Proofs.Bits.Members

/-!
# The digits of words

A number cut into words has each digit in one of them, and is put together from them
again.  Words that were written elsewhere are numbers of 64 digits as well, and the digits
of what they make up are theirs.
-/

namespace IntWalk.Ones

variable {ws : List Nat}

/-! ## Words of a number -/

lemma length_words (n m : Nat) : (words n m).length = n := by
  induction n generalizing m with
  | zero => rfl
  | succ n ih => rw [words, List.length_cons, ih]

lemma lt_of_mem_words {n m w : Nat} (h : w ∈ words n m) : w < 1 <<< wordWidth := by
  induction n generalizing m with
  | zero => cases h
  | succ n ih =>
    rcases List.mem_cons.1 h with rfl | h
    · exact Nat.mod_lt _ (by decide)
    · exact ih h

/-- The words make up the number again, as far as there are words for its digits. -/
lemma ofWords_words (n m : Nat) : ofWords (words n m) = truncate m (wordWidth * n) := by
  induction n generalizing m with
  | zero =>
    rw [truncate, Nat.mul_zero, Nat.shiftLeft_zero, Nat.mod_one]
    rfl
  | succ n ih =>
    refine Nat.eq_of_testBit_eq fun i => ?_
    rw [words, ofWords, ih, Nat.testBit_or, Nat.testBit_shiftLeft, testBit_truncate,
      testBit_truncate, testBit_truncate, Nat.testBit_shiftRight]
    -- a digit lies in the first word or in those after it
    rcases Nat.lt_or_ge i wordWidth with hlt | hge
    · have hroom : i < wordWidth * (n + 1) := by
        rw [Nat.mul_succ]
        omega
      simp [hlt, hroom]
    · have hroom : i - wordWidth < wordWidth * n ↔ i < wordWidth * (n + 1) := by
        rw [Nat.mul_succ]
        omega
      simp [Nat.not_lt.2 hge, hge, hroom]

/-! ## Places in words -/

/-- The digit at a place, counted through the words; there is no one beyond them. -/
def digit (ws : List Nat) (i : Nat) : Bool := (ws.getD (i / wordWidth) 0).testBit (i % wordWidth)

lemma digit_nil (i : Nat) : digit [] i = false := by
  simp [digit]

lemma digit_cons_of_lt {i : Nat} (h : i < wordWidth) (w : Nat) (ws : List Nat) :
    digit (w :: ws) i = w.testBit i := by
  simp [digit, Nat.div_eq_of_lt h, Nat.mod_eq_of_lt h]

lemma digit_cons_of_le {i : Nat} (h : wordWidth ≤ i) (w : Nat) (ws : List Nat) :
    digit (w :: ws) i = digit ws (i - wordWidth) := by
  have hpos : 0 < wordWidth := by decide
  rw [digit, digit, Nat.div_eq_sub_div hpos h, Nat.mod_eq_sub_mod h, List.getD_cons_succ]

/-- Words of 64 digits do not overlap in the number that they make up. -/
lemma testBit_ofWords (h : ∀ w ∈ ws, w < 1 <<< wordWidth) (i : Nat) :
    (ofWords ws).testBit i = digit ws i := by
  induction ws generalizing i with
  | nil => rw [ofWords, Nat.zero_testBit, digit_nil]
  | cons w ws ih =>
    obtain ⟨hw, hws⟩ := List.forall_mem_cons.1 h
    rw [ofWords, Nat.testBit_or, Nat.testBit_shiftLeft]
    by_cases hi : i < wordWidth
    · simp [digit_cons_of_lt hi, Nat.not_le.2 hi]
    · rw [Nat.not_lt] at hi
      have hzero : w.testBit i = false := by
        rw [Nat.one_shiftLeft] at hw
        exact Nat.testBit_lt_two_pow (Nat.lt_of_lt_of_le hw (Nat.pow_le_pow_right (by decide) hi))
      simp [digit_cons_of_le hi, ih hws, hzero, hi]

lemma digit_words (n m i : Nat) :
    digit (words n m) i = (decide (i < wordWidth * n) && m.testBit i) := by
  rw [← testBit_ofWords fun w hw => lt_of_mem_words hw, ofWords_words, testBit_truncate]

/-! ## Counting -/

/-- The ones of a number are as many as its ones below a bound on them. -/
lemma count_eq_countP {m n : Nat} (h : Below m n) :
    count m = (List.range n).countP m.testBit := by
  have hsorted : ((List.range n).filter m.testBit).Pairwise (· < ·) :=
    List.Pairwise.filter _ List.pairwise_lt_range
  have hlist : listFrom m 0 = (List.range n).filter m.testBit := by
    refine List.Pairwise.eq_of_mem_iff (pairwise_listFrom m 0) hsorted fun v => ?_
    rw [mem_listFrom, List.mem_filter, List.mem_range]
    exact ⟨fun hv => ⟨h v hv.2, hv.2⟩, fun hv => ⟨Nat.zero_le v, hv.2⟩⟩
  rw [count, hlist, List.countP_eq_length_filter]

end IntWalk.Ones
