import IntWalk.Bits.Basic
import IntWalk.Proofs.Ascending
import Mathlib.Data.Finset.Card

/-!
# The members of a bit set

A bit set stands for the finite set of the places at which its mask has a one.  Its
size is kept beside the mask; while it is `Accurate`, an insertion and a removal keep
it so, since they change it exactly when they change the members.
-/

namespace IntWalk

/-! ## The list of ones -/

namespace Ones

variable {m i v : Nat}

lemma mem_listFrom : v ∈ listFrom m i ↔ i ≤ v ∧ m.testBit v = true := by
  fun_induction listFrom m i with
  | case1 i found =>
    have zeros := nextFrom?_eq_none_iff.1 found
    refine ⟨nofun, fun ⟨hle, hv⟩ => ?_⟩
    rw [zeros v hle] at hv
    cases hv
  | case2 i u found ih =>
    obtain ⟨hle, hu, zeros⟩ := nextFrom?_eq_some_iff.1 found
    rw [List.mem_cons, ih]
    constructor
    · rintro (rfl | ⟨hlt, hv⟩)
      · exact ⟨hle, hu⟩
      · exact ⟨by omega, hv⟩
    · rintro ⟨hiv, hv⟩
      -- below the place found there is no one
      rcases Nat.lt_trichotomy v u with hlt | rfl | hlt
      · rw [zeros v hiv hlt] at hv
        cases hv
      · exact .inl rfl
      · exact .inr ⟨hlt, hv⟩

lemma pairwise_listFrom (m i : Nat) : (listFrom m i).Pairwise (· < ·) := by
  fun_induction listFrom m i with
  | case1 i found => exact List.Pairwise.nil
  | case2 i u found ih => exact List.pairwise_cons.2 ⟨fun v hv => (mem_listFrom.1 hv).1, ih⟩

end Ones

namespace BitSet

variable {s t : BitSet} {v u : Nat}

/-- The finite set that a bit set stands for. -/
def members (s : BitSet) : Finset Nat := s.toList.toFinset

@[simp] lemma mem_toList : v ∈ s.toList ↔ v ∈ s := by
  rw [toList, Ones.mem_listFrom, mem_def]
  exact ⟨And.right, fun h => ⟨Nat.zero_le v, h⟩⟩

@[simp] lemma mem_members : v ∈ s.members ↔ v ∈ s := by
  rw [members, List.mem_toFinset, mem_toList]

lemma pairwise_toList (s : BitSet) : s.toList.Pairwise (· < ·) := Ones.pairwise_listFrom s.mask 0

lemma nodup_toList (s : BitSet) : s.toList.Nodup := (pairwise_toList s).imp Nat.ne_of_lt

lemma card_members (s : BitSet) : s.members.card = Ones.count s.mask := by
  rw [members, List.toFinset_card_of_nodup s.nodup_toList]
  rfl

lemma contains_eq_true_iff : s.contains v = true ↔ v ∈ s := by
  rw [contains, Bool.and_eq_true, decide_eq_true_iff, ← mem_def]
  exact ⟨And.right, fun h => ⟨lt_capacity_of_mem h, h⟩⟩

/-- The size kept is the number of members. -/
def Accurate (s : BitSet) : Prop := s.size = s.members.card

lemma Accurate.isEmpty_eq_true_iff (h : s.Accurate) : s.isEmpty = true ↔ s.members = ∅ := by
  rw [isEmpty, beq_iff_eq, h, Finset.card_eq_zero]

lemma members_of_mask_eq_zero (h : s.mask = 0) : s.members = ∅ := by
  refine Finset.eq_empty_iff_forall_notMem.2 fun v hv => ?_
  rw [mem_members, mem_def, h, Nat.zero_testBit] at hv
  cases hv

lemma accurate_ofCapacity (c : Capacity) : (ofCapacity c).Accurate := by
  rw [Accurate, members_of_mask_eq_zero rfl, Finset.card_empty]
  rfl

lemma accurate_empty : empty.Accurate := by
  rw [Accurate, members_of_mask_eq_zero rfl, Finset.card_empty]
  rfl

lemma mask_eq_of_mem_iff (h : ∀ v, v ∈ s ↔ v ∈ t) : s.mask = t.mask := by
  refine Nat.eq_of_testBit_eq fun v => ?_
  rw [Bool.eq_iff_iff, ← mem_def, ← mem_def]
  exact h v

lemma members_eq_of_mem_iff (h : ∀ v, v ∈ s ↔ v ∈ t) : s.members = t.members := by
  ext v
  rw [mem_members, mem_members, h]

/-- Behind one head there is one set with a capacity and members. -/
lemma Accurate.ext (hs : s.Accurate) (ht : t.Accurate) (hcapacity : s.capacity = t.capacity)
    (hhead : s.head = t.head) (hmem : ∀ v, v ∈ s ↔ v ∈ t) : s = t := by
  have hmask := mask_eq_of_mem_iff hmem
  have hsize : s.size = t.size := by
    rw [hs, ht, members_eq_of_mem_iff hmem]
  cases s
  cases t
  cases hcapacity
  cases hhead
  cases hmask
  cases hsize
  rfl

/-! ## Insertion -/

lemma insert_of_le (h : s.capacity ≤ v) :
    s.insert v = .still (.error (.outOfRange v s.capacity)) s := by
  rw [insert, dif_neg (Nat.not_lt.2 h)]

section Insert

variable (h : v < s.capacity)
include h

lemma insert_answer : (s.insert v).answer = .ok (decide (v ∉ s.members)) := by
  rw [insert, dif_pos h, Step.still_answer, decide_not]
  congr 2
  rw [Bool.eq_iff_iff, decide_eq_true_iff, mem_members, mem_def]

lemma members_insert : (s.insert v).after.members = Insert.insert v s.members := by
  ext u
  rw [mem_members, Finset.mem_insert, mem_members, insert, dif_pos h, Step.still_after, mem_def,
    Ones.testBit_set, Bool.or_eq_true, decide_eq_true_iff, mem_def, or_comm, eq_comm]

lemma size_insert : (s.insert v).after.size = if v ∈ s.members then s.size else s.size + 1 := by
  rw [insert, dif_pos h, Step.still_after]
  simp only [mem_members, mem_def]

end Insert

lemma capacity_insert (s : BitSet) (v : Nat) : (s.insert v).after.capacity = s.capacity := by
  rw [insert]
  split <;> rfl

lemma Accurate.insert (h : s.Accurate) (v : Nat) : (s.insert v).after.Accurate := by
  rcases Nat.lt_or_ge v s.capacity with hlt | hge
  · rw [Accurate, size_insert hlt, members_insert hlt]
    split
    · next hv => rw [Finset.insert_eq_of_mem hv, h]
    · next hv => rw [Finset.card_insert_of_notMem hv, h]
  · rw [insert_of_le hge]
    exact h

lemma insertSigned_of_neg {n : Int} (h : n < 0) :
    s.insertSigned n = .still (.error (.negative n)) s := if_pos h

lemma insertSigned_of_le (h : v ≤ largestValue) : s.insertSigned v = s.insert v := by
  rw [insertSigned, if_neg (by omega), if_neg (by omega), Int.toNat_natCast]

/-- A number given with its sign is inserted, or the set stays as it is. -/
lemma insertSigned_after (s : BitSet) (n : Int) :
    (s.insertSigned n).after = s ∨ (s.insertSigned n).after = (s.insert n.toNat).after := by
  rw [insertSigned]
  split
  · exact .inl rfl
  · split
    · exact .inl rfl
    · exact .inr rfl

/-! ## Removal -/

lemma members_clear (s : BitSet) (v : Nat) : (s.clear v).members = s.members.erase v := by
  ext u
  rw [mem_members, Finset.mem_erase, mem_members, mem_def, clear, Ones.testBit_clear,
    Bool.and_eq_true, Bool.not_eq_true', decide_eq_false_iff_not, mem_def, and_comm, ne_comm]

/-- A member that is cleared leaves a gap in the list of the members. -/
lemma toList_clear {before after : List Nat} (hs : s.toList = before ++ v :: after) :
    (s.clear v).toList = before ++ after := by
  have hsorted := pairwise_toList s
  rw [hs] at hsorted
  refine eq_append_of_mem_iff hsorted (pairwise_toList _) fun u => ?_
  rw [← hs, mem_toList, mem_toList, ← mem_members, members_clear, Finset.mem_erase, mem_members,
    and_comm]

/-- Clearing a member keeps the size accurate.  Clearing another number would not. -/
lemma Accurate.clear (h : s.Accurate) (hv : v ∈ s) : (s.clear v).Accurate := by
  rw [Accurate, members_clear, Finset.card_erase_of_mem (mem_members.2 hv), ← h]
  rfl

/-- A member that is cleared is counted off. -/
lemma Accurate.size_clear (h : s.Accurate) (hv : v ∈ s) : (s.clear v).size + 1 = s.size := by
  rw [h.clear hv, members_clear, h]
  exact Finset.card_erase_add_one (mem_members.2 hv)

lemma remove_of_mem (h : v ∈ s) : s.remove v = .still true (s.clear v) := by
  rw [remove, if_pos (contains_eq_true_iff.2 h)]

lemma remove_of_not_mem (h : v ∉ s) : s.remove v = .still false s := by
  rw [remove, if_neg fun hv => h (contains_eq_true_iff.1 hv)]

lemma remove_answer_eq_true_iff : (s.remove v).answer = true ↔ v ∈ s := by
  by_cases h : v ∈ s
  · simp [remove_of_mem h, h]
  · simp [remove_of_not_mem h, h]

lemma members_remove (s : BitSet) (v : Nat) :
    (s.remove v).after.members = s.members.erase v := by
  by_cases h : v ∈ s
  · rw [remove_of_mem h, Step.still_after, members_clear]
  · rw [remove_of_not_mem h, Step.still_after, Finset.erase_eq_of_notMem (by simpa using h)]

lemma capacity_remove (s : BitSet) (v : Nat) : (s.remove v).after.capacity = s.capacity := by
  rw [remove]
  split <;> rfl

lemma Accurate.remove (h : s.Accurate) (v : Nat) : (s.remove v).after.Accurate := by
  by_cases hv : v ∈ s
  · rw [remove_of_mem hv]
    exact h.clear hv
  · rw [remove_of_not_mem hv]
    exact h

end BitSet

end IntWalk
