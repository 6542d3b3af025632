import IntWalk.Proofs.Ascending
import IntWalk.Proofs.Parts.Insert
import IntWalk.Proofs.Parts.Remove
import Mathlib.Data.Finset.Card

/-!
# The parts of a set

A part set stands for the finite set of the parts that its runs hold.  While the
runs are canonical, `insert` and `remove` do to this set what they say, and `size`
counts it.
-/

namespace IntWalk

/-! ## The parts of a run -/

namespace Run

variable {p : Part} {r : Run}

/-- The parts of the run in ascending order. -/
def toList (r : Run) : List Part := (List.range' r.first.toNat r.size).map UInt32.ofNat

@[simp] lemma length_toList (r : Run) : r.toList.length = r.size := by
  simp [toList]

lemma toNat_ofNat_of_mem {n : Nat} (h : n ∈ List.range' r.first.toNat r.size) :
    (UInt32.ofNat n).toNat = n := by
  rw [List.mem_range'_1, size] at h
  have := Part.toNat_lt r.last
  exact UInt32.toNat_ofNat_of_lt' (by simp only [UInt32.size]; omega)

@[simp] lemma mem_toList : p ∈ r.toList ↔ p ∈ r := by
  rw [toList, List.mem_map, mem_iff_toNat]
  constructor
  · rintro ⟨n, hn, rfl⟩
    rw [toNat_ofNat_of_mem hn]
    rw [List.mem_range'_1, size] at hn
    omega
  · intro hp
    refine ⟨p.toNat, ?_, UInt32.ofNat_toNat⟩
    rw [List.mem_range'_1, size]
    omega

lemma pairwise_toList (r : Run) : r.toList.Pairwise (· < ·) := by
  refine List.pairwise_map.2 (List.Pairwise.imp_of_mem ?_ List.pairwise_lt_range')
  intro m n hm hn hlt
  rw [UInt32.lt_iff_toNat_lt, toNat_ofNat_of_mem hm, toNat_ofNat_of_mem hn]
  exact hlt

lemma nonempty (h : r.first ≤ r.last) : r.first ∈ r := ⟨UInt32.le_refl _, h⟩

end Run

namespace PartSet

variable {s : PartSet} {p q : Part}

/-- The parts of the set in ascending order. -/
def toList (s : PartSet) : List Part := s.runs.toList.flatMap Run.toList

/-- The finite set that a part set stands for. -/
def members (s : PartSet) : Finset Part := s.toList.toFinset

@[simp] lemma mem_toList : p ∈ s.toList ↔ p ∈ s := by
  simp [toList, mem_def]

@[simp] lemma mem_members : p ∈ s.members ↔ p ∈ s := by
  simp [members]

lemma pairwise_toList (h : Canonical s.runs.toList) : s.toList.Pairwise (· < ·) := by
  refine List.pairwise_flatMap.2 ⟨fun r _ => r.pairwise_toList, h.2.imp ?_⟩
  intro a b hab p hp q hq
  have hp := Run.mem_iff_toNat.1 (Run.mem_toList.1 hp)
  have hq := Run.mem_iff_toNat.1 (Run.mem_toList.1 hq)
  rw [UInt32.lt_iff_toNat_lt]
  rw [separated_iff] at hab
  omega

lemma nodup_toList (h : Canonical s.runs.toList) : s.toList.Nodup := by
  refine (pairwise_toList h).imp ?_
  rintro p _ hlt rfl
  exact UInt32.lt_irrefl p hlt

lemma length_toList (s : PartSet) : s.toList.length = s.size := by
  rw [toList, size]
  induction s.runs.toList with
  | nil => rfl
  | cons r rs ih => simp [Run.total, ih]

lemma card_members (h : Canonical s.runs.toList) : s.members.card = s.size := by
  rw [members, List.toFinset_card_of_nodup (nodup_toList h), length_toList]

lemma isEmpty_eq_true_iff (h : Canonical s.runs.toList) :
    s.isEmpty = true ↔ s.members = ∅ := by
  have hruns : s.isEmpty = true ↔ s.runs.toList = [] := by
    simp [isEmpty]
  rw [hruns, Finset.eq_empty_iff_forall_notMem]
  constructor
  · intro hnil p hp
    obtain ⟨r, hr, -⟩ := mem_members.1 hp
    simp [hnil] at hr
  · intro hempty
    refine List.eq_nil_iff_forall_not_mem.2 fun r hr => hempty r.first ?_
    exact mem_members.2 ⟨r, hr, Run.nonempty (h.1 r hr)⟩

/-! ## Arrivals -/

section Insert

variable (h : Canonical s.runs.toList)
include h

lemma insert_answer_eq_true_iff (p : Part) : (s.insert p).answer = true ↔ p ∉ s := by
  by_cases hp : p ∈ s
  · simp [insert_of_mem h hp, hp]
  · obtain ⟨before, left, right, beyond, pl⟩ := exists_place h hp
    simp [(insert_of_place h hp pl).1, hp]

lemma canonical_insert (p : Part) : Canonical (s.insert p).after.runs.toList := by
  by_cases hp : p ∈ s
  · rw [insert_of_mem h hp]
    exact h
  · obtain ⟨before, left, right, beyond, pl⟩ := exists_place h hp
    rw [(insert_of_place h hp pl).2.1]
    exact pl.canonical h

lemma mem_insert_iff : q ∈ (s.insert p).after ↔ q = p ∨ q ∈ s := by
  by_cases hp : p ∈ s
  · rw [insert_of_mem h hp, Step.still_after]
    exact ⟨.inr, fun hq => hq.elim (fun e => e ▸ hp) id⟩
  · obtain ⟨before, left, right, beyond, pl⟩ := exists_place h hp
    rw [mem_def, (insert_of_place h hp pl).2.1]
    exact pl.exists_mem_iff h

lemma members_insert (p : Part) : (s.insert p).after.members = Insert.insert p s.members := by
  ext q
  rw [mem_members, mem_insert_iff h, Finset.mem_insert, mem_members]

end Insert

lemma insertSigned_of_neg {v : Int} (h : v < 0) :
    s.insertSigned v = .still (.error (.negative v)) s := if_pos h

lemma insertSigned_of_lt {v : Int} (h : Part.last.toNat < v) :
    s.insertSigned v = .still (.error (.tooLarge v Part.last.toNat)) s := by
  rw [insertSigned, if_neg (by omega), if_pos h]

lemma insertSigned_of_le {v : Int} (hpos : 0 ≤ v) (hle : v ≤ Part.last.toNat) :
    s.insertSigned v = (s.insert (UInt32.ofNat v.toNat)).map .ok := by
  rw [insertSigned, if_neg (by omega), if_neg (by omega)]

lemma insertSigned_toNat (p : Part) : s.insertSigned p.toNat = (s.insert p).map .ok := by
  have hle : p.toNat ≤ Part.last.toNat := Nat.le_of_lt_succ (Part.toNat_lt p)
  rw [insertSigned_of_le (Int.natCast_nonneg _) (Int.ofNat_le.2 hle), Int.toNat_natCast,
    UInt32.ofNat_toNat]

/-! ## Losses -/

section Remove

variable (h : Canonical s.runs.toList)
include h

lemma remove_answer_eq_true_iff (p : Part) : (s.remove p).answer = true ↔ p ∈ s := by
  by_cases hp : p ∈ s
  · obtain ⟨before, r, after, holder⟩ := exists_holder h hp
    simp [(remove_of_holder holder).1, hp]
  · simp [remove_of_not_mem h hp, hp]

lemma canonical_remove (p : Part) : Canonical (s.remove p).after.runs.toList := by
  by_cases hp : p ∈ s
  · obtain ⟨before, r, after, holder⟩ := exists_holder h hp
    rw [(remove_of_holder holder).2.1]
    exact holder.canonical h
  · rw [remove_of_not_mem h hp]
    exact h

lemma mem_remove_iff : q ∈ (s.remove p).after ↔ q ∈ s ∧ q ≠ p := by
  by_cases hp : p ∈ s
  · obtain ⟨before, r, after, holder⟩ := exists_holder h hp
    rw [mem_def, (remove_of_holder holder).2.1]
    exact holder.exists_mem_iff h
  · rw [remove_of_not_mem h hp, Step.still_after]
    exact ⟨fun hq => ⟨hq, fun e => hp (e ▸ hq)⟩, And.left⟩

lemma members_remove (p : Part) : (s.remove p).after.members = s.members.erase p := by
  ext q
  rw [mem_members, mem_remove_iff h, Finset.mem_erase, mem_members, and_comm]

/-- A part that is lost leaves a gap in the list of the parts. -/
lemma toList_remove {before after : List Part} (hs : s.toList = before ++ p :: after) :
    (s.remove p).after.toList = before ++ after := by
  have hsorted := pairwise_toList h
  rw [hs] at hsorted
  refine eq_append_of_mem_iff hsorted (pairwise_toList (canonical_remove h p)) fun q => ?_
  rw [mem_toList, mem_remove_iff h, ← mem_toList, hs]

end Remove

end PartSet

end IntWalk
