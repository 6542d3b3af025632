import IntWalk.Proofs.Cursor.Tracks

/-!
# The least set that holds some values

A set made out of a list is sized by the greatest of the values and then filled with all of them.
Whatever has room for the greatest has room for the others, so nothing is refused while it is
filled; only a greatest value after which no number is left leaves no capacity.  What comes of it
holds the values and no room that they do not need (`Holds`), and so depends neither on their
order nor on their repetition.
-/

namespace IntWalk.BitSet

variable {s t : BitSet} {values others : List Nat} {largest : Nat}

/-! ## Filling -/

/-- The set after the insertions of the values, one by one. -/
def filled (values : List Nat) (s : BitSet) : BitSet :=
  (Step.runAll ask (values.map .insert) s).after

lemma filled_cons (v : Nat) (vs : List Nat) (s : BitSet) :
    filled (v :: vs) s = filled vs (s.insert v).after := rfl

lemma accurate_filled (h : s.Accurate) (values : List Nat) : (filled values s).Accurate :=
  Step.after_runAll (P := Accurate) (fun r _ h => accurate_ask h r) _ h

lemma capacity_filled (values : List Nat) (s : BitSet) :
    (filled values s).capacity = s.capacity := by
  induction values generalizing s with
  | nil => rfl
  | cons v vs ih => rw [filled_cons, ih, capacity_insert]

lemma head_insert (s : BitSet) (v : Nat) : (s.insert v).after.head = s.head := by
  rw [insert]
  split <;> rfl

lemma head_filled (values : List Nat) (s : BitSet) : (filled values s).head = s.head := by
  induction values generalizing s with
  | nil => rfl
  | cons v vs ih => rw [filled_cons, ih, head_insert]

/-- Values that have room are all inserted. -/
lemma insertAll_eq (room : ∀ v ∈ values, v < s.capacity) :
    insertAll values s = .ok (filled values s) := by
  induction values generalizing s with
  | nil => rfl
  | cons v vs ih =>
    obtain ⟨hv, hvs⟩ := List.forall_mem_cons.1 room
    rw [insertAll, insert_answer hv]
    refine ih fun u hu => ?_
    rw [capacity_insert]
    exact hvs u hu

lemma mem_filled (room : ∀ v ∈ values, v < s.capacity) {v : Nat} :
    v ∈ filled values s ↔ v ∈ values ∨ v ∈ s := by
  induction values generalizing s with
  | nil => simp [filled, Step.runAll]
  | cons u vs ih =>
    obtain ⟨hu, hvs⟩ := List.forall_mem_cons.1 room
    rw [filled_cons, ih fun w hw => by rw [capacity_insert]; exact hvs w hw, ← mem_members,
      members_insert hu, Finset.mem_insert, mem_members, List.mem_cons, or_left_comm, or_assoc]

/-! ## The least set -/

/-- The set holds just the values, each counted once, and has room up to the greatest of them. -/
structure Holds (values : List Nat) (s : BitSet) : Prop where
  capacity : ∀ n, s.capacity ≤ n ↔ ∀ v ∈ values, v < n
  contains : ∀ v, s.contains v = true ↔ v ∈ values
  size : s.size = values.toFinset.card
  head : s.head = 0

namespace Holds

lemma accurate (h : Holds values s) : s.Accurate := by
  have hmembers : s.members = values.toFinset := by
    ext v
    rw [mem_members, ← contains_eq_true_iff, h.contains, List.mem_toFinset]
  rw [Accurate, h.size, hmembers]

lemma eq_of_mem_iff (h : Holds values s) (h' : Holds others t)
    (hmem : ∀ v, v ∈ values ↔ v ∈ others) : s = t := by
  have hcapacity : s.capacity = t.capacity := by
    refine Nat.le_antisymm ?_ ?_
    · exact (h.capacity _).2 fun v hv => (h'.capacity _).1 le_rfl v ((hmem v).1 hv)
    · exact (h'.capacity _).2 fun v hv => (h.capacity _).1 le_rfl v ((hmem v).2 hv)
  refine h.accurate.ext h'.accurate hcapacity (h.head.trans h'.head.symm) fun v => ?_
  rw [← contains_eq_true_iff, h.contains, hmem, ← h'.contains, contains_eq_true_iff]

end Holds

/-! ## The capacity -/

lemma capacity_ofCapacity (c : Capacity) : (ofCapacity c).capacity = c.count := rfl

lemma mem_filled_ofCapacity {c : Capacity} (room : ∀ v ∈ values, v < c.count) {v : Nat} :
    v ∈ filled values (ofCapacity c) ↔ v ∈ values := by
  rw [mem_filled room, or_iff_left]
  simp [ofCapacity, mem_def]

lemma count_of_ofCount {n : Nat} {c : Capacity} (hc : Capacity.ofCount n = .ok c) :
    c.count = n := by
  rw [Capacity.ofCount] at hc
  split at hc
  · split at hc
    · cases hc
      rfl
    · cases hc
  · cases hc

lemma exists_ofCount {n : Nat} (hpos : 0 < n) (hfits : n < UInt64.size) :
    ∃ c, Capacity.ofCount n = .ok c :=
  ⟨⟨n, hpos, hfits⟩, by rw [Capacity.ofCount, dif_pos hpos, dif_pos hfits]⟩

section Greatest

variable (hmem : largest ∈ values) (hle : ∀ v ∈ values, v ≤ largest) {c : Capacity}
variable (hc : Capacity.ofCount (largest + 1) = .ok c)
include hle hc

lemma lt_capacity_of_le : ∀ v ∈ values, v < (ofCapacity c).capacity := by
  intro v hv
  rw [capacity_ofCapacity, count_of_ofCount hc]
  exact Nat.lt_succ_of_le (hle v hv)

include hmem

/-- A set that has room just for the values up to the greatest holds them once it is filled. -/
lemma holds_filled : Holds values (filled values (ofCapacity c)) := by
  have hfilled := fun v => mem_filled_ofCapacity (lt_capacity_of_le hle hc) (v := v)
  refine ⟨fun n => ?_, fun v => ?_, ?_, head_filled _ _⟩
  · rw [capacity_filled, capacity_ofCapacity, count_of_ofCount hc]
    exact ⟨fun hn v hv => Nat.lt_of_lt_of_le (Nat.lt_succ_of_le (hle v hv)) hn,
      fun h => h largest hmem⟩
  · rw [contains_eq_true_iff, hfilled]
  · have hmembers : (filled values (ofCapacity c)).members = values.toFinset := by
      ext v
      rw [mem_members, hfilled, List.mem_toFinset]
    rw [accurate_filled (accurate_ofCapacity c) values, hmembers]

lemma ofList_eq_filled : ofList values = .ok (filled values (ofCapacity c)) := by
  have hmax : values.max? = some largest := List.max?_eq_some_iff.2 ⟨hmem, hle⟩
  have hlargest : Capacity.ofLargest largest = .ok c := hc
  simp only [ofList, hmax, hlargest]
  exact insertAll_eq (lt_capacity_of_le hle hc)

end Greatest

lemma holds_empty : Holds [] empty where
  capacity n := by simp [empty]
  contains v := by simp [contains, empty]
  size := rfl
  head := rfl

/-- Below the greatest number of all, the values have a set that holds them. -/
lemma exists_holds (h : ∀ v ∈ values, v < largestValue) :
    ∃ s, ofList values = .ok s ∧ Holds values s := by
  cases hmax : values.max? with
  | none =>
    rw [List.max?_eq_none_iff.1 hmax]
    exact ⟨empty, rfl, holds_empty⟩
  | some largest =>
    obtain ⟨hmem, hle⟩ := List.max?_eq_some_iff.1 hmax
    obtain ⟨c, hc⟩ := exists_ofCount (Nat.succ_pos largest) (Nat.add_lt_of_lt_sub (h largest hmem))
    exact ⟨_, ofList_eq_filled hmem hle hc, holds_filled hmem hle hc⟩

/-- The greatest number of all leaves no capacity. -/
lemma ofList_of_largestValue (hmem : largestValue ∈ values)
    (h : ∀ v ∈ values, v < UInt64.size) :
    ofList values = .error (.badCapacity (.noRoom largestValue)) := by
  have hmax : values.max? = some largestValue :=
    List.max?_eq_some_iff.2 ⟨hmem, fun v hv => Nat.le_sub_one_of_lt (h v hv)⟩
  have hlargest : Capacity.ofLargest largestValue =
    .error (.badCapacity (.noRoom largestValue)) := rfl
  simp only [ofList, hmax, hlargest]

/-! ## The same values -/

section Values

variable (h : ∀ v ∈ values, v < UInt64.size)
include h

lemma lt_largestValue_of_not_mem (hmem : largestValue ∉ values) :
    ∀ v ∈ values, v < largestValue := by
  intro v hv
  have hne : v ≠ largestValue := fun e => hmem (e ▸ hv)
  exact Nat.lt_of_le_of_ne (Nat.le_sub_one_of_lt (h v hv)) hne

/-- Neither the order of the values nor their repetition matters. -/
lemma ofList_eq_of_mem_iff (hsame : ∀ v, v ∈ others ↔ v ∈ values) :
    ofList others = ofList values := by
  have h' : ∀ v ∈ others, v < UInt64.size := fun v hv => h v ((hsame v).1 hv)
  by_cases hmem : largestValue ∈ values
  · rw [ofList_of_largestValue hmem h, ofList_of_largestValue ((hsame _).2 hmem) h']
  · obtain ⟨s, hs, hholds⟩ := exists_holds (lt_largestValue_of_not_mem h hmem)
    obtain ⟨t, ht, hholds'⟩ := exists_holds
      (lt_largestValue_of_not_mem h' fun hv => hmem ((hsame _).1 hv))
    rw [hs, ht, hholds'.eq_of_mem_iff hholds hsame]

end Values

/-- A list of 64-bit numbers makes a set unless it has the greatest of them, and then this is what
is wrong.  The set holds the values and no room beyond the greatest; it is what comes of inserting
them one by one into a set of that capacity.  The same values make the same set in any order and
any number, and so do the members of a set, whether they are listed or read from a walk. -/
theorem ofList_holds_values (values : List Nat) (h : ∀ v ∈ values, v < UInt64.size) :
    (largestValue ∈ values → ofList values = .error (.badCapacity (.noRoom largestValue))) ∧
    (largestValue ∉ values → ∃ s, ofList values = .ok s ∧
      (values = [] → s.capacity = 0) ∧
      (∀ largest ∈ values, (∀ v ∈ values, v ≤ largest) → s.capacity = largest + 1 ∧
        ∃ c, Capacity.ofCount (largest + 1) = .ok c ∧ s = filled values (ofCapacity c)) ∧
      (∀ v, s.contains v = true ↔ v ∈ values) ∧ s.size = values.toFinset.card ∧
      ofList s.toList = .ok s ∧ ofList (Cursor.drain s.walk).answer = .ok s) ∧
    ∀ others, (∀ v, v ∈ others ↔ v ∈ values) → ofList others = ofList values := by
  refine ⟨fun hmem => ofList_of_largestValue hmem h, fun hmem => ?_,
    fun others => ofList_eq_of_mem_iff h⟩
  obtain ⟨s, hs, hholds⟩ := exists_holds (lt_largestValue_of_not_mem h hmem)
  have hlist : ofList s.toList = .ok s := by
    rw [ofList_eq_of_mem_iff h fun v => ?_, hs]
    rw [mem_toList, ← contains_eq_true_iff, hholds.contains]
  have hdrain : (Cursor.drain s.walk).answer = s.toList :=
    Walk.tracks.drain_answer (Walk.follows_walk s)
  refine ⟨s, hs, ?_, fun largest hlargest hle => ?_, hholds.contains, hholds.size, hlist, ?_⟩
  · rintro rfl
    exact Nat.le_zero.1 ((hholds.capacity 0).2 nofun)
  · obtain ⟨c, hc⟩ := exists_ofCount (Nat.succ_pos largest)
      (Nat.add_lt_of_lt_sub (lt_largestValue_of_not_mem h hmem largest hlargest))
    have heq : s = filled values (ofCapacity c) :=
      Except.ok.inj (hs.symm.trans (ofList_eq_filled hlargest hle hc))
    refine ⟨?_, c, hc, heq⟩
    rw [heq, capacity_filled, capacity_ofCapacity, count_of_ofCount hc]
  · rw [hdrain, hlist]

/-- Values with a repetition, in another order, and with the greatest number of all among them. -/
theorem ofList_holds_values_repeated :
    (∃ s, ofList [4, 0, 4] = .ok s ∧ s.capacity = 5 ∧ s.size = 2 ∧ ofList s.toList = .ok s) ∧
      ofList [0, 4, 0, 0] = ofList [4, 0, 4] ∧
      ofList [7, 18446744073709551615] =
        .error (.badCapacity (.noRoom 18446744073709551615)) := by
  obtain ⟨-, hset, hsame⟩ := ofList_holds_values [4, 0, 4] (by decide)
  obtain ⟨hfault, -, -⟩ := ofList_holds_values [7, 18446744073709551615] (by decide)
  obtain ⟨s, hs, -, hcapacity, -, hsize, hlist, -⟩ := hset (by decide)
  have hgreatest := (hcapacity 4 (by decide) (by decide)).1
  exact ⟨⟨s, hs, hgreatest, hsize, hlist⟩, hsame _ (by grind), hfault (by decide)⟩

end IntWalk.BitSet
