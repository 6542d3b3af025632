import IntWalk.Proofs.Parts.Canonical

/-!
# What a loss does

A part that is there is held by one run, and what is left of that run takes its
place (`remove_of_holder`): nothing, a shorter run or two runs.  The list of runs
stays canonical and holds just that part less.
-/

namespace IntWalk

namespace Run

variable {p q : Part} {r x : Run}

lemma toNat_sub_one (h : r.first < p) : (p - 1).toNat = p.toNat - 1 := by
  have hlt := UInt32.lt_iff_toNat_lt.1 h
  have hle : (1 : UInt32) ≤ p := UInt32.le_iff_toNat_le.2 (by rw [UInt32.toNat_one]; omega)
  rw [UInt32.toNat_sub_of_le p 1 hle, UInt32.toNat_one]

lemma toNat_add_one (h : p < r.last) : (p + 1).toNat = p.toNat + 1 := by
  refine Part.toNat_add_one ?_
  rintro rfl
  have hlt := UInt32.lt_iff_toNat_lt.1 h
  have := Part.toNat_lt r.last
  rw [Part.toNat_last] at hlt
  omega

/-- What is left of a run is on either side of the part taken out. -/
lemma mem_without_iff : x ∈ r.without p ↔
    (r.first < p ∧ x = ⟨r.first, p - 1⟩) ∨ (p < r.last ∧ x = ⟨p + 1, r.last⟩) := by
  unfold without
  split <;> split <;> simp [*]

lemma length_without (r : Run) (p : Part) : (r.without p).length =
    (if r.first < p then 1 else 0) + if p < r.last then 1 else 0 := by
  rw [without, List.length_append, apply_ite List.length, apply_ite List.length]
  rfl

/-- What is left of a run stays within it and holds something. -/
lemma within_of_mem_without (hx : x ∈ r.without p) (hp : p ∈ r) :
    r.first.toNat ≤ x.first.toNat ∧ x.first.toNat ≤ x.last.toNat ∧
      x.last.toNat ≤ r.last.toNat := by
  obtain ⟨hfirst, hlast⟩ := mem_iff_toNat.1 hp
  rcases mem_without_iff.1 hx with ⟨hlt, rfl⟩ | ⟨hlt, rfl⟩
  · have hsub := toNat_sub_one hlt
    have := UInt32.lt_iff_toNat_lt.1 hlt
    exact ⟨Nat.le_refl _, by simp only; omega, by simp only; omega⟩
  · have hadd := toNat_add_one hlt
    have := UInt32.lt_iff_toNat_lt.1 hlt
    exact ⟨by simp only; omega, by simp only; omega, Nat.le_refl _⟩

/-- What is left of a run holds all its parts but the one taken out. -/
lemma exists_mem_without_iff (hp : p ∈ r) : (∃ x ∈ r.without p, q ∈ x) ↔ q ∈ r ∧ q ≠ p := by
  obtain ⟨hfirst, hlast⟩ := mem_iff_toNat.1 hp
  have hne : q ≠ p ↔ q.toNat ≠ p.toNat := not_congr UInt32.toNat_inj.symm
  simp only [mem_without_iff, hne, mem_iff_toNat]
  constructor
  · rintro ⟨x, ⟨hlt, rfl⟩ | ⟨hlt, rfl⟩, hq⟩
    · have hsub := toNat_sub_one hlt
      have := UInt32.lt_iff_toNat_lt.1 hlt
      simp only at hq
      omega
    · have hadd := toNat_add_one hlt
      have := UInt32.lt_iff_toNat_lt.1 hlt
      simp only at hq
      omega
  · rintro ⟨⟨hqfirst, hqlast⟩, hne⟩
    rcases Nat.lt_or_gt_of_ne hne with hlt | hgt
    · have hlower : r.first < p := UInt32.lt_iff_toNat_lt.2 (by omega)
      have hsub := toNat_sub_one hlower
      exact ⟨_, .inl ⟨hlower, rfl⟩, hqfirst, by simp only; omega⟩
    · have hupper : p < r.last := UInt32.lt_iff_toNat_lt.2 (by omega)
      have hadd := toNat_add_one hupper
      exact ⟨_, .inr ⟨hupper, rfl⟩, by simp only; omega, hqlast⟩

/-- The two sides of a part taken out do not touch. -/
lemma canonical_without (hp : p ∈ r) : PartSet.Canonical (r.without p) := by
  refine ⟨fun x hx => UInt32.le_iff_toNat_le.2 (within_of_mem_without hx hp).2.1, ?_⟩
  by_cases hlower : r.first < p
  · by_cases hupper : p < r.last
    · have hsub := toNat_sub_one hlower
      have hadd := toNat_add_one hupper
      have := UInt32.lt_iff_toNat_lt.1 hlower
      rw [without, if_pos hlower, if_pos hupper]
      refine List.pairwise_pair.2 ?_
      show (p - 1).toNat + 1 < (p + 1).toNat
      omega
    · simp [without, hlower, hupper]
  · by_cases hupper : p < r.last
    · simp [without, hlower, hupper]
    · simp [without, hlower, hupper]

end Run

namespace PartSet

variable {s : PartSet} {p q : Part} {r : Run} {before after rest : List Run}

/-- Runs within a run can take its place. -/
lemma Canonical.replace (h : Canonical (before ++ r :: after)) (hrest : Canonical rest)
    (within : ∀ x ∈ rest, r.first.toNat ≤ x.first.toNat ∧ x.last.toNat ≤ r.last.toNat) :
    Canonical (before ++ (rest ++ after)) := by
  obtain ⟨hb, hra, hcross⟩ := append_iff.1 h
  obtain ⟨-, ha, hsep⟩ := cons_iff.1 hra
  refine append_iff.2 ⟨hb, append_iff.2 ⟨hrest, ha, fun x hx b hb => ?_⟩, fun a ha x hx => ?_⟩
  · have hrb : Separated r b := hsep b hb
    have := within x hx
    rw [separated_iff] at hrb ⊢
    omega
  · rcases List.mem_append.1 hx with hx | hx
    · have har : Separated a r := hcross a ha r (by simp)
      have := within x hx
      rw [separated_iff] at har ⊢
      omega
    · exact hcross a ha x (List.mem_cons_of_mem r hx)

/-- The run that holds a part, among the others. -/
structure Holder (s : PartSet) (p : Part) (before : List Run) (r : Run) (after : List Run) :
    Prop where
  runs : s.runs.toList = before ++ r :: after
  index : s.firstReaching p = before.length
  mem : p ∈ r

/-- A part that is there has a holder. -/
lemma exists_holder (h : Canonical s.runs.toList) (hp : p ∈ s) :
    ∃ before r after, Holder s p before r after := by
  obtain ⟨before, after, cut⟩ := exists_cut h p
  obtain ⟨r, hr, hle⟩ := (cut.mem_iff h).1 hp
  obtain ⟨rest, rfl⟩ := List.head?_eq_some_iff.1 hr
  refine ⟨before, r, rest, cut.runs, cut.index, hle, ?_⟩
  exact UInt32.le_iff_toNat_le.2 (cut.reaches r (by simp))

namespace Holder

variable (holder : Holder s p before r after)
include holder

/-- The runs without the part are canonical. -/
lemma canonical (h : Canonical s.runs.toList) :
    Canonical (before ++ (r.without p ++ after)) := by
  rw [holder.runs] at h
  refine h.replace (Run.canonical_without holder.mem) fun x hx => ?_
  have hin := Run.within_of_mem_without hx holder.mem
  exact ⟨hin.1, hin.2.2⟩

/-- The runs without the part hold what they held before and not the part. -/
lemma exists_mem_iff (h : Canonical s.runs.toList) :
    (∃ x ∈ before ++ (r.without p ++ after), q ∈ x) ↔ q ∈ s ∧ q ≠ p := by
  -- no other run holds the part
  have others : ∀ x, x ∈ before ∨ x ∈ after → q ∈ x → q ≠ p := by
    rintro x hx hq rfl
    rw [holder.runs, Canonical.append_iff, Canonical.cons_iff] at h
    have hr := Run.mem_iff_toNat.1 holder.mem
    have hq := Run.mem_iff_toNat.1 hq
    rcases hx with hx | hx
    · have hsep : Separated x r := h.2.2 x hx r (by simp)
      rw [separated_iff] at hsep
      omega
    · have hsep : Separated r x := h.2.1.2.2 x hx
      rw [separated_iff] at hsep
      omega
  have left := Run.exists_mem_without_iff (q := q) holder.mem
  rw [mem_def, holder.runs]
  constructor
  · rintro ⟨x, hx, hq⟩
    rcases List.mem_append.1 hx with hx | hx
    · exact ⟨⟨x, List.mem_append_left _ hx, hq⟩, others x (.inl hx) hq⟩
    · rcases List.mem_append.1 hx with hx | hx
      · have := left.1 ⟨x, hx, hq⟩
        exact ⟨⟨r, by simp, this.1⟩, this.2⟩
      · exact ⟨⟨x, by simp [hx], hq⟩, others x (.inr hx) hq⟩
  · rintro ⟨⟨x, hx, hq⟩, hne⟩
    rcases List.mem_append.1 hx with hx | hx
    · exact ⟨x, List.mem_append_left _ hx, hq⟩
    · rcases List.mem_cons.1 hx with rfl | hx
      · obtain ⟨y, hy, hq⟩ := left.2 ⟨hq, hne⟩
        exact ⟨y, by simp [hy], hq⟩
      · exact ⟨x, by simp [hx], hq⟩

end Holder

/-! ## The request -/

/-- The search finds no run for a part that is missing. -/
lemma filter_eq_none_of_not_mem (h : Canonical s.runs.toList) (hp : p ∉ s) :
    s.runs[s.firstReaching p]?.filter (·.first ≤ p) = none := by
  obtain ⟨before, after, cut⟩ := exists_cut h p
  rw [cut.getElem?]
  refine Option.filter_eq_none_iff.2 fun r hr hle => hp ?_
  exact (cut.mem_iff h).2 ⟨r, hr, of_decide_eq_true hle⟩

lemma remove_of_not_mem (h : Canonical s.runs.toList) (hp : p ∉ s) :
    s.remove p = .still false s := by
  rw [remove, filter_eq_none_of_not_mem h hp]

/-- The search finds the holder of a part. -/
lemma Holder.filter_eq_some (holder : Holder s p before r after) :
    s.runs[s.firstReaching p]?.filter (·.first ≤ p) = some r := by
  refine Option.filter_eq_some_iff.2 ⟨?_, decide_eq_true holder.mem.1⟩
  rw [← Array.getElem?_toList, holder.runs, holder.index]
  simp

/-- A part that is lost is taken out of its holder. -/
lemma remove_of_holder (holder : Holder s p before r after) :
    (s.remove p).answer = true ∧
      (s.remove p).after.runs.toList = before ++ (r.without p ++ after) ∧
      (s.remove p).events =
        if (r.without p).length = 2 then [.split p (s.remove p).after.runs.size] else [] := by
  have htake : s.runs.toList.take (s.firstReaching p) = before := by
    rw [holder.runs, holder.index, List.take_left' rfl]
  have hdrop : s.runs.toList.drop (s.firstReaching p + 1) = after := by
    rw [holder.runs, holder.index, List.append_cons]
    exact List.drop_left' (by simp)
  rw [remove, holder.filter_eq_some]
  refine ⟨rfl, ?_, rfl⟩
  rw [toList_splice, htake, hdrop, List.append_assoc]

/-! ## The cut -/

/-- Both neighbours of the part are there. -/
def Enclosed (s : PartSet) (p : Part) : Prop :=
  (∃ q ∈ s, q.toNat + 1 = p.toNat) ∧ ∃ q ∈ s, p.toNat + 1 = q.toNat

namespace Holder

variable (holder : Holder s p before r after) (h : Canonical s.runs.toList)
include holder h

omit h in
lemma mem_runs : r ∈ s.runs.toList := by
  rw [holder.runs]
  exact List.mem_append_right _ (List.mem_cons_self ..)

/-- The part right before is there just if the holder begins earlier. -/
lemma first_lt_iff : r.first < p ↔ ∃ q ∈ s, q.toNat + 1 = p.toNat := by
  have hp := Run.mem_iff_toNat.1 holder.mem
  constructor
  · intro hlt
    have hsub := Run.toNat_sub_one hlt
    rw [UInt32.lt_iff_toNat_lt] at hlt
    have hq : p - 1 ∈ r := Run.mem_iff_toNat.2 (by omega)
    exact ⟨p - 1, ⟨r, holder.mem_runs, hq⟩, by omega⟩
  · rintro ⟨q, hq, hqp⟩
    have hmem := h.mem_of_near holder.mem_runs holder.mem hq (by omega) (by omega)
    have hq := Run.mem_iff_toNat.1 hmem
    rw [UInt32.lt_iff_toNat_lt]
    omega

/-- The part right after is there just if the holder ends later. -/
lemma lt_last_iff : p < r.last ↔ ∃ q ∈ s, p.toNat + 1 = q.toNat := by
  have hp := Run.mem_iff_toNat.1 holder.mem
  constructor
  · intro hlt
    have hadd := Run.toNat_add_one hlt
    rw [UInt32.lt_iff_toNat_lt] at hlt
    have hq : p + 1 ∈ r := Run.mem_iff_toNat.2 (by omega)
    exact ⟨p + 1, ⟨r, holder.mem_runs, hq⟩, by omega⟩
  · rintro ⟨q, hq, hpq⟩
    have hmem := h.mem_of_near holder.mem_runs holder.mem hq (by omega) (by omega)
    have hq := Run.mem_iff_toNat.1 hmem
    rw [UInt32.lt_iff_toNat_lt]
    omega

lemma enclosed_iff : s.Enclosed p ↔ r.first < p ∧ p < r.last :=
  (and_congr (holder.first_lt_iff h) (holder.lt_last_iff h)).symm

/-- The loss of a part cuts a run just if both its neighbours are there. -/
lemma events : s.Enclosed p ∧ (s.remove p).events = [.split p (s.remove p).after.runs.size] ∨
    ¬ s.Enclosed p ∧ (s.remove p).events = [] := by
  rw [holder.enclosed_iff h, (remove_of_holder holder).2.2, Run.without]
  by_cases hlower : r.first < p <;> by_cases hupper : p < r.last <;> simp [hlower, hupper]

end Holder

end PartSet

end IntWalk
