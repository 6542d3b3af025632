import IntWalk.Parts.Basic
import IntWalk.Proofs.Search

/-!
# Canonical lists of runs

In a canonical list the runs hold something, ascend and leave a part free between
each other.  For such a list the search is right: a part cuts the runs into those
that end before it and those that reach it (`exists_cut`), and only the first of
the latter can hold the part.
-/

namespace IntWalk

lemma Run.mem_iff_toNat {p : Part} {r : Run} :
    p ∈ r ↔ r.first.toNat ≤ p.toNat ∧ p.toNat ≤ r.last.toNat := by
  rw [Run.mem_def, UInt32.le_iff_toNat_le, UInt32.le_iff_toNat_le]

namespace PartSet

variable {s : PartSet} {p q : Part} {a b r : Run} {before after : List Run}

lemma separated_iff : Separated a b ↔ a.last.toNat + 1 < b.first.toNat := Iff.rfl

/-! ## Lists of runs -/

namespace Canonical

lemma nil : Canonical [] := ⟨by simp, List.Pairwise.nil⟩

lemma first_le_last {runs : List Run} (h : Canonical runs) (hr : r ∈ runs) :
    r.first.toNat ≤ r.last.toNat := UInt32.le_iff_toNat_le.1 (h.1 r hr)

lemma append_iff : Canonical (before ++ after) ↔
    Canonical before ∧ Canonical after ∧ ∀ a ∈ before, ∀ b ∈ after, Separated a b := by
  simp only [Canonical, List.mem_append, List.pairwise_append]
  constructor
  · rintro ⟨hle, hb, ha, hab⟩
    exact ⟨⟨fun r hr => hle r (.inl hr), hb⟩, ⟨fun r hr => hle r (.inr hr), ha⟩, hab⟩
  · rintro ⟨⟨hb, hb'⟩, ⟨ha, ha'⟩, hab⟩
    exact ⟨fun r hr => hr.elim (hb r) (ha r), hb', ha', hab⟩

lemma cons_iff : Canonical (r :: after) ↔
    r.first ≤ r.last ∧ Canonical after ∧ ∀ b ∈ after, Separated r b := by
  simp only [Canonical, List.mem_cons, List.pairwise_cons]
  constructor
  · rintro ⟨hle, hr, ha⟩
    exact ⟨hle r (.inl rfl), ⟨fun b hb => hle b (.inr hb), ha⟩, hr⟩
  · rintro ⟨hr, ⟨hle, ha⟩, hab⟩
    refine ⟨?_, hab, ha⟩
    rintro b (rfl | hb)
    · exact hr
    · exact hle b hb

/-- A run that is separated from the first of the others is separated from all. -/
lemma cons_cons (ha : a.first ≤ a.last) (hab : Separated a b) (h : Canonical (b :: after)) :
    Canonical (a :: b :: after) := by
  refine cons_iff.2 ⟨ha, h, fun c hc => ?_⟩
  obtain ⟨hb, -, hsep⟩ := cons_iff.1 h
  have hb := UInt32.le_iff_toNat_le.1 hb
  rcases List.mem_cons.1 hc with rfl | hc
  · exact hab
  · have hbc : Separated b c := hsep c hc
    rw [separated_iff] at hab hbc ⊢
    omega

/-- What lies no more than one part away from a part of a run is held by the same run, since a
part is missing between two runs. -/
lemma mem_of_near (h : Canonical s.runs.toList) (hr : r ∈ s.runs.toList) (hp : p ∈ r) (hq : q ∈ s)
    (hle : q.toNat ≤ p.toNat + 1) (hge : p.toNat ≤ q.toNat + 1) : q ∈ r := by
  obtain ⟨before, after, hruns⟩ := List.append_of_mem hr
  obtain ⟨x, hx, hqx⟩ := mem_def.1 hq
  have hp := Run.mem_iff_toNat.1 hp
  have hqx' := Run.mem_iff_toNat.1 hqx
  rw [hruns] at h hx
  rw [append_iff, cons_iff] at h
  rcases List.mem_append.1 hx with hx | hx
  · have hsep : Separated x r := h.2.2 x hx r (List.mem_cons_self ..)
    rw [separated_iff] at hsep
    omega
  · rcases List.mem_cons.1 hx with rfl | hx
    · exact hqx
    · have hsep : Separated r x := h.2.1.2.2 x hx
      rw [separated_iff] at hsep
      omega

end Canonical

/-! ## Where a part belongs -/

/-- The part cuts the runs into those that end before it and those that reach it. -/
structure Cut (s : PartSet) (p : Part) (before after : List Run) : Prop where
  runs : s.runs.toList = before ++ after
  index : s.firstReaching p = before.length
  ends : ∀ r ∈ before, r.last.toNat < p.toNat
  reaches : ∀ r ∈ after, p.toNat ≤ r.last.toNat

/-- Once a run reaches the part, the later runs reach it too. -/
lemma downward_of_canonical (h : Canonical s.runs.toList) (p : Part) :
    Downward (fun r => decide (r.last < p)) s.runs := by
  refine Downward.of_pairwise (h.2.imp_of_mem ?_)
  intro a b ha hb hab
  have hb := h.first_le_last hb
  simp only [decide_eq_true_eq, UInt32.lt_iff_toNat_lt]
  rw [separated_iff] at hab
  omega

/-- The search finds the cut. -/
lemma exists_cut (h : Canonical s.runs.toList) (p : Part) :
    ∃ before after, Cut s p before after := by
  obtain ⟨before, after, runs, index, ends, reaches⟩ :=
    exists_split_boundary (downward_of_canonical h p)
  refine ⟨before, after, runs, index.symm, fun r hr => ?_, fun r hr => ?_⟩
  · exact UInt32.lt_iff_toNat_lt.1 (of_decide_eq_true (ends r hr))
  · exact Nat.not_lt.1 fun hlt =>
      of_decide_eq_false (reaches r hr) (UInt32.lt_iff_toNat_lt.2 hlt)

namespace Cut

lemma getElem? (cut : Cut s p before after) : s.runs[s.firstReaching p]? = after.head? := by
  rw [← Array.getElem?_toList, cut.runs, cut.index, List.getElem?_append_right (Nat.le_refl _),
    Nat.sub_self, List.head?_eq_getElem?]

/-- Only the first run that reaches the part can hold it. -/
lemma mem_iff (h : Canonical s.runs.toList) (cut : Cut s p before after) :
    p ∈ s ↔ ∃ r, after.head? = some r ∧ r.first ≤ p := by
  rw [mem_def, cut.runs]
  constructor
  · rintro ⟨r, hr, hp⟩
    obtain ⟨hfirst, hlast⟩ := Run.mem_iff_toNat.1 hp
    rcases List.mem_append.1 hr with hr | hr
    · have := cut.ends r hr
      omega
    · cases after with
      | nil => simp at hr
      | cons a rest =>
        rcases List.mem_cons.1 hr with rfl | hr
        · exact ⟨r, rfl, hp.1⟩
        · -- a run further on begins after the first one has reached the part
          have hc := h
          rw [cut.runs, Canonical.append_iff, Canonical.cons_iff] at hc
          have hsep : Separated a r := hc.2.1.2.2 r hr
          have := cut.reaches a (by simp)
          rw [separated_iff] at hsep
          omega
  · rintro ⟨r, hhead, hfirst⟩
    have hr : r ∈ after := List.mem_of_head? hhead
    exact ⟨r, List.mem_append_right _ hr, hfirst, UInt32.le_iff_toNat_le.2 (cut.reaches r hr)⟩

end Cut

theorem contains_eq_true_iff (h : Canonical s.runs.toList) : s.contains p = true ↔ p ∈ s := by
  obtain ⟨before, after, cut⟩ := exists_cut h p
  rw [contains, cut.getElem?, cut.mem_iff h, Option.any_eq_true]
  constructor
  · rintro ⟨r, hr, hp⟩
    exact ⟨r, hr, (Run.contains_iff.1 hp).1⟩
  · rintro ⟨r, hr, hfirst⟩
    have reach := cut.reaches r (List.mem_of_head? hr)
    exact ⟨r, hr, Run.contains_iff.2 ⟨hfirst, UInt32.le_iff_toNat_le.2 reach⟩⟩

end PartSet

end IntWalk
