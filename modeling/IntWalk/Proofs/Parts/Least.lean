import IntWalk.Parts.Walk
import IntWalk.Proofs.Parts.Members

/-!
# The least part from a bound on

A walk over a part set looks for the least part that is not below a bound.  In a
canonical set the search finds it, wherever the bound lies.
-/

namespace IntWalk.PartSet

variable {s : PartSet} {l p : Part} {before after : List Run}

/-- The part that the search gives for the run it finds. -/
lemma leastFrom_eq (cut : Cut s l before after) :
    s.leastFrom l = after.head?.map fun r => if r.first < l then l else r.first := by
  rw [leastFrom, cut.getElem?]

lemma leastFrom_eq_none_iff (h : Canonical s.runs.toList) :
    s.leastFrom l = none ↔ ∀ p ∈ s, p < l := by
  obtain ⟨before, after, cut⟩ := exists_cut h l
  rw [leastFrom_eq cut, Option.map_eq_none_iff, List.head?_eq_none_iff]
  constructor
  · rintro rfl p ⟨r, hr, hp⟩
    rw [cut.runs, List.append_nil] at hr
    have := cut.ends r hr
    have := (Run.mem_iff_toNat.1 hp).2
    rw [UInt32.lt_iff_toNat_lt]
    omega
  · intro hall
    refine List.eq_nil_iff_forall_not_mem.2 fun r hr => ?_
    -- the last part of a run that reaches the bound is not below it
    have hmem : r ∈ s.runs.toList := by
      rw [cut.runs]
      exact List.mem_append_right _ hr
    have hlt := UInt32.lt_iff_toNat_lt.1 (hall r.last ⟨r, hmem, h.1 r hmem, UInt32.le_refl _⟩)
    have := cut.reaches r hr
    omega

lemma least_of_leastFrom (h : Canonical s.runs.toList) (hp : s.leastFrom l = some p) :
    p ∈ s ∧ l ≤ p ∧ ∀ q ∈ s, l ≤ q → p ≤ q := by
  obtain ⟨before, after, cut⟩ := exists_cut h l
  rw [leastFrom_eq cut, Option.map_eq_some_iff] at hp
  obtain ⟨r, hhead, rfl⟩ := hp
  obtain ⟨rest, rfl⟩ := List.head?_eq_some_iff.1 hhead
  have hc := h
  rw [cut.runs, Canonical.append_iff, Canonical.cons_iff] at hc
  obtain ⟨-, ⟨hr, -, hrest⟩, -⟩ := hc
  have hr := UInt32.le_iff_toNat_le.1 hr
  have hreach := cut.reaches r (List.mem_cons_self ..)
  -- the part found is the greater of the bound and the first part of the run
  have hfound : ∃ n, n = (if r.first < l then l else r.first).toNat ∧
      r.first.toNat ≤ n ∧ l.toNat ≤ n ∧ (n = r.first.toNat ∨ n = l.toNat) := by
    refine ⟨_, rfl, ?_⟩
    split
    · next hlt =>
      have := UInt32.lt_iff_toNat_lt.1 hlt
      omega
    · next hlt =>
      have := UInt32.le_iff_toNat_le.1 (UInt32.not_lt.1 hlt)
      omega
  obtain ⟨n, hn, hfirst, hl, hcases⟩ := hfound
  rw [UInt32.le_iff_toNat_le, ← hn]
  refine ⟨⟨r, ?_, Run.mem_iff_toNat.2 ⟨hn ▸ hfirst, by omega⟩⟩, hl, ?_⟩
  · rw [cut.runs]
    exact List.mem_append_right _ (List.mem_cons_self ..)
  · rintro q ⟨r', hr', hq⟩ hlq
    have hq := Run.mem_iff_toNat.1 hq
    have hlq := UInt32.le_iff_toNat_le.1 hlq
    rw [UInt32.le_iff_toNat_le, ← hn]
    rw [cut.runs, List.mem_append, List.mem_cons] at hr'
    rcases hr' with hr' | rfl | hr'
    · have := cut.ends r' hr'
      omega
    · omega
    · have hsep : r.last.toNat + 1 < r'.first.toNat := hrest r' hr'
      omega

/-- The search finds the least part that is not below the bound. -/
theorem leastFrom_eq_some_iff (h : Canonical s.runs.toList) :
    s.leastFrom l = some p ↔ p ∈ s ∧ l ≤ p ∧ ∀ q ∈ s, l ≤ q → p ≤ q := by
  constructor
  · exact least_of_leastFrom h
  · rintro ⟨hp, hlp, hleast⟩
    cases hfound : s.leastFrom l with
    | none => exact absurd ((leastFrom_eq_none_iff h).1 hfound p hp) (UInt32.not_lt.2 hlp)
    | some p' =>
      obtain ⟨hp', hlp', hleast'⟩ := least_of_leastFrom h hfound
      rw [UInt32.le_antisymm (hleast p' hp' hlp') (hleast' p hp hlp)]

end IntWalk.PartSet
