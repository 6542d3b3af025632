import IntWalk.Proofs.Parts.Missing
import Mathlib.Data.Set.Basic

/-!
# Maximal runs

A set of numbers falls into maximal runs, stretches of consecutive members that no member follows
and none precedes.  Stretches that ascend with at least one number between each other are the
maximal runs of what they cover (`MaximalRuns.of_covers`).  The runs of a part set and its gaps are
such stretches, the former of what has arrived and the latter of what is missing.
-/

namespace IntWalk

variable {S : Set Nat} {xs : List (Nat × Nat)}

/-- From `first` to `last` all numbers are members, and neither the number before them nor the one
after them is. -/
structure IsMaximalRun (S : Set Nat) (first last : Nat) : Prop where
  le : first ≤ last
  mem : ∀ n, first ≤ n → n ≤ last → n ∈ S
  before : ∀ n, n + 1 = first → n ∉ S
  after : last + 1 ∉ S

/-- The maximal runs of the set in ascending order, each given by its first and its last number. -/
structure MaximalRuns (S : Set Nat) (xs : List (Nat × Nat)) : Prop where
  ascending : xs.Pairwise fun x y => x.2 < y.1
  mem_iff : ∀ first last, (first, last) ∈ xs ↔ IsMaximalRun S first last

namespace MaximalRuns

/-- Separate stretches lie one after the other. -/
lemma eq_or_lt_of_apart (apart : xs.Pairwise fun x y => x.2 + 1 < y.1) {x y : Nat × Nat}
    (hx : x ∈ xs) (hy : y ∈ xs) : x = y ∨ x.2 + 1 < y.1 ∨ y.2 + 1 < x.1 := by
  obtain ⟨i, hi, rfl⟩ := List.mem_iff_getElem.1 hx
  obtain ⟨j, hj, rfl⟩ := List.mem_iff_getElem.1 hy
  rcases Nat.lt_trichotomy i j with hlt | rfl | hlt
  · exact .inr (.inl (List.pairwise_iff_getElem.1 apart i j hi hj hlt))
  · exact .inl rfl
  · exact .inr (.inr (List.pairwise_iff_getElem.1 apart j i hj hi hlt))

/-- Stretches that hold something and have a number between each other are maximal. -/
lemma of_covers (ordered : ∀ x ∈ xs, x.1 ≤ x.2) (apart : xs.Pairwise fun x y => x.2 + 1 < y.1)
    (covers : ∀ n, n ∈ S ↔ ∃ x ∈ xs, x.1 ≤ n ∧ n ≤ x.2) : MaximalRuns S xs where
  ascending := apart.imp Nat.lt_of_succ_lt
  mem_iff first last := by
    constructor
    · intro hx
      have hle : first ≤ last := ordered _ hx
      -- no other stretch comes near, and this one does not reach beyond its ends
      have hnear : ∀ n, n ∈ S → n ≤ last + 1 → first ≤ n + 1 → first ≤ n ∧ n ≤ last := by
        intro n hn hupper hlower
        obtain ⟨y, hy, hyn, hny⟩ := (covers n).1 hn
        obtain rfl | h | h := eq_or_lt_of_apart apart hx hy
        · exact ⟨hyn, hny⟩
        · omega
        · omega
      refine ⟨hle, fun n hn hn' => (covers n).2 ⟨_, hx, hn, hn'⟩, fun n hn hmem => ?_,
        fun hmem => ?_⟩
      · have := hnear n hmem (by omega) (by omega)
        omega
      · have := hnear (last + 1) hmem le_rfl (by omega)
        omega
    · intro hrun
      have hrunle := hrun.le
      obtain ⟨y, hy, hle, hge⟩ := (covers first).1 (hrun.mem first le_rfl hrunle)
      -- the stretch that holds the first number neither begins earlier nor ends elsewhere
      have hfirst : y.1 = first := by
        by_contra hne
        exact hrun.before (first - 1) (by omega) ((covers _).2 ⟨y, hy, by omega, by omega⟩)
      have hlast : y.2 = last := by
        rcases Nat.lt_trichotomy y.2 last with hlt | heq | hgt
        · obtain ⟨z, hz, hle', hge'⟩ := (covers _).1 (hrun.mem (y.2 + 1) (by omega) hlt)
          obtain rfl | h | h := eq_or_lt_of_apart apart hy hz
          all_goals omega
        · exact heq
        · exact absurd ((covers _).2 ⟨y, hy, by omega, hgt⟩) hrun.after
      rwa [← hfirst, ← hlast]

end MaximalRuns

/-! ## Runs and gaps -/

namespace PartSet

variable {s : PartSet}

/-- The runs, each by its first and its last number. -/
def runNumbers (s : PartSet) : List (Nat × Nat) :=
  s.runs.toList.map fun r => (r.first.toNat, r.last.toNat)

/-- The gaps below the total, each by its first and its last number. -/
def gapNumbers (s : PartSet) (total : Part) : List (Nat × Nat) :=
  (s.missing total).map fun g => (g.start.toNat, g.stop.toNat - 1)

lemma exists_toNat_eq {n : Nat} (h : n < 4294967296) : ∃ p : Part, p.toNat = n :=
  ⟨UInt32.ofNat n, UInt32.toNat_ofNat_of_lt' h⟩

/-- The runs of a set are the maximal runs of what has arrived. -/
lemma Canonical.maximalRuns (h : Canonical s.runs.toList) :
    MaximalRuns {n | ∃ p ∈ s, p.toNat = n} s.runNumbers := by
  refine .of_covers ?_ (List.pairwise_map.2 h.2) fun n => ?_
  · intro x hx
    obtain ⟨r, hr, rfl⟩ := List.mem_map.1 hx
    exact h.first_le_last hr
  · simp only [Set.mem_ofPred_eq, runNumbers, List.mem_map, exists_exists_and_eq_and]
    constructor
    · rintro ⟨p, ⟨r, hr, hp⟩, rfl⟩
      exact ⟨r, hr, Run.mem_iff_toNat.1 hp⟩
    · rintro ⟨r, hr, hle, hge⟩
      have := Part.toNat_lt r.last
      obtain ⟨p, rfl⟩ := exists_toNat_eq (n := n) (by omega)
      exact ⟨p, ⟨r, hr, Run.mem_iff_toNat.2 ⟨hle, hge⟩⟩, rfl⟩

/-- The gaps below a total are the maximal runs of what is missing there. -/
lemma Canonical.maximalRuns_missing (h : Canonical s.runs.toList) (total : Part) :
    MaximalRuns {n | n < total.toNat ∧ ∀ p ∈ s, p.toNat ≠ n} (s.gapNumbers total) := by
  have hgaps := h.complements_missing total
  refine .of_covers ?_ (List.pairwise_map.2 (hgaps.apart.imp_of_mem ?_)) fun n => ?_
  · intro x hx
    obtain ⟨g, hg, rfl⟩ := List.mem_map.1 hx
    have := hgaps.nonempty g hg
    simp only
    omega
  · intro a b ha hb hab
    have := hgaps.nonempty a ha
    have := UInt32.lt_iff_toNat_lt.1 hab
    simp only
    omega
  · simp only [Set.mem_ofPred_eq, gapNumbers, List.mem_map, exists_exists_and_eq_and]
    constructor
    · rintro ⟨hlt, hmissing⟩
      have := Part.toNat_lt total
      obtain ⟨p, rfl⟩ := exists_toNat_eq (n := n) (by omega)
      obtain ⟨g, hg, hle, hge⟩ := (hgaps.covers p).2
        ⟨Nat.zero_le _, hlt, fun r hr hp => hmissing p ⟨r, hr, hp⟩ rfl⟩
      exact ⟨g, hg, hle, by omega⟩
    · rintro ⟨g, hg, hle, hge⟩
      have := hgaps.nonempty g hg
      have := Part.toNat_lt g.stop
      obtain ⟨p, rfl⟩ := exists_toNat_eq (n := n) (by omega)
      obtain ⟨-, hlt, hmissing⟩ := (hgaps.covers p).1 ⟨g, hg, hle, by omega⟩
      refine ⟨hlt, fun q ⟨r, hr, hq⟩ heq => ?_⟩
      exact hmissing r hr (UInt32.toNat_inj.1 heq ▸ hq)

lemma Canonical.isComplete_iff (h : Canonical s.runs.toList) (total : Part) :
    s.isComplete total = true ↔ ∀ n < total.toNat, ∃ p ∈ s, p.toNat = n := by
  have hgaps := h.complements_missing total
  rw [isComplete, List.isEmpty_iff]
  constructor
  · intro hnone n hn
    have := Part.toNat_lt total
    obtain ⟨p, rfl⟩ := exists_toNat_eq (n := n) (by omega)
    by_contra hmissing
    have hfree : ∀ r ∈ s.runs.toList, p ∉ r := fun r hr hp => hmissing ⟨p, ⟨r, hr, hp⟩, rfl⟩
    obtain ⟨g, hg, -⟩ := (hgaps.covers p).2 ⟨Nat.zero_le _, hn, hfree⟩
    rw [hnone] at hg
    exact List.not_mem_nil hg
  · intro hall
    refine List.eq_nil_iff_forall_not_mem.2 fun g hg => ?_
    -- the first part of a gap would have to be there
    obtain ⟨-, hlt, hfree⟩ := (hgaps.covers g.start).1 ⟨g, hg, le_rfl, hgaps.nonempty g hg⟩
    obtain ⟨p, ⟨r, hr, hp⟩, heq⟩ := hall _ hlt
    exact hfree r hr (UInt32.toNat_inj.1 heq ▸ hp)

end PartSet

end IntWalk
