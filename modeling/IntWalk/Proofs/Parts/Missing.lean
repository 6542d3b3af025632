import IntWalk.Parts.Gaps
import IntWalk.Proofs.Parts.Reachable

/-!
# The gaps are what is missing

The gaps of a part set are read off its runs in one pass, which keeps the least part that may
still be missing.  From this part on, the gaps and the runs complement each other
(`complements_gapsFrom`): each part below the total is in a gap or in a run, and since every run
holds something, two gaps never touch.
-/

namespace IntWalk

variable {p : Part} {g : Gap} {r : Run} {runs : List Run} {gaps : List Gap} {n : Nat}

lemma Gap.mem_between {start stop : Part} :
    g ∈ Gap.between start stop ↔ start < stop ∧ g = ⟨start, stop⟩ := by
  rw [Gap.between]
  split <;> simp [*]

namespace PartSet

/-- From `n` up to `total` the gaps hold just what the runs do not.  They hold something,
ascend and leave a part between each other. -/
structure Complements (total : Part) (n : Nat) (runs : List Run) (gaps : List Gap) : Prop where
  nonempty : ∀ g ∈ gaps, g.start.toNat < g.stop.toNat
  lower : ∀ g ∈ gaps, n ≤ g.start.toNat
  upper : ∀ g ∈ gaps, g.stop.toNat ≤ total.toNat
  apart : gaps.Pairwise fun a b => a.stop < b.start
  covers : ∀ p : Part, (∃ g ∈ gaps, g.start.toNat ≤ p.toNat ∧ p.toNat < g.stop.toNat) ↔
    n ≤ p.toNat ∧ p.toNat < total.toNat ∧ ∀ r ∈ runs, p ∉ r

/-- Where all runs begin at the total or after it, what is left up to the total is one gap. -/
lemma complements_between {total expected : Part}
    (h : ∀ r ∈ runs, total.toNat ≤ r.first.toNat) :
    Complements total expected.toNat runs (Gap.between expected total) where
  nonempty g hg := by
    obtain ⟨hlt, rfl⟩ := Gap.mem_between.1 hg
    exact UInt32.lt_iff_toNat_lt.1 hlt
  lower g hg := by
    obtain ⟨-, rfl⟩ := Gap.mem_between.1 hg
    exact Nat.le_refl _
  upper g hg := by
    obtain ⟨-, rfl⟩ := Gap.mem_between.1 hg
    exact Nat.le_refl _
  apart := by
    rw [Gap.between]
    split
    · exact List.pairwise_singleton _ _
    · exact List.Pairwise.nil
  covers p := by
    constructor
    · rintro ⟨g, hg, hle, hlt⟩
      obtain ⟨-, rfl⟩ := Gap.mem_between.1 hg
      refine ⟨hle, hlt, fun r hr hp => ?_⟩
      have hfirst := (Run.mem_iff_toNat.1 hp).1
      have hbeyond := h r hr
      simp only at hlt
      omega
    · rintro ⟨hle, hlt, -⟩
      have hroom : expected < total := UInt32.lt_iff_toNat_lt.2 (Nat.lt_of_le_of_lt hle hlt)
      exact ⟨_, Gap.mem_between.2 ⟨hroom, rfl⟩, hle, hlt⟩

/-- No part comes after the last one. -/
lemma complements_nil {total : Part} (h : Part.last.toNat < n) : Complements total n runs [] where
  nonempty := nofun
  lower := nofun
  upper := nofun
  apart := List.Pairwise.nil
  covers p := by
    have hp := Part.toNat_lt p
    rw [Part.toNat_last] at h
    exact ⟨nofun, fun hn => by omega⟩

/-- The gap before a run goes before the gaps that come after the run. -/
lemma Complements.cons {total expected : Part} (hexpected : expected.toNat ≤ r.first.toNat)
    (hr : r.first.toNat ≤ r.last.toNat) (htotal : r.first.toNat < total.toNat)
    (hruns : ∀ b ∈ runs, r.last.toNat < b.first.toNat)
    (h : Complements total (r.last.toNat + 1) runs gaps) :
    Complements total expected.toNat (r :: runs) (Gap.between expected r.first ++ gaps) := by
  -- before the run lies one gap, for the other runs come later still
  have hlater : ∀ b ∈ runs, r.first.toNat ≤ b.first.toNat := fun b hb =>
    Nat.le_of_lt (Nat.lt_of_le_of_lt hr (hruns b hb))
  have hbefore : Complements r.first expected.toNat (r :: runs) (Gap.between expected r.first) :=
    complements_between (List.forall_mem_cons.2 ⟨Nat.le_refl _, hlater⟩)
  refine ⟨fun g hg => ?_, fun g hg => ?_, fun g hg => ?_, ?_, fun p => ?_⟩
  · exact (List.mem_append.1 hg).elim (hbefore.nonempty g) (h.nonempty g)
  · rcases List.mem_append.1 hg with hg | hg
    · exact hbefore.lower g hg
    · have := h.lower g hg
      omega
  · rcases List.mem_append.1 hg with hg | hg
    · exact Nat.le_of_lt (Nat.lt_of_le_of_lt (hbefore.upper g hg) htotal)
    · exact h.upper g hg
  · -- the run lies between the gap before it and those after it
    refine List.pairwise_append.2 ⟨hbefore.apart, h.apart, fun a ha b hb => ?_⟩
    have hstop := hbefore.upper a ha
    have hstart := h.lower b hb
    rw [UInt32.lt_iff_toNat_lt]
    omega
  · simp only [List.mem_append, or_and_right, exists_or]
    rw [hbefore.covers, h.covers, List.forall_mem_cons, Run.mem_iff_toNat]
    constructor
    · rintro (⟨hle, hlt, hkept, hrest⟩ | ⟨hle, hlt, hrest⟩)
      · exact ⟨hle, by omega, hkept, hrest⟩
      · exact ⟨by omega, hlt, by omega, hrest⟩
    · rintro ⟨hle, hlt, hkept, hrest⟩
      rcases Nat.lt_or_ge p.toNat r.first.toNat with hp | hp
      · exact .inl ⟨hle, hp, hkept, hrest⟩
      · exact .inr ⟨by omega, hlt, hrest⟩

/-- The pass over the runs finds the gaps that they leave. -/
lemma complements_gapsFrom (total expected : Part) (h : Canonical runs)
    (hexpected : ∀ r ∈ runs, expected.toNat ≤ r.first.toNat) :
    Complements total expected.toNat runs (gapsFrom total expected runs) := by
  induction runs generalizing expected with
  | nil => exact complements_between (List.forall_mem_nil _)
  | cons r rest ih =>
    obtain ⟨hr, hrest, hsep⟩ := Canonical.cons_iff.1 h
    have hr := UInt32.le_iff_toNat_le.1 hr
    have hsep : ∀ b ∈ rest, r.last.toNat + 1 < b.first.toNat := hsep
    rw [gapsFrom]
    split
    · next htotal =>
      have htotal := UInt32.le_iff_toNat_le.1 htotal
      refine complements_between (List.forall_mem_cons.2 ⟨htotal, fun b hb => ?_⟩)
      have := hsep b hb
      omega
    · next htotal =>
      have htotal := UInt32.lt_iff_toNat_lt.1 (UInt32.not_le.1 htotal)
      refine Complements.cons (hexpected r (List.mem_cons_self ..)) hr htotal
        (fun b hb => Nat.lt_of_succ_lt (hsep b hb)) ?_
      cases hnext : r.last.next? with
      | none =>
        rw [Part.next?_eq_none_iff.1 hnext]
        exact complements_nil (Nat.lt_succ_self _)
      | some next =>
        rw [Part.next?_eq_some_iff.1 hnext]
        refine ih _ hrest fun b hb => ?_
        rw [← Part.next?_eq_some_iff.1 hnext]
        exact Nat.le_of_lt (hsep b hb)

variable {s : PartSet}

lemma Canonical.complements_missing (h : Canonical s.runs.toList) (total : Part) :
    Complements total 0 s.runs.toList (s.missing total) :=
  complements_gapsFrom total 0 h fun r _ => Nat.zero_le r.first.toNat

/-- Below a total, the gaps of a set that a program can come to are its canonical complement:
they hold something, ascend without touching each other, and a part lies in one of them just if
it has not arrived.  So the transfer is complete just if all parts below the total are there. -/
theorem missing_complements_of_reachable (hs : Reachable s) (total : Part) :
    (∀ g ∈ s.missing total, g.start < g.stop ∧ g.stop ≤ total) ∧
    (s.missing total).Pairwise (fun a b => a.stop < b.start) ∧
    (∀ p, (∃ g ∈ s.missing total, g.start ≤ p ∧ p < g.stop) ↔
      p < total ∧ s.contains p = false) ∧
    (s.isComplete total = true ↔ ∀ p < total, s.contains p = true) := by
  have h := hs.canonical.complements_missing total
  have hcovers : ∀ p, (∃ g ∈ s.missing total, g.start ≤ p ∧ p < g.stop) ↔
      p < total ∧ s.contains p = false := by
    intro p
    simp only [UInt32.le_iff_toNat_le, UInt32.lt_iff_toNat_lt]
    rw [h.covers, ← Bool.not_eq_true, contains_eq_true_iff hs.canonical, mem_def, not_exists]
    simp only [not_and, Nat.zero_le, true_and]
  refine ⟨fun g hg => ⟨?_, ?_⟩, h.apart, hcovers, ?_⟩
  · exact UInt32.lt_iff_toNat_lt.2 (h.nonempty g hg)
  · exact UInt32.le_iff_toNat_le.2 (h.upper g hg)
  · rw [isComplete, List.isEmpty_iff]
    constructor
    · intro hnone p hp
      by_contra hmissing
      obtain ⟨g, hg, -⟩ := (hcovers p).2 ⟨hp, Bool.eq_false_iff.2 hmissing⟩
      rw [hnone] at hg
      exact List.not_mem_nil hg
    · intro hall
      refine List.eq_nil_iff_forall_not_mem.2 fun g hg => ?_
      -- the first part of a gap would be missing
      have hstart := UInt32.lt_iff_toNat_lt.2 (h.nonempty g hg)
      obtain ⟨hlt, hmissing⟩ := (hcovers g.start).1 ⟨g, hg, UInt32.le_refl _, hstart⟩
      rw [hall g.start hlt] at hmissing
      cases hmissing

/-- A total that cuts a run, and the last part with all that is missing before it. -/
theorem missing_complements_of_last_part :
    let s := (((PartSet.empty.ask (.insert 4294967295)).after.ask (.insert 3)).after.ask
      (.insertSigned 4)).after
    (s.missing 4 = [⟨0, 3⟩] ∧ s.missing 4294967295 = [⟨0, 3⟩, ⟨5, 4294967295⟩]) ∧
      (∀ p, (∃ g ∈ s.missing 4, g.start ≤ p ∧ p < g.stop) ↔ p < 4 ∧ s.contains p = false) ∧
      (s.isComplete 4294967295 = true ↔ ∀ p < 4294967295, s.contains p = true) := by
  intro s
  have hs : Reachable s := .request _ (.request _ (.request _ .empty))
  obtain ⟨-, -, hcovers, -⟩ := missing_complements_of_reachable hs 4
  obtain ⟨-, -, -, hcomplete⟩ := missing_complements_of_reachable hs 4294967295
  exact ⟨⟨by decide +kernel, by decide +kernel⟩, hcovers, hcomplete⟩

end PartSet

end IntWalk
