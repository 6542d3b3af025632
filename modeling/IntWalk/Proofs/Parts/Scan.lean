import IntWalk.Proofs.Parts.Least
import IntWalk.Proofs.Parts.Reachable

/-!
# Searching and scanning

The runs of a part set are searched by halves, which is right only where the test of the search,
once it fails, fails for all later runs.  In a canonical set it does (`downward_of_canonical`), so
each search finds what a pass over all the runs finds, and a walk looks ahead to the least part
that its bound allows.
-/

namespace IntWalk.PartSet

variable {s : PartSet} {l p : Part} {r : Run}

/-! ## The run that is searched for -/

/-- A search in the set finds what a pass over its runs finds. -/
structure AgreesWithScan (s : PartSet) : Prop where
  index : ∀ p, s.firstReaching p = s.runs.countP fun r => r.last < p
  precede : ∀ p i j (hi : i < s.runs.size) (hj : j < s.runs.size),
    s.runs[i].last < p → ¬ s.runs[j].last < p → i < j
  found : ∀ p, s.runs[s.firstReaching p]? = s.runs.find? fun r => p ≤ r.last
  contains : ∀ p, s.contains p = s.runs.any fun r => r.contains p

section Scan

variable (h : Canonical s.runs.toList)
include h

/-- The runs that end before a part precede the others. -/
lemma lt_of_last_lt {i j : Nat} (hi : i < s.runs.size) (hj : j < s.runs.size)
    (hends : s.runs[i].last < p) (hreaches : ¬ s.runs[j].last < p) : i < j := by
  refine Nat.lt_of_not_le fun hji => ?_
  rcases Nat.lt_or_eq_of_le hji with hlt | rfl
  · have hdown := downward_of_canonical h p j i hj hi hlt (decide_eq_true hends)
    exact hreaches (of_decide_eq_true hdown)
  · exact hreaches hends

lemma getElem?_firstReaching (p : Part) :
    s.runs[s.firstReaching p]? = s.runs.find? fun r => p ≤ r.last := by
  rw [firstReaching, getElem?_boundary (downward_of_canonical h p)]
  simp only [← decide_not, UInt32.not_lt]

lemma contains_eq_any (p : Part) : s.contains p = s.runs.any fun r => r.contains p := by
  rw [Bool.eq_iff_iff, contains_eq_true_iff h, mem_def, ← Array.any_toList, List.any_eq_true]
  simp only [Run.contains_iff]

lemma Canonical.agreesWithScan : AgreesWithScan s where
  index p := boundary_eq_countP (downward_of_canonical h p)
  precede _ _ _ hi hj := lt_of_last_lt h hi hj
  found := getElem?_firstReaching h
  contains := contains_eq_any h

/-! ## The least part from a bound on -/

/-- A bound inside a run or on its edge is itself the least part. -/
lemma leastFrom_of_mem (hl : l ∈ s) : s.leastFrom l = some l :=
  (leastFrom_eq_some_iff h).2 ⟨hl, UInt32.le_refl l, fun _ _ hle => hle⟩

/-- From a bound in the gap before a run, the least part is the first one of the run. -/
lemma leastFrom_of_gap (hr : r ∈ s.runs) (hl : l ≤ r.first)
    (hgap : ∀ b ∈ s.runs, b.last < l ∨ r.first ≤ b.first) : s.leastFrom l = some r.first := by
  have hr := Array.mem_toList_iff.2 hr
  refine (leastFrom_eq_some_iff h).2 ⟨⟨r, hr, Run.nonempty (h.1 r hr)⟩, hl, ?_⟩
  rintro q ⟨b, hb, hfirst, hlast⟩ hlq
  rcases hgap b (Array.mem_toList_iff.1 hb) with hends | hbegins
  · exact absurd (UInt32.le_trans hlq hlast) (UInt32.not_le.2 hends)
  · exact UInt32.le_trans hbegins hfirst

/-- From a bound beyond the last run there is none. -/
lemma leastFrom_of_beyond (hl : ∀ r ∈ s.runs, r.last < l) : s.leastFrom l = none := by
  refine (leastFrom_eq_none_iff h).2 ?_
  rintro p ⟨r, hr, -, hlast⟩
  exact UInt32.lt_of_le_of_lt hlast (hl r (Array.mem_toList_iff.1 hr))

end Scan

namespace Walk

variable {w : Walk}

/-- The walk looks ahead to the least part of its set that is not below its bound, wherever the
bound lies among the runs. -/
structure PeeksLeast (w : Walk) : Prop where
  ended : w.lower = none → w.peek = none
  least : ∀ l, w.lower = some l → ∀ p, w.peek = some p ↔
    p ∈ w.parts ∧ l ≤ p ∧ ∀ q ∈ w.parts, l ≤ q → p ≤ q
  absent : ∀ l, w.lower = some l → (w.peek = none ↔ ¬ ∃ q ∈ w.parts, l ≤ q)
  within : ∀ l, w.lower = some l → ∀ r ∈ w.parts.runs, r.first ≤ l → l ≤ r.last →
    w.peek = some l
  gap : ∀ l, w.lower = some l → ∀ r ∈ w.parts.runs, l ≤ r.first →
    (∀ b ∈ w.parts.runs, b.last < l ∨ r.first ≤ b.first) → w.peek = some r.first
  beyond : ∀ l, w.lower = some l → (∀ r ∈ w.parts.runs, r.last < l) → w.peek = none

lemma peek_of_lower (hl : w.lower = some l) : w.peek = w.parts.leastFrom l := by
  rw [peek, hl, Option.bind_some]

lemma peeksLeast (h : Canonical w.parts.runs.toList) : PeeksLeast w where
  ended hl := by rw [peek, hl, Option.bind_none]
  least l hl p := by rw [peek_of_lower hl, leastFrom_eq_some_iff h]
  absent l hl := by
    rw [peek_of_lower hl, leastFrom_eq_none_iff h]
    simp only [not_exists, not_and, UInt32.not_le]
  within l hl r hr hfirst hlast := by
    rw [peek_of_lower hl]
    exact leastFrom_of_mem h ⟨r, Array.mem_toList_iff.2 hr, hfirst, hlast⟩
  gap l hl r hr hle hgap := by
    rw [peek_of_lower hl]
    exact leastFrom_of_gap h hr hle hgap
  beyond l hl hends := by
    rw [peek_of_lower hl]
    exact leastFrom_of_beyond h hends

end Walk

/-- Whatever was done to a set, its searches agree with a pass over its runs, and a walk on it
looks ahead to the least part from its bound on, wherever it stands.  Both hold after each call
of a walk as well. -/
theorem agreesWithScan_of_reachable (hs : Reachable s) :
    AgreesWithScan s ∧ (∀ w : Walk, w.parts = s → w.PeeksLeast) ∧
    ∀ calls : List (Call Part), let w := (Cursor.performAll calls s.walk).after
      AgreesWithScan w.parts ∧ w.PeeksLeast := by
  refine ⟨hs.canonical.agreesWithScan, ?_, fun calls => ?_⟩
  · rintro w rfl
    exact w.peeksLeast hs.canonical
  · have h := (Reachable.walk calls hs).canonical
    exact ⟨h.agreesWithScan, Walk.peeksLeast h⟩

/-- A run of three parts and one of a single part, from between which a walk has taken a part:
bounds inside a run, on its edge, in the gap and beyond the last run. -/
theorem agreesWithScan_after_loss :
    let s := (((((PartSet.empty.ask (.insert 9)).after.ask (.insert 3)).after.ask
      (.insertSigned 5)).after.ask (.insert 7)).after.ask (.insert 4)).after
    let t := (Cursor.performAll [.skip 4, .remove] s.walk).after.parts
    let bounded (l : Part) : Walk := ⟨t, some l, none, .fresh⟩
    t.runs = #[⟨3, 5⟩, ⟨9, 9⟩] ∧ t.firstReaching 7 = 1 ∧ t.contains 7 = false ∧
      (bounded 4).peek = some 4 ∧ (bounded 5).peek = some 5 ∧ (bounded 7).peek = some 9 ∧
      (bounded 10).peek = none ∧ (⟨t, none, none, .fresh⟩ : Walk).peek = none := by
  intro s t bounded
  have hs : Reachable s := .request _ (.request _ (.request _ (.request _ (.request _ .empty))))
  have hruns : t.runs = #[⟨3, 5⟩, ⟨9, 9⟩] := by decide +kernel
  obtain ⟨scan, peeks, -⟩ := agreesWithScan_of_reachable (Reachable.walk [.skip 4, .remove] hs)
  have bounds (l : Part) : (bounded l).PeeksLeast := peeks _ rfl
  have hfirst : (⟨3, 5⟩ : Run) ∈ t.runs := by simp [hruns]
  have hlast : (⟨9, 9⟩ : Run) ∈ t.runs := by simp [hruns]
  refine ⟨hruns, ?_, ?_, ?_, ?_, ?_, ?_, ?_⟩
  · exact (scan.index 7).trans (by rw [hruns]; decide)
  · exact (scan.contains 7).trans (by rw [hruns]; decide +kernel)
  · exact (bounds 4).within 4 rfl _ hfirst (by decide) (by decide)
  · exact (bounds 5).within 5 rfl _ hfirst (by decide) (by decide)
  · exact (bounds 7).gap 7 rfl _ hlast (by decide) (by simp [bounded, hruns])
  · exact (bounds 10).beyond 10 rfl (by simp [bounded, hruns])
  · exact (peeks ⟨t, none, none, .fresh⟩ rfl).ended rfl

end IntWalk.PartSet
