import IntWalk.Proofs.Parts.Canonical

/-!
# What an arrival does

A part that is missing has at most one run that touches it on either side.  It
takes these runs with it into one (`insert_of_place`), so the list of runs stays
canonical and holds just one part more.
-/

namespace IntWalk

namespace Run

variable {p q : Part} {left right : Option Run}

/-- The run of a part together with the runs that touch it. -/
def joining (left : Option Run) (p : Part) (right : Option Run) : Run :=
  ⟨(left.map Run.first).getD p, (right.map Run.last).getD p⟩

lemma first_joining_le (hl : ∀ l ∈ left, l.first.toNat ≤ l.last.toNat ∧
    l.last.toNat + 1 = p.toNat) : (joining left p right).first.toNat ≤ p.toNat := by
  cases left with
  | none => exact Nat.le_refl _
  | some l =>
    have := hl l rfl
    show l.first.toNat ≤ p.toNat
    omega

lemma le_last_joining (hr : ∀ r ∈ right, r.first.toNat ≤ r.last.toNat ∧
    p.toNat + 1 = r.first.toNat) : p.toNat ≤ (joining left p right).last.toNat := by
  cases right with
  | none => exact Nat.le_refl _
  | some r =>
    have := hr r rfl
    show p.toNat ≤ r.last.toNat
    omega

/-- The joined run holds the part and what its neighbours hold. -/
lemma mem_joining (hl : ∀ l ∈ left, l.first.toNat ≤ l.last.toNat ∧ l.last.toNat + 1 = p.toNat)
    (hr : ∀ r ∈ right, r.first.toNat ≤ r.last.toNat ∧ p.toNat + 1 = r.first.toNat) :
    q ∈ joining left p right ↔ q = p ∨ (∃ l ∈ left, q ∈ l) ∨ ∃ r ∈ right, q ∈ r := by
  have hq : q = p ↔ q.toNat = p.toNat := UInt32.toNat_inj.symm
  cases left with
  | none =>
    cases right with
    | none =>
      simp only [Run.mem_iff_toNat, joining, hq, Option.map_none, Option.getD_none,
        Option.mem_def, reduceCtorEq, false_and, exists_false, or_false]
      omega
    | some r =>
      have := hr r rfl
      simp only [Run.mem_iff_toNat, joining, hq, Option.map_none, Option.getD_none,
        Option.map_some, Option.getD_some, Option.mem_def, reduceCtorEq, false_and,
        exists_false, false_or, Option.some.injEq, exists_eq_left']
      omega
  | some l =>
    have := hl l rfl
    cases right with
    | none =>
      simp only [Run.mem_iff_toNat, joining, hq, Option.map_none, Option.getD_none,
        Option.map_some, Option.getD_some, Option.mem_def, reduceCtorEq, false_and,
        exists_false, or_false, Option.some.injEq, exists_eq_left']
      omega
    | some r =>
      have := hr r rfl
      simp only [Run.mem_iff_toNat, joining, hq, Option.map_some, Option.getD_some,
        Option.mem_def, Option.some.injEq, exists_eq_left']
      omega

end Run

namespace PartSet

variable {s : PartSet} {p q : Part} {before after beyond : List Run} {left right : Option Run}

/-- Where a missing part belongs: between the runs `before` and `left` on one side
and `right` and `beyond` on the other, of which `left` and `right` touch it. -/
structure Place (s : PartSet) (p : Part) (before : List Run) (left right : Option Run)
    (beyond : List Run) : Prop where
  runs : s.runs.toList = before ++ left.toList ++ (right.toList ++ beyond)
  index : s.firstReaching p = before.length + left.toList.length
  leftNeighbour : s.leftNeighbour (s.firstReaching p) p = left
  rightNeighbour : s.rightNeighbour (s.firstReaching p) p = right
  left : ∀ l ∈ left, l.last.toNat + 1 = p.toNat
  right : ∀ r ∈ right, p.toNat + 1 = r.first.toNat
  before : ∀ a ∈ before, a.last.toNat + 1 < p.toNat
  beyond : ∀ b ∈ beyond, p.toNat + 1 < b.first.toNat

namespace Cut

lemma leftNeighbour (cut : Cut s p before after) :
    s.leftNeighbour (s.firstReaching p) p =
      before.getLast?.filter fun r => r.last.next? == some p := by
  rw [PartSet.leftNeighbour, cut.index]
  rcases List.eq_nil_or_concat before with rfl | ⟨init, l, rfl⟩
  · rfl
  · rw [List.concat_eq_append, if_neg (by simp), ← Array.getElem?_toList, cut.runs]
    simp

lemma rightNeighbour (cut : Cut s p before after) :
    s.rightNeighbour (s.firstReaching p) p =
      after.head?.filter fun r => p.next? == some r.first := by
  rw [PartSet.rightNeighbour, cut.getElem?]

lemma exists_left (h : Canonical s.runs.toList) (cut : Cut s p before after) :
    ∃ others left, s.leftNeighbour (s.firstReaching p) p = left ∧
      before = others ++ left.toList ∧ (∀ l ∈ left, l.last.toNat + 1 = p.toNat) ∧
      ∀ a ∈ others, a.last.toNat + 1 < p.toNat := by
  rw [cut.leftNeighbour]
  rcases List.eq_nil_or_concat before with rfl | ⟨init, l, rfl⟩
  · exact ⟨[], none, rfl, rfl, by simp, by simp⟩
  · rw [List.concat_eq_append] at cut ⊢
    have hl := cut.ends l (by simp)
    have hinit : ∀ a ∈ init, a.last.toNat + 1 < p.toNat := by
      intro a ha
      rw [cut.runs, Canonical.append_iff, Canonical.append_iff] at h
      have hsep : Separated a l := h.1.2.2 a ha l (by simp)
      have := h.1.2.1.first_le_last (r := l) (by simp)
      rw [separated_iff] at hsep
      omega
    by_cases touches : l.last.next? = some p
    · refine ⟨init, some l, by simp [touches], rfl, ?_, hinit⟩
      rintro _ ⟨⟩
      exact Part.next?_eq_some_iff.1 touches
    · refine ⟨init ++ [l], none, by simp [touches], by simp, by simp, ?_⟩
      intro a ha
      rcases List.mem_append.1 ha with ha | ha
      · exact hinit a ha
      · rw [List.mem_singleton.1 ha]
        have := mt Part.next?_eq_some_iff.2 touches
        omega

lemma exists_right (h : Canonical s.runs.toList) (cut : Cut s p before after) (hp : p ∉ s) :
    ∃ right others, s.rightNeighbour (s.firstReaching p) p = right ∧
      after = right.toList ++ others ∧ (∀ r ∈ right, p.toNat + 1 = r.first.toNat) ∧
      ∀ b ∈ others, p.toNat + 1 < b.first.toNat := by
  rw [cut.rightNeighbour]
  cases after with
  | nil => exact ⟨none, [], rfl, rfl, by simp, by simp⟩
  | cons r rest =>
    have hr : p.toNat < r.first.toNat := by
      refine UInt32.lt_iff_toNat_lt.1 (UInt32.not_le.1 fun hle => hp ?_)
      exact (cut.mem_iff h).2 ⟨r, rfl, hle⟩
    rw [cut.runs, Canonical.append_iff, Canonical.cons_iff] at h
    have hle := UInt32.le_iff_toNat_le.1 h.2.1.1
    have hrest : ∀ b ∈ rest, r.last.toNat + 1 < b.first.toNat := h.2.1.2.2
    by_cases touches : p.next? = some r.first
    · refine ⟨some r, rest, by simp [touches], rfl, ?_, fun b hb => ?_⟩
      · rintro _ ⟨⟩
        exact Part.next?_eq_some_iff.1 touches
      · have := hrest b hb
        omega
    · have := mt Part.next?_eq_some_iff.2 touches
      refine ⟨none, r :: rest, by simp [touches], rfl, by simp, fun b hb => ?_⟩
      rcases List.mem_cons.1 hb with rfl | hb
      · omega
      · have := hrest b hb
        omega

end Cut

/-- A missing part has a place. -/
lemma exists_place (h : Canonical s.runs.toList) (hp : p ∉ s) :
    ∃ before left right beyond, Place s p before left right beyond := by
  obtain ⟨start, rest, cut⟩ := exists_cut h p
  obtain ⟨before, left, hleft, hstart, touchesLeft, hbefore⟩ := cut.exists_left h
  obtain ⟨right, beyond, hright, hrest, touchesRight, hbeyond⟩ := cut.exists_right h hp
  refine ⟨before, left, right, beyond, ?_, ?_, hleft, hright, touchesLeft, touchesRight,
    hbefore, hbeyond⟩
  · rw [cut.runs, hstart, hrest]
  · rw [cut.index, hstart, List.length_append]

namespace Place

variable (pl : Place s p before left right beyond)
include pl

lemma canonical_parts (h : Canonical s.runs.toList) :
    (Canonical before ∧ Canonical left.toList ∧ ∀ a ∈ before, ∀ l ∈ left, Separated a l) ∧
      (Canonical right.toList ∧ Canonical beyond ∧ ∀ r ∈ right, ∀ b ∈ beyond, Separated r b) ∧
      ∀ a ∈ before, ∀ b ∈ beyond, Separated a b := by
  rw [pl.runs, Canonical.append_iff, Canonical.append_iff, Canonical.append_iff] at h
  obtain ⟨⟨hb, hl, hbl⟩, ⟨hr, hy, hry⟩, hcross⟩ := h
  refine ⟨⟨hb, hl, fun a ha l hl => hbl a ha l (by simpa using hl)⟩,
    ⟨hr, hy, fun r hr b hb => hry r (by simpa using hr) b hb⟩, fun a ha b hb => ?_⟩
  exact hcross a (List.mem_append_left _ ha) b (List.mem_append_right _ hb)

lemma left_spec (h : Canonical s.runs.toList) :
    ∀ l ∈ left, l.first.toNat ≤ l.last.toNat ∧ l.last.toNat + 1 = p.toNat := by
  intro l hl
  have hc := (pl.canonical_parts h).1.2.1
  exact ⟨hc.first_le_last (by simpa using hl), pl.left l hl⟩

lemma right_spec (h : Canonical s.runs.toList) :
    ∀ r ∈ right, r.first.toNat ≤ r.last.toNat ∧ p.toNat + 1 = r.first.toNat := by
  intro r hr
  have hc := (pl.canonical_parts h).2.1.1
  exact ⟨hc.first_le_last (by simpa using hr), pl.right r hr⟩

/-- The runs with the part in its place are canonical. -/
lemma canonical (h : Canonical s.runs.toList) :
    Canonical (before ++ Run.joining left p right :: beyond) := by
  obtain ⟨⟨hb, -, hbl⟩, ⟨-, hy, hry⟩, hcross⟩ := pl.canonical_parts h
  have hfirst : (Run.joining left p right).first.toNat ≤ p.toNat :=
    Run.first_joining_le (pl.left_spec h)
  have hlast : p.toNat ≤ (Run.joining left p right).last.toNat :=
    Run.le_last_joining (pl.right_spec h)
  refine Canonical.append_iff.2 ⟨hb, Canonical.cons_iff.2
    ⟨UInt32.le_iff_toNat_le.2 (Nat.le_trans hfirst hlast), hy, fun b hb => ?_⟩, fun a ha b hb => ?_⟩
  · cases right with
    | none => exact pl.beyond b hb
    | some r => exact hry r rfl b hb
  · rcases List.mem_cons.1 hb with rfl | hb
    · cases left with
      | none => exact pl.before a ha
      | some l => exact hbl a ha l rfl
    · exact hcross a ha b hb

/-- The runs with the part in its place hold it and what they held before. -/
lemma exists_mem_iff (h : Canonical s.runs.toList) :
    (∃ r ∈ before ++ Run.joining left p right :: beyond, q ∈ r) ↔ q = p ∨ q ∈ s := by
  have joined := Run.mem_joining (q := q) (pl.left_spec h) (pl.right_spec h)
  rw [mem_def, pl.runs]
  simp only [List.mem_append, List.mem_cons, Option.mem_toList, Option.mem_def, or_and_right,
    exists_or, exists_eq_left] at joined ⊢
  simp only [joined, or_assoc, or_left_comm]

end Place

/-! ## The request -/

lemma insert_of_mem (h : Canonical s.runs.toList) (hp : p ∈ s) : s.insert p = .still false s := by
  obtain ⟨before, after, cut⟩ := exists_cut h p
  obtain ⟨r, hr, hle⟩ := (cut.mem_iff h).1 hp
  rw [insert, cut.getElem?, hr]
  exact if_pos (by simpa using hle)

lemma insert_of_not_mem (h : Canonical s.runs.toList) (hp : p ∉ s) :
    s.insert p = s.place (s.firstReaching p) p := by
  obtain ⟨before, after, cut⟩ := exists_cut h p
  rw [insert, cut.getElem?]
  refine if_neg fun hany => hp ((cut.mem_iff h).2 ?_)
  obtain ⟨r, hr, hle⟩ := (Option.any_eq_true _ _).1 hany
  exact ⟨r, hr, of_decide_eq_true hle⟩

lemma Place.splice (pl : Place s p before left right beyond) :
    (s.splice (s.firstReaching p - left.toList.length) (s.firstReaching p + right.toList.length)
      [Run.joining left p right]).runs.toList =
        before ++ Run.joining left p right :: beyond := by
  have htake : s.runs.toList.take (s.firstReaching p - left.toList.length) = before := by
    rw [pl.runs, pl.index, Nat.add_sub_cancel, List.append_assoc]
    exact List.take_left' rfl
  have hdrop : s.runs.toList.drop (s.firstReaching p + right.toList.length) = beyond := by
    rw [pl.runs, ← List.append_assoc]
    exact List.drop_left' (by simp only [pl.index, List.length_append])
  rw [toList_splice, htake, hdrop, List.append_assoc]
  rfl

/-- A part that arrives in its place joins the runs that touch it. -/
lemma insert_of_place (h : Canonical s.runs.toList) (hp : p ∉ s)
    (pl : Place s p before left right beyond) :
    (s.insert p).answer = true ∧
      (s.insert p).after.runs.toList = before ++ Run.joining left p right :: beyond ∧
      (s.insert p).events =
        if left.isSome && right.isSome then [.bridged p (s.insert p).after.runs.size] else [] := by
  rw [insert_of_not_mem h hp, place, pl.leftNeighbour, pl.rightNeighbour]
  exact ⟨rfl, pl.splice, rfl⟩

end PartSet

end IntWalk
