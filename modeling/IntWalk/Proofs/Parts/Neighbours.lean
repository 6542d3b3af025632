import IntWalk.Proofs.Parts.Reachable

/-!
# How many runs there are

What a single part does to the runs hangs on its two neighbours: it takes those that are there
with it into one run, and leaves them apart when it is lost.  So each change of the number of
runs is told by `heldBefore` and `heldAfter`, and the number itself by the parts that no part
follows (`ends`).  No list of runs that holds the same parts is shorter.
-/

namespace IntWalk.PartSet

variable {s : PartSet} {p q : Part} {r : Run}

/-- One if there is a part right before `p` and it has arrived. -/
def heldBefore (s : PartSet) (p : Part) : Nat := if 0 < p ∧ p - 1 ∈ s.members then 1 else 0

/-- One if there is a part right after `p` and it has arrived. -/
def heldAfter (s : PartSet) (p : Part) : Nat := if p < Part.last ∧ p + 1 ∈ s.members then 1 else 0

/-- The parts that have arrived while the part after them has not, or does not exist. -/
def ends (s : PartSet) : Finset Part := s.members.filter fun p => s.heldAfter p = 0

lemma held_before_iff : (0 < p ∧ p - 1 ∈ s.members) ↔ ∃ q ∈ s, q.toNat + 1 = p.toNat := by
  constructor
  · rintro ⟨hpos, hmem⟩
    have hsub := Run.toNat_sub_one (r := ⟨0, p⟩) hpos
    have hpos := UInt32.lt_iff_toNat_lt.1 hpos
    rw [UInt32.toNat_zero] at hpos
    exact ⟨p - 1, mem_members.1 hmem, by omega⟩
  · rintro ⟨q, hq, hqp⟩
    have hpos : 0 < p := UInt32.lt_iff_toNat_lt.2 (by rw [UInt32.toNat_zero]; omega)
    have hsub := Run.toNat_sub_one (r := ⟨0, p⟩) hpos
    obtain rfl : q = p - 1 := UInt32.toNat_inj.1 (by omega)
    exact ⟨hpos, mem_members.2 hq⟩

lemma held_after_iff : (p < Part.last ∧ p + 1 ∈ s.members) ↔ ∃ q ∈ s, p.toNat + 1 = q.toNat := by
  constructor
  · rintro ⟨hlt, hmem⟩
    have hadd := Run.toNat_add_one (r := ⟨p, Part.last⟩) hlt
    exact ⟨p + 1, mem_members.1 hmem, hadd.symm⟩
  · rintro ⟨q, hq, hpq⟩
    have hlt : p < Part.last := by
      have := Part.toNat_lt q
      rw [UInt32.lt_iff_toNat_lt, Part.toNat_last]
      omega
    have hadd := Run.toNat_add_one (r := ⟨p, Part.last⟩) hlt
    obtain rfl : q = p + 1 := UInt32.toNat_inj.1 (by omega)
    exact ⟨hlt, mem_members.2 hq⟩

/-! ## Arrivals -/

namespace Place

variable {before beyond : List Run} {left right : Option Run}
variable (pl : Place s p before left right beyond) (h : Canonical s.runs.toList)
include pl

/-- Only the runs that touch the part hold one of its neighbours. -/
lemma mem_left_or_right (hr : r ∈ s.runs.toList) (hq : q ∈ r) (hle : q.toNat ≤ p.toNat + 1)
    (hge : p.toNat ≤ q.toNat + 1) : r ∈ left ∨ r ∈ right := by
  have hq := Run.mem_iff_toNat.1 hq
  rw [pl.runs] at hr
  simp only [List.mem_append, Option.mem_toList] at hr
  rcases hr with (hr | hr) | hr | hr
  · have := pl.before r hr
    omega
  · exact .inl hr
  · exact .inr hr
  · have := pl.beyond r hr
    omega

include h

lemma heldBefore_eq : s.heldBefore p = left.toList.length := by
  have hiff : (∃ q ∈ s, q.toNat + 1 = p.toNat) ↔ left.isSome = true := by
    constructor
    · rintro ⟨q, ⟨r, hr, hq⟩, hqp⟩
      rcases pl.mem_left_or_right hr hq (by omega) (by omega) with hl | hright
      · exact Option.isSome_iff_exists.2 ⟨r, hl⟩
      · have := pl.right r hright
        have := (Run.mem_iff_toNat.1 hq).1
        omega
    · intro hl
      obtain ⟨l, rfl⟩ := Option.isSome_iff_exists.1 hl
      have hmem : l ∈ s.runs.toList := by simp [pl.runs]
      exact ⟨l.last, ⟨l, hmem, h.1 l hmem, UInt32.le_refl _⟩, pl.left l rfl⟩
  rw [heldBefore, if_congr (held_before_iff.trans hiff) rfl rfl]
  cases left <;> rfl

lemma heldAfter_eq : s.heldAfter p = right.toList.length := by
  have hiff : (∃ q ∈ s, p.toNat + 1 = q.toNat) ↔ right.isSome = true := by
    constructor
    · rintro ⟨q, ⟨r, hr, hq⟩, hpq⟩
      rcases pl.mem_left_or_right hr hq (by omega) (by omega) with hleft | hright
      · have := pl.left r hleft
        have := (Run.mem_iff_toNat.1 hq).2
        omega
      · exact Option.isSome_iff_exists.2 ⟨r, hright⟩
    · intro hr
      obtain ⟨r, rfl⟩ := Option.isSome_iff_exists.1 hr
      have hmem : r ∈ s.runs.toList := by simp [pl.runs]
      exact ⟨r.first, ⟨r, hmem, UInt32.le_refl _, h.1 r hmem⟩, pl.right r rfl⟩
  rw [heldAfter, if_congr (held_after_iff.trans hiff) rfl rfl]
  cases right <;> rfl

end Place

/-- What a change does to the number of runs: from `s` on it grows by `gain`, and if both
neighbours of the part are there, this is reported with the new number, and otherwise nothing. -/
structure Regroups (s : PartSet) (p : Part) (x : Step Event PartSet Bool) (gain : Int)
    (message : String) : Prop where
  gain : (x.after.runs.size : Int) - s.runs.size = gain
  reports : x.events.map Event.record =
    if s.heldBefore p = 1 ∧ s.heldAfter p = 1 then
      [⟨.trace, "intcursor::collections::parts", message,
        [("part", p.toNat), ("ranges", x.after.runs.size)]⟩]
    else []

lemma regroups_insert (h : Canonical s.runs.toList) (hp : p ∉ s) :
    Regroups s p (s.insert p) (1 - s.heldBefore p - s.heldAfter p) "bridged two ranges" := by
  obtain ⟨before, left, right, beyond, pl⟩ := exists_place h hp
  obtain ⟨-, hruns, hevents⟩ := insert_of_place h hp pl
  refine ⟨?_, ?_⟩
  · have hsize : s.runs.size =
        before.length + left.toList.length + (right.toList.length + beyond.length) := by
      rw [← Array.length_toList, pl.runs, List.length_append, List.length_append,
        List.length_append]
    have hsize' : (s.insert p).after.runs.size = before.length + (beyond.length + 1) := by
      rw [← Array.length_toList, hruns, List.length_append, List.length_cons]
    rw [pl.heldBefore_eq h, pl.heldAfter_eq h]
    omega
  · rw [hevents, pl.heldBefore_eq h, pl.heldAfter_eq h]
    cases left <;> cases right <;> rfl

/-! ## Losses -/

lemma Holder.heldBefore_eq {before after : List Run} (holder : Holder s p before r after)
    (h : Canonical s.runs.toList) : s.heldBefore p = if r.first < p then 1 else 0 :=
  if_congr (held_before_iff.trans (holder.first_lt_iff h).symm) rfl rfl

lemma Holder.heldAfter_eq {before after : List Run} (holder : Holder s p before r after)
    (h : Canonical s.runs.toList) : s.heldAfter p = if p < r.last then 1 else 0 :=
  if_congr (held_after_iff.trans (holder.lt_last_iff h).symm) rfl rfl

lemma regroups_remove (h : Canonical s.runs.toList) (hp : p ∈ s) :
    Regroups s p (s.remove p) (s.heldBefore p + s.heldAfter p - 1) "split range" := by
  obtain ⟨before, r, after, holder⟩ := exists_holder h hp
  obtain ⟨-, hruns, hevents⟩ := remove_of_holder holder
  have hleft : (r.without p).length = s.heldBefore p + s.heldAfter p := by
    rw [Run.length_without, holder.heldBefore_eq h, holder.heldAfter_eq h]
  refine ⟨?_, ?_⟩
  · have hsize : s.runs.size = before.length + (after.length + 1) := by
      rw [← Array.length_toList, holder.runs, List.length_append, List.length_cons]
    have hsize' : (s.remove p).after.runs.size =
        before.length + ((r.without p).length + after.length) := by
      rw [← Array.length_toList, hruns, List.length_append, List.length_append]
    omega
  · have hboth : (r.without p).length = 2 ↔ s.heldBefore p = 1 ∧ s.heldAfter p = 1 := by
      rw [hleft, heldBefore, heldAfter]
      split <;> split <;> simp
    rw [hevents, if_congr hboth rfl rfl]
    split <;> rfl

/-! ## The number of runs -/

lemma mem_ends : p ∈ s.ends ↔ p ∈ s ∧ ∀ q ∈ s, p.toNat + 1 ≠ q.toNat := by
  have hnone : s.heldAfter p = 0 ↔ ∀ q ∈ s, p.toNat + 1 ≠ q.toNat := by
    simp only [heldAfter, held_after_iff, ite_eq_right_iff, one_ne_zero, imp_false, not_exists,
      not_and]
  rw [ends, Finset.mem_filter, mem_members, hnone]

/-- Each part that no part follows is the last of a run, whatever the runs are. -/
lemma card_ends_le_length {runs : List Run} (hruns : ∀ p, (∃ r ∈ runs, p ∈ r) ↔ p ∈ s) :
    s.ends.card ≤ runs.length := by
  have hsub : s.ends ⊆ (runs.map Run.last).toFinset := by
    intro p hp
    obtain ⟨hp, hends⟩ := mem_ends.1 hp
    obtain ⟨r, hr, hpr⟩ := (hruns p).2 hp
    rw [List.mem_toFinset]
    refine List.mem_map.2 ⟨r, hr, ?_⟩
    -- otherwise the part after it would lie in the same run
    by_contra hne
    have hlt : p.toNat < r.last.toNat := by
      have := (Run.mem_iff_toNat.1 hpr).2
      have := mt UInt32.toNat_inj.1 hne
      omega
    have hadd := Run.toNat_add_one (UInt32.lt_iff_toNat_lt.2 hlt)
    have hnext : p + 1 ∈ r := by
      have := Run.mem_iff_toNat.1 hpr
      exact Run.mem_iff_toNat.2 (by omega)
    exact hends _ ((hruns _).1 ⟨r, hr, hnext⟩) hadd.symm
  calc
    s.ends.card ≤ (runs.map Run.last).toFinset.card := Finset.card_le_card hsub
    _ ≤ (runs.map Run.last).length := List.toFinset_card_le _
    _ = runs.length := List.length_map _

lemma card_ends (h : Canonical s.runs.toList) : s.ends.card = s.runs.size := by
  refine Nat.le_antisymm (card_ends_le_length fun p => Iff.rfl) ?_
  have hnodup : (s.runs.toList.map Run.last).Nodup := by
    refine List.pairwise_map.2 (h.2.imp_of_mem fun {a b} _ hb hab heq => ?_)
    have := h.first_le_last hb
    rw [separated_iff, heq] at hab
    omega
  have hsub : (s.runs.toList.map Run.last).toFinset ⊆ s.ends := by
    intro p hp
    obtain ⟨r, hr, rfl⟩ := List.mem_map.1 (List.mem_toFinset.1 hp)
    have hlast : r.last ∈ r := ⟨h.1 r hr, UInt32.le_refl _⟩
    refine mem_ends.2 ⟨⟨r, hr, hlast⟩, fun q hq hnext => ?_⟩
    have hq := (Run.mem_iff_toNat.1 (h.mem_of_near hr hlast hq (by omega) (by omega))).2
    omega
  calc
    s.runs.size = (s.runs.toList.map Run.last).length := by
      rw [List.length_map, Array.length_toList]
    _ = (s.runs.toList.map Run.last).toFinset.card := (List.toFinset_card_of_nodup hnodup).symm
    _ ≤ s.ends.card := Finset.card_le_card hsub

/-- In a set that a program can come to, a new part changes the number of runs by one less the
neighbours that are there, and the loss of a part by as many as there are less one; runs that are
joined or cut are reported with their new number.  A part that was there already, and the loss of
one that was not, change and report nothing.  So there are as many runs as parts that no part
follows, and no list of runs that holds just the same parts is shorter. -/
theorem runs_follow_neighbours (hs : Reachable s) (p : Part) :
    (p ∉ s.members → Regroups s p (s.insert p) (1 - s.heldBefore p - s.heldAfter p)
      "bridged two ranges") ∧
    (p ∈ s.members → Regroups s p (s.remove p) (s.heldBefore p + s.heldAfter p - 1)
      "split range") ∧
    (p ∈ s.members → s.insert p = .still false s) ∧
    (p ∉ s.members → s.remove p = .still false s) ∧
    s.runs.size = s.ends.card ∧
    ∀ runs : List Run, (∀ q, (∃ r ∈ runs, q ∈ r) ↔ q ∈ s.members) → s.runs.size ≤ runs.length := by
  have h := hs.canonical
  simp only [mem_members]
  refine ⟨regroups_insert h, regroups_remove h, insert_of_mem h, remove_of_not_mem h,
    (card_ends h).symm, fun runs hruns => ?_⟩
  rw [← card_ends h]
  exact card_ends_le_length hruns

/-- The last part but one joins two single parts, and its loss cuts their run again. -/
theorem runs_follow_neighbours_of_last_parts :
    let s := ((PartSet.empty.ask (.insert 4294967295)).after.ask (.insert 4294967293)).after
    let t := (s.ask (.insert 4294967294)).after
    (4294967294 ∉ s.members ∧
      Regroups s 4294967294 (s.insert 4294967294) (-1) "bridged two ranges") ∧
      (4294967294 ∈ t.members ∧ Regroups t 4294967294 (t.remove 4294967294) 1 "split range") ∧
      (s.ends.card = 2 ∧ t.ends.card = 1) := by
  intro s t
  have hs : Reachable s := .request _ (.request _ .empty)
  have ht : Reachable t := .request _ hs
  obtain ⟨hjoin, -, -, -, hends, -⟩ := runs_follow_neighbours hs 4294967294
  obtain ⟨-, hcut, -, -, hends', -⟩ := runs_follow_neighbours ht 4294967294
  have hnew : 4294967294 ∉ s.members := by decide +kernel
  have hheld : 4294967294 ∈ t.members := by decide +kernel
  have hbefore : s.heldBefore 4294967294 = 1 ∧ t.heldBefore 4294967294 = 1 := by decide +kernel
  have hafter : s.heldAfter 4294967294 = 1 ∧ t.heldAfter 4294967294 = 1 := by decide +kernel
  rw [hbefore.1, hafter.1] at hjoin
  rw [hbefore.2, hafter.2] at hcut
  exact ⟨⟨hnew, hjoin hnew⟩, ⟨hheld, hcut hheld⟩, hends.symm.trans (by decide +kernel),
    hends'.symm.trans (by decide +kernel)⟩

end IntWalk.PartSet
