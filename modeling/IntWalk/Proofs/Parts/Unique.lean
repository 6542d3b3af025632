import IntWalk.Proofs.Parts.Reachable
import IntWalk.Proofs.Parts.Text

/-!
# One list of runs for one set of parts

The runs of a canonical list are the longest stretches of the parts that they hold.  So
they are determined by the parts, and a set that a program can come to does not depend on
the way to it.
-/

namespace IntWalk.PartSet

variable {s a b : PartSet} {p : Part}

/-! ## Lists of runs -/

namespace Canonical

variable {x y : Run} {xs ys : List Run}

/-- The parts of the later runs come after the first run, and not right after it. -/
lemma last_add_one_lt_of_mem (h : Canonical (x :: xs)) (hp : ∃ r ∈ xs, p ∈ r) :
    x.last.toNat + 1 < p.toNat := by
  obtain ⟨r, hr, hp⟩ := hp
  have hsep : x.last.toNat + 1 < r.first.toNat := (cons_iff.1 h).2.2 r hr
  have hfirst := (Run.mem_iff_toNat.1 hp).1
  omega

lemma first_le_of_mem (h : Canonical (x :: xs)) (hp : ∃ r ∈ x :: xs, p ∈ r) :
    x.first.toNat ≤ p.toNat := by
  have hle := h.first_le_last (List.mem_cons_self ..)
  rcases (List.exists_mem_cons_iff ..).1 hp with hp | hp
  · exact (Run.mem_iff_toNat.1 hp).1
  · have := h.last_add_one_lt_of_mem hp
    omega

lemma exists_mem_tail_iff (h : Canonical (x :: xs)) :
    (∃ r ∈ xs, p ∈ r) ↔ (∃ r ∈ x :: xs, p ∈ r) ∧ x.last.toNat < p.toNat := by
  constructor
  · intro hp
    have := h.last_add_one_lt_of_mem hp
    exact ⟨(List.exists_mem_cons_iff ..).2 (.inr hp), by omega⟩
  · rintro ⟨hp, hlt⟩
    rcases (List.exists_mem_cons_iff ..).1 hp with hp | hp
    · have := (Run.mem_iff_toNat.1 hp).2
      omega
    · exact hp

/-- The first run ends where its stretch of parts does. -/
lemma last_le_of_forall_mem (h : Canonical (x :: xs)) (hfirst : y.first.toNat ≤ x.first.toNat)
    (hmem : ∀ p ∈ y, ∃ r ∈ x :: xs, p ∈ r) : y.last.toNat ≤ x.last.toNat := by
  by_contra hlt
  rw [Nat.not_le] at hlt
  have hle := h.first_le_last (List.mem_cons_self ..)
  -- otherwise the part right after the run is held by no run
  have hnext : (x.last + 1).toNat = x.last.toNat + 1 :=
    Run.toNat_add_one (UInt32.lt_iff_toNat_lt.2 hlt)
  have hp : x.last + 1 ∈ y := by
    rw [Run.mem_iff_toNat, hnext]
    omega
  have htail : ∃ r ∈ xs, x.last + 1 ∈ r := by
    rw [h.exists_mem_tail_iff, hnext]
    exact ⟨hmem _ hp, Nat.lt_succ_self _⟩
  have := h.last_add_one_lt_of_mem htail
  omega

lemma exists_mem_first (h : Canonical (x :: xs)) : ∃ r ∈ x :: xs, x.first ∈ r :=
  ⟨x, List.mem_cons_self .., Run.nonempty (cons_iff.1 h).1⟩

/-- Canonical lists that hold the same parts begin with the same run. -/
lemma head_eq_of_mem_iff (hx : Canonical (x :: xs)) (hy : Canonical (y :: ys))
    (h : ∀ p, (∃ r ∈ x :: xs, p ∈ r) ↔ ∃ r ∈ y :: ys, p ∈ r) : x = y := by
  have hxy : y.first.toNat ≤ x.first.toNat := hy.first_le_of_mem ((h _).1 hx.exists_mem_first)
  have hyx : x.first.toNat ≤ y.first.toNat := hx.first_le_of_mem ((h _).2 hy.exists_mem_first)
  have hlast : y.last.toNat ≤ x.last.toNat :=
    hx.last_le_of_forall_mem hxy fun p hp => (h p).2 ⟨y, List.mem_cons_self .., hp⟩
  have hlast' : x.last.toNat ≤ y.last.toNat :=
    hy.last_le_of_forall_mem hyx fun p hp => (h p).1 ⟨x, List.mem_cons_self .., hp⟩
  cases x
  cases y
  rw [Run.mk.injEq]
  exact ⟨UInt32.toNat_inj.1 (Nat.le_antisymm hyx hxy),
    UInt32.toNat_inj.1 (Nat.le_antisymm hlast' hlast)⟩

/-- A canonical list of runs is determined by the parts that it holds. -/
theorem eq_of_mem_iff (hx : Canonical xs) (hy : Canonical ys)
    (h : ∀ p, (∃ r ∈ xs, p ∈ r) ↔ ∃ r ∈ ys, p ∈ r) : xs = ys := by
  induction xs generalizing ys with
  | nil =>
    cases ys with
    | nil => rfl
    | cons y ys =>
      obtain ⟨r, hr, -⟩ := (h _).2 hy.exists_mem_first
      cases hr
  | cons x xs ih =>
    cases ys with
    | nil =>
      obtain ⟨r, hr, -⟩ := (h _).1 hx.exists_mem_first
      cases hr
    | cons y ys =>
      obtain rfl := head_eq_of_mem_iff hx hy h
      -- the rests hold what comes after the run that they have in common
      have htail : ∀ p, (∃ r ∈ xs, p ∈ r) ↔ ∃ r ∈ ys, p ∈ r := by
        intro p
        rw [hx.exists_mem_tail_iff, hy.exists_mem_tail_iff, h]
      rw [ih (cons_iff.1 hx).2.1 (cons_iff.1 hy).2.1 htail]

end Canonical

/-! ## Sets -/

section Sets

variable (ha : Canonical a.runs.toList) (hb : Canonical b.runs.toList)
include ha hb

lemma eq_of_members_eq (h : a.members = b.members) : a = b := by
  have hruns : a.runs.toList = b.runs.toList := by
    refine ha.eq_of_mem_iff hb fun p => ?_
    rw [← mem_def, ← mem_def, ← mem_members, ← mem_members, h]
  cases a
  cases b
  exact congrArg PartSet.mk (Array.toList_inj.1 hruns)

lemma eq_iff_contains : a = b ↔ ∀ p, a.contains p = b.contains p := by
  constructor
  · rintro rfl p
    rfl
  · intro h
    refine eq_of_members_eq ha hb (Finset.ext fun p => ?_)
    rw [mem_members, mem_members, ← contains_eq_true_iff ha, ← contains_eq_true_iff hb, h]

/-- Different sets have different texts, for each is read back from its own. -/
lemma eq_iff_encode : a = b ↔ a.encode = b.encode := by
  constructor
  · exact congrArg encode
  · intro h
    have hread := decode_encode ha
    rw [h, decode_encode hb] at hread
    exact (Except.ok.inj hread).symm

end Sets

section Changes

variable (h : Canonical s.runs.toList)
include h

lemma canonical_insertAll (ps : List Part) : Canonical (insertAll ps s).after.runs.toList := by
  induction ps generalizing s with
  | nil => exact h
  | cons p ps ih => exact ih (canonical_insert h p)

lemma members_insertAll (ps : List Part) :
    (insertAll ps s).after.members = ps.toFinset ∪ s.members := by
  induction ps generalizing s with
  | nil => exact (Finset.empty_union _).symm
  | cons p ps ih =>
    show (insertAll ps (s.insert p).after).after.members = _
    rw [ih (canonical_insert h p), members_insert h, List.toFinset_cons, Finset.union_insert,
      Finset.insert_union]

/-- Neither the order of the parts nor their repetition matters. -/
lemma insertAll_eq {ps qs : List Part} (hmem : ∀ p, p ∈ ps ↔ p ∈ qs) :
    (insertAll ps s).after = (insertAll qs s).after := by
  refine eq_of_members_eq (canonical_insertAll h ps) (canonical_insertAll h qs) ?_
  rw [members_insertAll h, members_insertAll h, List.toFinset.ext hmem]

lemma remove_insert (hp : p ∉ s) : ((s.insert p).after.remove p).after = s := by
  have hinsert := canonical_insert h p
  refine eq_of_members_eq (canonical_remove hinsert p) h ?_
  rw [members_remove hinsert, members_insert h, Finset.erase_insert (by rwa [mem_members])]

lemma insert_remove (hp : p ∈ s) : ((s.remove p).after.insert p).after = s := by
  have hremove := canonical_remove h p
  refine eq_of_members_eq (canonical_insert hremove p) h ?_
  rw [members_insert hremove, members_remove h, Finset.insert_erase (by rwa [mem_members])]

end Changes

/-- A set that a program can come to is the only one with its parts, and the only one with
its text.  So the same parts may arrive in any order and any number of times, and a part
that is new may be taken away again, and one that was there be put back. -/
theorem canonical_form_of_reachable (ha : Reachable a) (hb : Reachable b) :
    (a = b ↔ ∀ p, a.contains p = b.contains p) ∧ (a = b ↔ a.encode = b.encode) ∧
    (∀ ps qs : List Part, (∀ p, p ∈ ps ↔ p ∈ qs) →
      (insertAll ps a).after = (insertAll qs a).after) ∧
    (∀ p, a.contains p = false → ((a.insert p).after.remove p).after = a) ∧
    ∀ p, a.contains p = true → ((a.remove p).after.insert p).after = a := by
  have h := ha.canonical
  refine ⟨eq_iff_contains h hb.canonical, eq_iff_encode h hb.canonical,
    fun ps qs => insertAll_eq h, fun p hp => ?_, fun p hp => ?_⟩
  · refine remove_insert h fun hmem => ?_
    rw [(contains_eq_true_iff h).2 hmem] at hp
    cases hp
  · exact insert_remove h ((contains_eq_true_iff h).1 hp)

/-- The same three parts, once joined by the middle one and once with a fourth that was
cut off again. -/
theorem canonical_form_of_joined_and_cut :
    let a := ((PartSet.empty.ask (.insert 0)).after.ask (.insertSigned 2)).after
    let b := ((PartSet.empty.ask (.insert 2)).after.ask (.insert 0)).after
    (a = b ∧ a.encode = b.encode) ∧
      (insertAll [1, 3] a).after = (insertAll [3, 3, 1] a).after ∧
      ((a.insert 1).after.remove 1).after = a ∧ ((a.remove 2).after.insert 2).after = a := by
  intro a b
  have ha : Reachable a := .request _ (.request _ .empty)
  have hb : Reachable b := .request _ (.request _ .empty)
  obtain ⟨-, htext, hall, hinsert, hremove⟩ := canonical_form_of_reachable ha hb
  have hab : a = b := by decide +kernel
  exact ⟨⟨hab, htext.1 hab⟩, hall _ _ (by simp [or_comm]), hinsert 1 (by decide +kernel),
    hremove 2 (by decide +kernel)⟩

/-- A part that was there before its arrival is not restored by its loss, nor is its lack
restored by its arrival. -/
theorem remove_insert_ne_of_held :
    let s := (PartSet.empty.ask (.insert 3)).after
    Reachable s ∧ ((s.insert 3).after.remove 3).after ≠ s ∧
      Reachable .empty ∧ ((PartSet.empty.remove 3).after.insert 3).after ≠ .empty := by
  intro s
  have hs : Reachable s := .request _ .empty
  exact ⟨hs, by decide +kernel, .empty, by decide +kernel⟩

end IntWalk.PartSet
