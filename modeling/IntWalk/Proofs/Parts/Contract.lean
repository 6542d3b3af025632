import IntWalk.Proofs.Parts.Least
import IntWalk.Proofs.Parts.Reachable
import IntWalk.Proofs.Sequence.Recount

/-!
# Walks over a part set meet the contract

A walk over a part set does what the walk over the list of its parts does: the bound
of the one lies where the other is cut in two, whatever removals have done to the
runs.  So it meets the contract as the walk over the list does.
-/

namespace IntWalk.PartSet

namespace Walk

open Step (Alike)

variable {w : Walk} {u : Sequence.Walk Part} {p : Part}

/-! ## The bound and the cut -/

/-- The bound lies between what is behind the cut and what is ahead of it. -/
def Bounds (lower : Option Part) (behind ahead : List Part) : Prop :=
  match lower with
  | none => ahead = []
  | some l => (∀ p ∈ behind, p < l) ∧ ∀ p ∈ ahead, l ≤ p

lemma Bounds.tail {lower : Option Part} {behind ahead : List Part}
    (h : Bounds lower (p :: behind) ahead) : Bounds lower behind ahead := by
  cases lower with
  | none => exact h
  | some l => exact ⟨fun q hq => h.1 q (List.mem_cons_of_mem p hq), h.2⟩

/-- The walk over a set follows the walk over the list of its parts. -/
structure Follows (w : Walk) (u : Sequence.Walk Part) : Prop where
  canonical : Canonical w.parts.runs.toList
  parts : w.parts.toList = u.behind.reverse ++ u.ahead
  progress : w.progress = u.progress
  bound : Bounds w.lower u.behind u.ahead
  current : u.progress.standing = .returned → ∃ p rest, w.current = some p ∧ u.behind = p :: rest

lemma follows_walk {s : PartSet} (h : Canonical s.runs.toList) :
    Follows s.walk (Sequence.walk ⟨s.toList⟩) where
  canonical := h
  parts := rfl
  progress := rfl
  bound := ⟨by simp [Sequence.walk], fun p _ => UInt32.zero_le⟩
  current := nofun

/-- The part that comes next is the first one ahead. -/
lemma Follows.peek (h : Follows w u) : w.peek = u.ahead.head? := by
  have hbound := h.bound
  rw [Walk.peek]
  cases hl : w.lower with
  | none =>
    rw [hl] at hbound
    rw [show u.ahead = [] from hbound]
    rfl
  | some l =>
    rw [hl] at hbound
    obtain ⟨hbehind, hahead⟩ := hbound
    have hbehind : ∀ q ∈ u.behind.reverse, q < l := fun q hq => hbehind q (List.mem_reverse.1 hq)
    have hsorted := pairwise_toList h.canonical
    rw [h.parts] at hsorted
    refine Option.ext fun p => ?_
    rw [Option.bind_some, leastFrom_eq_some_iff h.canonical,
      head?_ahead_eq_some_iff hsorted hbehind hahead]
    simp only [← h.parts, mem_toList]

/-- Past a part lie the greater ones, of which the next is the least. -/
lemma bounds_next? {behind ahead : List Part} (hb : ∀ q ∈ behind, q < p) (ha : ∀ q ∈ ahead, p < q) :
    Bounds p.next? (p :: behind) ahead := by
  cases hn : p.next? with
  | none =>
    refine List.eq_nil_iff_forall_not_mem.2 fun q hq => ?_
    have hlt := UInt32.lt_iff_toNat_lt.1 (ha q hq)
    have := Part.toNat_lt q
    rw [Part.next?_eq_none_iff.1 hn, Part.toNat_last] at hlt
    omega
  | some n =>
    have hn := Part.next?_eq_some_iff.1 hn
    refine ⟨fun q hq => ?_, fun q hq => ?_⟩
    · rw [UInt32.lt_iff_toNat_lt]
      rcases List.mem_cons.1 hq with rfl | hq
      · omega
      · have := UInt32.lt_iff_toNat_lt.1 (hb q hq)
        omega
    · have := UInt32.lt_iff_toNat_lt.1 (ha q hq)
      rw [UInt32.le_iff_toNat_le]
      omega

/-! ## The three calls -/

lemma Follows.next (h : Follows w u) : Alike Follows w.next u.next := by
  have hpeek := h.peek
  rw [Walk.next, Sequence.Walk.next, h.progress]
  cases ha : u.ahead with
  | nil =>
    rw [ha] at hpeek
    rw [hpeek]
    exact ⟨rfl, h⟩
  | cons p rest =>
    rw [ha] at hpeek
    rw [hpeek]
    -- the part moves across the cut, and the bound with it
    refine Alike.still _ ⟨h.canonical, ?_, rfl, ?_, fun _ => ⟨p, u.behind, rfl, rfl⟩⟩
    · rw [h.parts, ha, List.reverse_cons, List.append_assoc]
      rfl
    · have hsorted := pairwise_toList h.canonical
      rw [h.parts, ha, List.pairwise_append, List.pairwise_cons] at hsorted
      refine bounds_next? (fun q hq => ?_) hsorted.2.1.1
      exact hsorted.2.2 q (List.mem_reverse.2 hq) p (List.mem_cons_self ..)

/-- A removal while the part given out last is there. -/
lemma remove_of_current (hs : w.progress.standing = .returned) (hc : w.current = some p) :
    w.remove = ⟨.ok (), ⟨(w.parts.remove p).after, w.lower, none, ⟨.removed, w.progress.yielded⟩⟩,
      (w.parts.remove p).events ++ [.dropped p]⟩ := by
  have hclaim : w.progress.claimRemoval = .ok ⟨.removed, w.progress.yielded⟩ :=
    Progress.claimRemoval_eq_ok_iff.2 ⟨hs, rfl⟩
  rw [Walk.remove, hclaim, hc]

lemma Follows.remove (h : Follows w u) : Alike Follows w.remove u.remove := by
  cases hclaim : u.progress.claimRemoval with
  | error why =>
    rw [Walk.remove, Sequence.Walk.remove, h.progress, hclaim]
    exact Alike.still _ h
  | ok progress =>
    -- the part given out last is the first one behind the cut, so only it goes
    obtain ⟨hs, rfl⟩ := Progress.claimRemoval_eq_ok_iff.1 hclaim
    obtain ⟨p, rest, hc, hb⟩ := h.current hs
    rw [remove_of_current (h.progress ▸ hs) hc, Sequence.Walk.remove, hclaim]
    have hparts := h.parts
    rw [hb, List.reverse_cons, List.append_assoc] at hparts
    refine ⟨rfl, canonical_remove h.canonical p, ?_, ?_, ?_, ?_⟩
    · rw [hb]
      exact toList_remove h.canonical hparts
    · show (⟨.removed, w.progress.yielded⟩ : Progress) = ⟨.removed, u.progress.yielded⟩
      rw [h.progress]
    · have hbound := h.bound
      rw [hb] at hbound ⊢
      exact hbound.tail
    · intro hs
      cases hs

lemma mirrors_follows : Cursor.Mirrors Follows where
  hasNext w u h := by
    refine ⟨?_, h⟩
    show w.peek.isSome = !u.ahead.isEmpty
    rw [h.peek]
    cases u.ahead <;> rfl
  next _ _ h := h.next
  remove _ _ h := h.remove

/-! ## What the history says -/

/-- The set holds the parts that it had but for those taken out. -/
lemma Follows.members_eq (h : Follows w u) {s : PartSet} (hs : Canonical s.runs.toList)
    {rs : List (Reply Part)} (hrs : u.Recounts s.toList rs) :
    w.parts.members = s.members \ (takenOut rs).toFinset := by
  ext p
  have hvalues := hrs.mem_values_iff (v := p) (nodup_toList hs)
  rw [Finset.mem_sdiff, mem_members, mem_members, List.mem_toFinset, ← mem_toList, h.parts,
    ← mem_toList]
  exact hvalues

/-- A removal that may be made is one of the part given out last. -/
lemma Follows.remove_eq (h : Follows w u) {xs : List Part} {rs : List (Reply Part)}
    (hrs : u.Recounts xs rs) (hremovable : Removable rs) :
    ∃ p, (givenOut rs).getLast? = some p ∧ p ∈ w.parts ∧
      w.remove = ⟨.ok (), ⟨(w.parts.remove p).after, w.lower, none,
        ⟨.removed, w.progress.yielded⟩⟩, (w.parts.remove p).events ++ [.dropped p]⟩ := by
  have hstanding := hrs.returned.2 hremovable
  obtain ⟨p, rest, hcurrent, hbehind⟩ := h.current hstanding
  obtain ⟨earlier, v, hgiven, -, hlast⟩ := hrs.exists_behind_eq hstanding
  obtain rfl : p = v := (List.cons.inj (hbehind.symm.trans hlast)).1
  refine ⟨p, ?_, ?_, remove_of_current (h.progress ▸ hstanding) hcurrent⟩
  · rw [hgiven, List.getLast?_concat]
  · rw [← mem_toList, h.parts, hbehind]
    simp

/-- It takes that part out. -/
lemma Follows.exists_erase (h : Follows w u) {xs : List Part} {rs : List (Reply Part)}
    (hrs : u.Recounts xs rs) (hremovable : Removable rs) :
    ∃ p, (givenOut rs).getLast? = some p ∧ p ∈ w.parts ∧
      w.remove.after.parts.members = w.parts.members.erase p := by
  obtain ⟨p, hlast, hp, hremove⟩ := h.remove_eq hrs hremovable
  refine ⟨p, hlast, hp, ?_⟩
  rw [hremove]
  exact members_remove h.canonical p

end Walk

/-! ## Whole walks -/

/-- A walk over a set is followed by a walk over its parts that has the same history. -/
lemma exists_follows {s : PartSet} (h : Canonical s.runs.toList) (ps : List Primitive) :
    ∃ u, Walk.Follows (Cursor.performAll (ps.map Primitive.call) s.walk).after u ∧
      u.Recounts s.toList (Cursor.performAll (ps.map Primitive.call) s.walk).answer :=
  Walk.mirrors_follows.exists_recounts (Walk.follows_walk h) ps

/-- Whatever the calls on a walk over a set were, the walk gives out the parts of the
set in ascending order, and its removals take out the part given out last and no
other. -/
theorem walk_contract_of_reachable {s : PartSet} (hs : Reachable s) (ps : List Primitive) :
    let x := Cursor.performAll (ps.map Primitive.call) s.walk
    (s.toList.Pairwise (· < ·) ∧ ∀ p, p ∈ s.toList ↔ p ∈ s) ∧
    Cursor.Contract s.toList x.answer x.after x.after.progress ∧
    x.after.parts.members = s.members \ (takenOut x.answer).toFinset ∧
    (Removable x.answer → ∃ p, (givenOut x.answer).getLast? = some p ∧ p ∈ x.after.parts ∧
      x.after.remove.after.parts.members = x.after.parts.members.erase p) := by
  intro x
  have h := hs.canonical
  obtain ⟨u, hfollows, hrecounts⟩ := exists_follows h ps
  have hmet := Walk.mirrors_follows.contract hfollows hrecounts.contract
  rw [← hfollows.progress] at hmet
  exact ⟨⟨pairwise_toList h, fun p => mem_toList⟩, hmet, hfollows.members_eq h hrecounts,
    hfollows.exists_erase hrecounts⟩

/-- A walk over the last three parts that cuts their run and then shortens it. -/
theorem walk_contract_to_last :
    let s := (((PartSet.empty.ask (.insert 4294967295)).after.ask
      (.insertSigned 4294967293)).after.ask (.insert 4294967294)).after
    let x := Cursor.performAll ([.next, .next, .remove, .next, .next, .remove, .remove].map
      Primitive.call) s.walk
    Cursor.Contract s.toList x.answer x.after x.after.progress ∧
    x.after.parts.members = s.members \ (takenOut x.answer).toFinset := by
  intro s x
  have hs : Reachable s := .request _ (.request _ (.request _ .empty))
  obtain ⟨-, met, members, -⟩ := walk_contract_of_reachable hs
    [.next, .next, .remove, .next, .next, .remove, .remove]
  exact ⟨met, members⟩

end IntWalk.PartSet
