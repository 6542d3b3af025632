import IntWalk.Proofs.Bits.Reachable
import IntWalk.Proofs.Sequence.Recount

/-!
# Walks over a bit set meet the contract

A walk over a bit set does what the walk over the list of its members does: its place
lies where the list is cut in two.  A removal clears the digit before the place without
a look at it.  This is the member given out last, since the place moves only when a
member is given out, and a removal must follow before the next one.
-/

namespace IntWalk.BitSet

namespace Walk

open Step (Alike)

variable {w : Walk} {u : Sequence.Walk Nat} {v : Nat}

/-! ## The place and the cut -/

/-- The member that comes next is the least one from the place on. -/
lemma peek_eq_some_iff :
    w.peek = some v ↔ v ∈ w.bits ∧ w.scanFrom ≤ v ∧ ∀ u ∈ w.bits, w.scanFrom ≤ u → v ≤ u := by
  rw [peek, Ones.nextFrom?_eq_some_iff, ← mem_def]
  constructor
  · rintro ⟨hle, hv, zeros⟩
    refine ⟨hv, hle, fun u hu hplace => Nat.not_lt.1 fun hlt => ?_⟩
    rw [mem_def, zeros u hplace hlt] at hu
    cases hu
  · rintro ⟨hv, hle, hleast⟩
    refine ⟨hle, hv, fun u hplace hlt => ?_⟩
    rw [← Bool.not_eq_true, ← mem_def]
    intro hu
    have := hleast u hu hplace
    omega

/-- The walk over a set follows the walk over the list of its members. -/
structure Follows (w : Walk) (u : Sequence.Walk Nat) : Prop where
  members : w.bits.toList = u.behind.reverse ++ u.ahead
  progress : w.progress = u.progress
  behind : ∀ v ∈ u.behind, v < w.scanFrom
  ahead : ∀ v ∈ u.ahead, w.scanFrom ≤ v
  current : u.progress.standing = .returned → ∃ v rest, w.scanFrom = v + 1 ∧ u.behind = v :: rest

lemma follows_walk (s : BitSet) : Follows s.walk (Sequence.walk ⟨s.toList⟩) where
  members := rfl
  progress := rfl
  behind := by simp [Sequence.walk]
  ahead v _ := Nat.zero_le v
  current := nofun

/-- The member that comes next is the first one ahead. -/
lemma Follows.peek (h : Follows w u) : w.peek = u.ahead.head? := by
  have hsorted := pairwise_toList w.bits
  rw [h.members] at hsorted
  have hbehind : ∀ v ∈ u.behind.reverse, v < w.scanFrom :=
    fun v hv => h.behind v (List.mem_reverse.1 hv)
  refine Option.ext fun v => ?_
  rw [peek_eq_some_iff, head?_ahead_eq_some_iff hsorted hbehind h.ahead]
  simp only [← h.members, mem_toList]

/-! ## The three calls -/

lemma Follows.next (h : Follows w u) : Alike Follows w.next u.next := by
  have hpeek := h.peek
  rw [Walk.next, Sequence.Walk.next, h.progress]
  cases ha : u.ahead with
  | nil =>
    rw [ha] at hpeek
    rw [hpeek]
    exact ⟨rfl, h⟩
  | cons v rest =>
    rw [ha] at hpeek
    rw [hpeek]
    have hplace : w.scanFrom ≤ v := h.ahead v (ha ▸ List.mem_cons_self ..)
    have hsorted := pairwise_toList w.bits
    rw [h.members, ha, List.pairwise_append, List.pairwise_cons] at hsorted
    -- the member moves across the cut, and the place behind it
    refine Alike.still _ ⟨?_, rfl, ?_, hsorted.2.1.1, fun _ => ⟨v, u.behind, rfl, rfl⟩⟩
    · rw [h.members, ha, List.reverse_cons, List.append_assoc]
      rfl
    · intro v' hv'
      show v' < v + 1
      rcases List.mem_cons.1 hv' with rfl | hv'
      · exact Nat.lt_succ_self _
      · have := h.behind v' hv'
        omega

/-- A removal while the member before the place may be removed. -/
lemma remove_of_returned (hs : w.progress.standing = .returned) (hv : w.scanFrom = v + 1) :
    w.remove = ⟨.ok (), ⟨w.bits.clear v, v + 1, ⟨.removed, w.progress.yielded⟩⟩,
      [.cleared v (w.bits.clear v).size]⟩ := by
  have hclaim : w.progress.claimRemoval = .ok ⟨.removed, w.progress.yielded⟩ :=
    Progress.claimRemoval_eq_ok_iff.2 ⟨hs, rfl⟩
  rw [Walk.remove, hclaim, hv]
  rfl

lemma Follows.remove (h : Follows w u) : Alike Follows w.remove u.remove := by
  cases hclaim : u.progress.claimRemoval with
  | error why =>
    rw [Walk.remove, Sequence.Walk.remove, h.progress, hclaim]
    exact Alike.still _ h
  | ok progress =>
    -- the member before the place is the first one behind the cut, so only it goes
    obtain ⟨hs, rfl⟩ := Progress.claimRemoval_eq_ok_iff.1 hclaim
    obtain ⟨v, rest, hplace, hbehind⟩ := h.current hs
    rw [remove_of_returned (h.progress ▸ hs) hplace, Sequence.Walk.remove, hclaim]
    have hmembers := h.members
    rw [hbehind, List.reverse_cons, List.append_assoc] at hmembers
    refine ⟨rfl, ?_, ?_, ?_, ?_, ?_⟩
    · rw [hbehind]
      exact toList_clear hmembers
    · show (⟨.removed, w.progress.yielded⟩ : Progress) = ⟨.removed, u.progress.yielded⟩
      rw [h.progress]
    · intro v' hv'
      have := h.behind v' (List.mem_of_mem_tail hv')
      rwa [hplace] at this
    · intro v' hv'
      have := h.ahead v' hv'
      rwa [hplace] at this
    · intro hs
      cases hs

lemma mirrors_follows : Cursor.Mirrors Follows where
  hasNext w u h := by
    refine ⟨?_, h⟩
    show w.peek.isSome = !u.ahead.isEmpty
    rw [h.peek]
    cases u.ahead <;> rfl
  next _ _ h := h.next
  remove _ _ h := h.remove

/-- The place stays within the capacity: it is at most one past a member. -/
lemma keeps_scanFrom_le : Cursor.Keeps fun w : Walk => w.scanFrom ≤ w.bits.capacity where
  hasNext _ h := h
  next w h := by
    show w.next.after.scanFrom ≤ w.next.after.bits.capacity
    rw [next]
    split
    · exact h
    · next v hpeek => exact lt_capacity_of_mem (peek_eq_some_iff.1 hpeek).1
  remove w h := by
    show w.remove.after.scanFrom ≤ w.remove.after.bits.capacity
    rw [remove]
    split
    · exact h
    · exact h

/-! ## What the history says -/

/-- The set holds the members that it had but for those taken out. -/
lemma Follows.members_eq (h : Follows w u) {s : BitSet} {rs : List (Reply Nat)}
    (hrs : u.Recounts s.toList rs) :
    w.bits.members = s.members \ (takenOut rs).toFinset := by
  ext v
  have hvalues := hrs.mem_values_iff (v := v) (nodup_toList s)
  rw [Finset.mem_sdiff, mem_members, mem_members, List.mem_toFinset, ← mem_toList, h.members,
    ← mem_toList]
  exact hvalues

/-- A removal that may be made is one of the member given out last. -/
lemma Follows.remove_eq (h : Follows w u) {xs : List Nat} {rs : List (Reply Nat)}
    (hrs : u.Recounts xs rs) (hremovable : Removable rs) :
    ∃ v, (givenOut rs).getLast? = some v ∧ v ∈ w.bits ∧
      w.remove = ⟨.ok (), ⟨w.bits.clear v, v + 1, ⟨.removed, w.progress.yielded⟩⟩,
        [.cleared v (w.bits.clear v).size]⟩ := by
  have hstanding := hrs.returned.2 hremovable
  obtain ⟨v, rest, hplace, hbehind⟩ := h.current hstanding
  obtain ⟨earlier, v', hgiven, -, hlast⟩ := hrs.exists_behind_eq hstanding
  obtain rfl : v = v' := (List.cons.inj (hbehind.symm.trans hlast)).1
  refine ⟨v, ?_, ?_, remove_of_returned (h.progress ▸ hstanding) hplace⟩
  · rw [hgiven, List.getLast?_concat]
  · rw [← mem_toList, h.members, hbehind]
    simp

/-- It clears that member. -/
lemma Follows.exists_clear (h : Follows w u) {xs : List Nat} {rs : List (Reply Nat)}
    (hrs : u.Recounts xs rs) (hremovable : Removable rs) :
    ∃ v, (givenOut rs).getLast? = some v ∧ v ∈ w.bits ∧
      w.remove.after.bits = w.bits.clear v := by
  obtain ⟨v, hlast, hv, hremove⟩ := h.remove_eq hrs hremovable
  exact ⟨v, hlast, hv, by rw [hremove]⟩

end Walk

/-! ## Whole walks -/

variable {s s₀ : BitSet}

/-- Whatever the calls on a walk over a set were, the walk gives out the members of the
set in ascending order, and its removals clear the member given out last and count it
off. -/
theorem walk_contract_of_reaches (h₀ : Origin s₀) (h : Reaches s₀ s) (ps : List Primitive) :
    let x := Cursor.performAll (ps.map Primitive.call) s.walk
    (s.toList.Pairwise (· < ·) ∧ ∀ v, v ∈ s.toList ↔ v ∈ s) ∧
    Cursor.Contract s.toList x.answer x.after x.after.progress ∧
    x.after.bits.members = s.members \ (takenOut x.answer).toFinset ∧
    (x.after.scanFrom ≤ s.capacity ∧ x.after.bits.capacity = s.capacity) ∧
    (Removable x.answer → ∃ v, (givenOut x.answer).getLast? = some v ∧ v ∈ x.after.bits ∧
      x.after.remove.after.bits.members = x.after.bits.members.erase v ∧
      x.after.remove.after.bits.size + 1 = x.after.bits.size) := by
  intro x
  obtain ⟨u, hfollows, hrecounts⟩ :=
    Walk.mirrors_follows.exists_recounts (Walk.follows_walk s) ps
  have hmet := Walk.mirrors_follows.contract hfollows hrecounts.contract
  rw [← hfollows.progress] at hmet
  obtain ⟨haccurate, -⟩ := h.accurate h₀.accurate
  have hsound : Walk.Sound s.capacity x.after :=
    (Walk.keeps_sound s.capacity).performAll _ ⟨rfl, haccurate, nofun⟩
  have hplace : x.after.scanFrom ≤ x.after.bits.capacity :=
    Walk.keeps_scanFrom_le.performAll _ (Nat.zero_le s.capacity)
  refine ⟨⟨pairwise_toList s, fun v => mem_toList⟩, hmet, hfollows.members_eq hrecounts,
    ⟨hsound.capacity ▸ hplace, hsound.capacity⟩, fun hremovable => ?_⟩
  obtain ⟨v, hlast, hv, hclear⟩ := hfollows.exists_clear hrecounts hremovable
  refine ⟨v, hlast, hv, ?_, ?_⟩
  · rw [hclear, members_clear]
  · -- the size is that of the members, of which `v` is one
    have hpos : 0 < x.after.bits.size := by
      rw [hsound.accurate, Finset.card_pos]
      exact ⟨v, mem_members.2 hv⟩
    rw [hclear]
    exact Nat.sub_add_cancel hpos

/-- A walk that removes the greatest member that has room, after a read past the end. -/
theorem walk_contract_at_capacity :
    let s := (((BitSet.ofCapacity ⟨6, by decide, by decide⟩).ask (.insert 2)).after.ask
      (.insert 5)).after
    let x := Cursor.performAll ([.next, .remove, .next, .next, .remove, .remove].map
      Primitive.call) s.walk
    Cursor.Contract s.toList x.answer x.after x.after.progress ∧
    x.after.bits.members = s.members \ (takenOut x.answer).toFinset ∧
    x.after.scanFrom ≤ 6 := by
  intro s x
  have h : Reaches _ s := .request _ (.request _ .refl)
  obtain ⟨-, met, members, ⟨place, -⟩, -⟩ := walk_contract_of_reaches (.ofCapacity _) h
    [.next, .remove, .next, .next, .remove, .remove]
  exact ⟨met, members, place⟩

end IntWalk.BitSet
