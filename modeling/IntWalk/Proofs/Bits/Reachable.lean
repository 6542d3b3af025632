import IntWalk.Bits.Text
import IntWalk.Bits.Walk
import IntWalk.Proofs.Bits.Members
import IntWalk.Proofs.Cursor.Path
import IntWalk.Proofs.Json.Yields
import IntWalk.Proofs.Request

/-!
# Reachable bit sets

A bit set comes into being empty, out of a list or out of a text, and is then changed
by requests and by walks.  The size is kept in four places; it remains the number of
members in all of them, and the capacity never changes.
-/

namespace IntWalk.BitSet

open Json

variable {s t s₀ : BitSet}

/-- Puts one request to the set. -/
def ask : Request Nat → BitSet → Step Event BitSet Answer
  | .insert v, s => (s.insert v).map .stored
  | .insertSigned n, s => (s.insertSigned n).map .stored
  | .remove v, s => (s.remove v).map .flag
  | .contains v, s => .still (.flag (s.contains v)) s
  | .size, s => .still (.total s.size) s
  | .isEmpty, s => .still (.flag s.isEmpty) s

/-- The sets that a program can start from. -/
inductive Origin : BitSet → Prop
  | ofCapacity (c : Capacity) : Origin (.ofCapacity c)
  | ofList {values : List Nat} {s : BitSet} : BitSet.ofList values = .ok s → Origin s
  | decoded {text : String} {s : BitSet} : BitSet.decode text = .ok s → Origin s

/-- The sets that a program can come to from `s₀`.  A walk may be dropped after any of
its calls and leaves the set as it is then. -/
inductive Reaches (s₀ : BitSet) : BitSet → Prop
  | refl : Reaches s₀ s₀
  | request {s : BitSet} (r : Request Nat) : Reaches s₀ s → Reaches s₀ (s.ask r).after
  | walk {s : BitSet} (calls : List (Call Nat)) : Reaches s₀ s →
      Reaches s₀ (Cursor.performAll calls s.walk).after.bits

/-! ## Origins -/

/-- A set is read only if its size is the number of its members. -/
lemma yields_reader : Reader.Yields reader Accurate := by
  refine .of_any fun b => ?_
  split
  · next s made =>
    rw [StoredBits.toBitSet] at made
    split at made
    · next counted =>
      cases made
      refine Reader.yields_pure ?_
      rw [Accurate, card_members]
      exact counted
    · cases made
  · exact Reader.yields_throw _

lemma accurate_of_insertAll {values : List Nat} (h : s.Accurate)
    (made : insertAll values s = .ok t) : t.Accurate := by
  induction values generalizing s with
  | nil =>
    cases made
    exact h
  | cons v vs ih =>
    -- an insertion that is refused ends the list
    rw [insertAll] at made
    split at made
    · exact ih (h.insert v) made
    · cases made

lemma Origin.accurate (h : Origin s) : s.Accurate := by
  cases h with
  | ofCapacity c => exact accurate_ofCapacity c
  | @ofList values _ made =>
    rw [BitSet.ofList] at made
    split at made
    · cases made
      exact accurate_empty
    · split at made
      · exact accurate_of_insertAll (accurate_ofCapacity _) made
      · cases made
  | decoded ok => exact yields_reader.of_decode ok

/-! ## Requests and walks -/

lemma accurate_ask (h : s.Accurate) (r : Request Nat) : (s.ask r).after.Accurate := by
  cases r with
  | insert v => exact h.insert v
  | insertSigned n =>
    show (s.insertSigned n).after.Accurate
    rcases insertSigned_after s n with hs | hs
    · rwa [hs]
    · rw [hs]
      exact h.insert _
  | remove v => exact h.remove v
  | contains | size | isEmpty => exact h

lemma capacity_ask (s : BitSet) (r : Request Nat) : (s.ask r).after.capacity = s.capacity := by
  cases r with
  | insert v => exact capacity_insert s v
  | insertSigned n =>
    show (s.insertSigned n).after.capacity = s.capacity
    rcases insertSigned_after s n with hs | hs
    · rw [hs]
    · rw [hs, capacity_insert]
  | remove v => exact capacity_remove s v
  | contains | size | isEmpty => rfl

namespace Walk

/-- The size is accurate, and the number before the place of the walk is a member while
it may be removed.  The removal counts down without a look at the mask, so it rests on
the latter. -/
structure Sound (capacity : Nat) (w : Walk) : Prop where
  capacity : w.bits.capacity = capacity
  accurate : w.bits.Accurate
  current : w.progress.standing = .returned → ∃ v, w.scanFrom = v + 1 ∧ v ∈ w.bits

lemma keeps_sound (capacity : Nat) : Cursor.Keeps (Sound capacity) where
  hasNext _ h := h
  next w h := by
    show Sound capacity w.next.after
    rw [next]
    split
    · exact h
    · next v hpeek =>
      obtain ⟨-, hv, -⟩ := Ones.nextFrom?_eq_some_iff.1 hpeek
      exact ⟨h.capacity, h.accurate, fun _ => ⟨v, rfl, hv⟩⟩
  remove w h := by
    show Sound capacity w.remove.after
    rw [remove]
    split
    · exact h
    · next progress hclaim =>
      -- a removal that is granted clears the member before the place
      obtain ⟨hs, rfl⟩ := Progress.claimRemoval_eq_ok_iff.1 hclaim
      obtain ⟨v, hscan, hv⟩ := h.current hs
      rw [hscan, Nat.add_sub_cancel]
      exact ⟨h.capacity, h.accurate.clear hv, nofun⟩

end Walk

lemma Reaches.accurate (h : Reaches s₀ s) (h₀ : s₀.Accurate) :
    s.Accurate ∧ s.capacity = s₀.capacity := by
  induction h with
  | refl => exact ⟨h₀, rfl⟩
  | @request s r _ ih => exact ⟨accurate_ask ih.1 r, (capacity_ask s r).trans ih.2⟩
  | @walk s calls _ ih =>
    have sound : Walk.Sound s.capacity s.walk := ⟨rfl, ih.1, nofun⟩
    have after := (Walk.keeps_sound s.capacity).performAll calls sound
    exact ⟨after.accurate, after.capacity.trans ih.2⟩

/-! ## Bit sets are finite sets -/

/-- The set answers every request as the finite set `S` of its members does, and
changes as `S` does; what has no room is refused. -/
structure Represents (s : BitSet) (S : Finset Nat) : Prop where
  ones : ∀ v, v ∈ S ↔ v < s.capacity ∧ s.mask.testBit v = true
  size : s.size = S.card
  insert : ∀ v < s.capacity, (s.insert v).answer = .ok (decide (v ∉ S)) ∧
    (s.insert v).after.members = Insert.insert v S
  outOfRange : ∀ v, s.capacity ≤ v →
    (s.insert v).answer = .error (.outOfRange v s.capacity) ∧ (s.insert v).after = s
  negative : ∀ n : Int, n < 0 →
    (s.insertSigned n).answer = .error (.negative n) ∧ (s.insertSigned n).after = s
  insertSigned : ∀ v ≤ largestValue, s.insertSigned v = s.insert v
  remove : ∀ v, ((s.remove v).answer = true ↔ v ∈ S) ∧ (s.remove v).after.members = S.erase v
  contains : ∀ v, s.contains v = true ↔ v ∈ S
  isEmpty : s.isEmpty = true ↔ S = ∅
  ascending : s.toList.Pairwise (· < ·)
  listed : ∀ v, v ∈ s.toList ↔ v ∈ S

lemma Accurate.represents (h : s.Accurate) : Represents s s.members where
  ones v := by
    rw [mem_members, ← mem_def]
    exact ⟨fun hv => ⟨lt_capacity_of_mem hv, hv⟩, And.right⟩
  size := h
  insert v hv := ⟨insert_answer hv, members_insert hv⟩
  outOfRange v hv := by
    rw [insert_of_le hv]
    exact ⟨rfl, rfl⟩
  negative n hn := by
    rw [insertSigned_of_neg hn]
    exact ⟨rfl, rfl⟩
  insertSigned v hv := insertSigned_of_le hv
  remove v := by
    rw [remove_answer_eq_true_iff, mem_members]
    exact ⟨Iff.rfl, members_remove s v⟩
  contains v := by rw [contains_eq_true_iff, mem_members]
  isEmpty := h.isEmpty_eq_true_iff
  ascending := pairwise_toList s
  listed v := by rw [mem_toList, mem_members]

/-- Whatever was done to a set, it stands for the finite set of its members and has
the capacity that it had at the start, in the middle of a walk over it as well. -/
theorem represents_members_of_reaches (h₀ : Origin s₀) (h : Reaches s₀ s)
    (calls : List (Call Nat)) :
    let t := (Cursor.performAll calls s.walk).after.bits
    (Represents s s.members ∧ s.capacity = s₀.capacity) ∧
    (Represents t t.members ∧ t.capacity = s₀.capacity) := by
  intro t
  obtain ⟨hs, hc⟩ := h.accurate h₀.accurate
  obtain ⟨ht, hc'⟩ := (Reaches.walk calls h).accurate h₀.accurate
  exact ⟨⟨hs.represents, hc⟩, ht.represents, hc'⟩

/-- A set with room up to its member, after a walk that removes this and tries again. -/
theorem represents_members_at_capacity :
    let s := ((BitSet.ofCapacity ⟨6, by decide, by decide⟩).ask (.insert 5)).after
    let t := (Cursor.performAll [.next, .hasNext, .remove, .remove] s.walk).after.bits
    Represents t t.members ∧ t.capacity = 6 ∧ t.size = 0 := by
  intro s t
  have h : Reaches _ s := .request (.insert 5) .refl
  obtain ⟨ht, hc⟩ := (represents_members_of_reaches (.ofCapacity _) h
    [.next, .hasNext, .remove, .remove]).2
  exact ⟨ht, hc, by cbv⟩

end IntWalk.BitSet
