import IntWalk.Proofs.Bits.Stored
import IntWalk.Proofs.Cursor.Mirror

/-!
# The head is not seen

Two bit sets with the same capacity and the same members differ in the head at most.  Whatever
is asked of them, walks with removals included, they answer alike and remain the same; only
their texts tell the heads apart.  Each text shows the members behind its own head.
-/

namespace IntWalk.BitSet

open Json
open Step (Alike)

variable {s t a b a₀ b₀ : BitSet} {H K : Fin 64}

/-! ## What can be asked -/

/-- What can be asked of a bit set, apart from its text. -/
inductive Action where
  /-- Any single request. -/
  | ask (r : Request Nat)
  /-- How many values have room. -/
  | capacity
  /-- The members in their order. -/
  | list
  /-- Whether the set is the same as another one, and the other one as the set. -/
  | compare (other : BitSet)
  /-- The replies to a walk, and how far it came. -/
  | walk (calls : List (Call Nat))

/-- What is answered. -/
inductive Outcome where
  /-- The answer to a request. -/
  | answer (a : Answer)
  /-- A number of values. -/
  | count (n : Nat)
  /-- Some members. -/
  | members (vs : List Nat)
  /-- Both ways of a comparison. -/
  | verdict (there back : Bool)
  /-- What a walk was told. -/
  | replies (rs : List (Reply Nat)) (progress : Progress)

/-- Does what is asked.  A walk holds the set until it ends. -/
def act : Action → BitSet → Step Event BitSet Outcome
  | .ask r, s => (s.ask r).map .answer
  | .capacity, s => .still (.count s.capacity) s
  | .list, s => .still (.members s.toList) s
  | .compare other, s => .still (.verdict (s == other) (other == s)) s
  | .walk calls, s =>
    let x := Cursor.performAll calls s.walk
    ⟨.replies x.answer x.after.progress, x.after.bits, x.events⟩

/-! ## The same set behind two heads -/

/-- The same set, once with the head `H` and once with the head `K`. -/
inductive Agree (H K : Fin 64) : BitSet → BitSet → Prop
  | intro (capacity mask size : Nat) (h h' : Ones.Below mask capacity) :
    Agree H K ⟨capacity, H, mask, size, h⟩ ⟨capacity, K, mask, size, h'⟩

lemma agree_iff : Agree H K s t ↔ (s == t) = true ∧ s.head = H ∧ t.head = K := by
  constructor
  · rintro ⟨capacity, mask, size, h, h'⟩
    exact ⟨beq_iff.2 ⟨rfl, rfl, rfl⟩, rfl, rfl⟩
  · rintro ⟨hsame, rfl, rfl⟩
    obtain ⟨hcapacity, hmask, hsize⟩ := beq_iff.1 hsame
    cases s
    cases t
    cases hcapacity
    cases hmask
    cases hsize
    exact .intro ..

/-- Two sets that were reached are the same if they have the same capacity and members. -/
lemma agree_of_mem_iff (ha : a.Accurate) (hb : b.Accurate) (hcapacity : a.capacity = b.capacity)
    (hmem : ∀ v, v ∈ a ↔ v ∈ b) : Agree a.head b.head a b := by
  have hsize : a.size = b.size := by
    rw [ha, hb, members_eq_of_mem_iff hmem]
  exact agree_iff.2 ⟨beq_iff.2 ⟨hcapacity, mask_eq_of_mem_iff hmem, hsize⟩, rfl, rfl⟩

/-! ## Requests and walks -/

lemma alike_insert (v : Nat) (h : Agree H K s t) :
    Alike (Agree H K) (s.insert v) (t.insert v) := by
  obtain ⟨capacity, mask, size, hs, ht⟩ := h
  unfold insert
  split <;> exact Alike.still _ (.intro ..)

lemma alike_insertSigned (n : Int) (h : Agree H K s t) :
    Alike (Agree H K) (s.insertSigned n) (t.insertSigned n) := by
  unfold insertSigned
  split
  · exact Alike.still _ h
  · split
    · exact Alike.still _ h
    · exact alike_insert _ h

lemma alike_remove (v : Nat) (h : Agree H K s t) :
    Alike (Agree H K) (s.remove v) (t.remove v) := by
  obtain ⟨capacity, mask, size, hs, ht⟩ := h
  unfold remove contains
  split <;> exact Alike.still _ (.intro ..)

lemma alike_ask (r : Request Nat) (h : Agree H K s t) :
    Alike (Agree H K) (s.ask r) (t.ask r) := by
  cases r with
  | insert v => exact (alike_insert v h).map Answer.stored
  | insertSigned n => exact (alike_insertSigned n h).map Answer.stored
  | remove v => exact (alike_remove v h).map Answer.flag
  | contains | size | isEmpty =>
    obtain ⟨capacity, mask, size, hs, ht⟩ := h
    exact Alike.still _ (.intro ..)

namespace Walk

variable {w u : Walk}

/-- Walks at the same place of the same set. -/
structure Agree (H K : Fin 64) (w u : Walk) : Prop where
  bits : BitSet.Agree H K w.bits u.bits
  place : w.scanFrom = u.scanFrom
  progress : w.progress = u.progress

lemma agree_walk (h : BitSet.Agree H K s t) : Agree H K s.walk t.walk := ⟨h, rfl, rfl⟩

lemma Agree.peek (h : Agree H K w u) : w.peek = u.peek := by
  obtain ⟨-, hmask, -⟩ := beq_iff.1 (agree_iff.1 h.bits).1
  rw [Walk.peek, Walk.peek, hmask, h.place]

lemma mirrors_agree (H K : Fin 64) : Cursor.Mirrors (Agree H K) where
  hasNext w u h := by
    refine ⟨?_, h⟩
    show w.peek.isSome = u.peek.isSome
    rw [h.peek]
  next w u h := by
    show Alike _ w.next u.next
    rw [next, next, h.peek, h.progress]
    split
    · exact ⟨rfl, h⟩
    · exact Alike.still _ ⟨h.bits, rfl, rfl⟩
  remove w u h := by
    show Alike _ w.remove u.remove
    rw [remove, remove, h.progress, h.place]
    split
    · exact Alike.still _ h
    · refine ⟨rfl, ?_, rfl, rfl⟩
      obtain ⟨hbits, -, -⟩ := h
      cases w
      cases u
      cases hbits
      exact .intro ..

end Walk

lemma alike_act (x : Action) (h : Agree H K s t) : Alike (Agree H K) (act x s) (act x t) := by
  cases x with
  | ask r => exact (alike_ask r h).map Outcome.answer
  | capacity | list | compare other =>
    obtain ⟨capacity, mask, size, hs, ht⟩ := h
    exact Alike.still _ (.intro ..)
  | walk calls =>
    obtain ⟨hanswer, hafter⟩ :=
      (Walk.mirrors_agree H K).performAll calls (Walk.agree_walk h)
    refine ⟨?_, hafter.bits⟩
    show Outcome.replies _ _ = Outcome.replies _ _
    rw [hanswer, hafter.progress]

/-! ## The texts -/

/-- The text shows the head of the set, and in its words a one behind the head for each
member, and no other one. -/
structure Shown (s : BitSet) : Prop where
  text : s.encode = Token.text (StoredBits.tokens ⟨s.head, s.capacity, s.stored.words, s.size⟩)
  length : s.stored.words.length = (s.head + s.capacity + 63) / 64
  words : ∀ w ∈ s.stored.words, w < 2 ^ 64
  ones : ∀ i, Ones.digit s.stored.words i = true ↔ ∃ v ∈ s, i = s.head + v

lemma shown (s : BitSet) : Shown s where
  text := rfl
  length := length_words_stored s
  words _ := lt_of_mem_words_stored
  ones i := by
    rw [digit_words_stored, Bool.and_eq_true, decide_eq_true_iff, contains_eq_true_iff]
    constructor
    · rintro ⟨hle, hmem⟩
      exact ⟨_, hmem, (Nat.add_sub_cancel' hle).symm⟩
    · rintro ⟨v, hv, rfl⟩
      rw [Nat.add_sub_cancel_left]
      exact ⟨Nat.le_add_right _ _, hv⟩

/-- Whatever the ways to two sets with the same capacity and members were, and whatever is
done with both of them, they give the same answers and remain the same set.  Each keeps its
head and shows it in its text. -/
theorem act_alike_of_mem_iff (ha₀ : Origin a₀) (ha : Reaches a₀ a) (hb₀ : Origin b₀)
    (hb : Reaches b₀ b) (hcapacity : a.capacity = b.capacity) (hmem : ∀ v, v ∈ a ↔ v ∈ b)
    (actions : List Action) :
    let x := Step.runAll act actions a
    let y := Step.runAll act actions b
    x.answer = y.answer ∧ (x.after == y.after) = true ∧
      (x.after.head = a.head ∧ y.after.head = b.head) ∧ Shown x.after ∧ Shown y.after := by
  intro x y
  have hagree := agree_of_mem_iff (ha.accurate ha₀.accurate).1 (hb.accurate hb₀.accurate).1
    hcapacity hmem
  obtain ⟨hanswer, hafter⟩ := Step.runAll_alike (fun r s t h => alike_act r h) actions hagree
  obtain ⟨hsame, hleft, hright⟩ := agree_iff.1 hafter
  exact ⟨hanswer, hsame, ⟨hleft, hright⟩, shown _, shown _⟩

/-- A set that came out of a text with its digits across two words, and one that was filled. -/
theorem act_alike_of_mem_iff_across_words :
    let a : BitSet := ⟨3, 62, 5, 2, Ones.below_truncate 5 3⟩
    let b := (((BitSet.ofCapacity ⟨3, by decide, by decide⟩).ask (.insert 2)).after.ask
      (.insert 0)).after
    let actions : List Action := [.ask (.insert 1), .ask (.insert 3), .compare a,
      .walk [.next, .next, .remove, .remove, .value, .next], .list, .ask (.remove 0)]
    let x := Step.runAll act actions a
    let y := Step.runAll act actions b
    x.answer = y.answer ∧ (x.after == y.after) = true ∧
      (x.after.head = 62 ∧ y.after.head = 0) ∧ Shown x.after ∧ Shown y.after := by
  intro a b actions
  have haccurate : a.Accurate := by
    rw [Accurate, card_members]
    cbv
  have horigin : Origin a := .decoded (haccurate.decode_encode (by decide))
  have hb : Reaches _ b := .request _ (.request _ .refl)
  have hmask : a.mask = b.mask := by
    unfold a b
    cbv
  refine act_alike_of_mem_iff horigin .refl (.ofCapacity _) hb rfl (fun v => ?_) actions
  rw [mem_def, mem_def, hmask]

end IntWalk.BitSet
