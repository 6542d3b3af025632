import IntWalk.Proofs.Bits.Outline
import IntWalk.Proofs.Bits.Reachable
import IntWalk.Proofs.Bits.Words

/-!
# Bit sets read back

The digits of a bit set are moved up by the head, cut into words, put together from the
words again and moved back.  Nothing is lost, since there are words enough for the head
and the capacity, and nothing is added, since the set has no digit at or above its
capacity.
-/

namespace IntWalk

open Json

/-! ## The parts of a bit set -/

namespace StoredBits

variable {b : StoredBits}

/-- What a writer keeps to: the parts are in the range of their fields, and there are
words enough for the digits. -/
structure Proper (b : StoredBits) : Prop where
  head : b.head < Ones.wordWidth
  bits : b.bits ≤ largest
  words : ∀ w ∈ b.words, w ≤ largest
  room : b.head + b.bits ≤ Ones.wordWidth * b.words.length
  size : b.size ≤ largest

/-- Parts that are written are read past the looks at them. -/
lemma Proper.reads_tokens (h : Proper b) :
    Reader.Reads (Reader.record fields true ⟨0, 0, [], 0⟩) b.tokens b := by
  intro rest
  have hfits : Fits b := ⟨h.bits, h.words, h.size⟩
  exact screens_fields.eq_ok (hfits.reads_tokens rest) (if_pos ⟨h.head, h.room⟩)

/-- Only a number of 64 bits is read as the number of digits. -/
lemma yields_bits :
    Reader.Yields (Reader.record fields true ⟨0, 0, [], 0⟩) fun b => b.bits ≤ largest := by
  have hhead : ∀ f ∈ headFields, ∀ b, b.bits ≤ largest →
      Reader.Yields (f.read b) fun b => b.bits ≤ largest := by
    rw [headFields, List.forall_mem_cons, List.forall_mem_singleton]
    refine ⟨fun b hb => ?_, fun b hb => ?_⟩
    · exact .of_any fun _ => .of_any fun _ => Reader.yields_pure hb
    · exact .of_any fun _ => Reader.yields_pure hb
  have hbits : ∀ f ∈ bitsFields, ∀ b, b.bits ≤ largest →
      Reader.Yields (f.read b) fun b => b.bits ≤ largest := by
    rw [bitsFields, List.forall_mem_cons, List.forall_mem_cons, List.forall_mem_cons,
      List.forall_mem_singleton]
    refine ⟨fun b hb => ?_, fun b hb => ?_, fun b _ => ?_, fun b hb => ?_⟩
    · exact .of_any fun _ => .of_any fun _ => Reader.yields_pure hb
    · exact Reader.yields_record false hhead hb
    · exact (Reader.yields_natural largest).bind fun _ hn => Reader.yields_pure hn
    · exact .of_any fun _ => Reader.yields_pure hb
  refine Reader.yields_record true ?_ (Nat.zero_le _)
  rw [fields, List.forall_mem_cons, List.forall_mem_singleton]
  refine ⟨fun b hb => ?_, fun b hb => ?_⟩
  · refine (Reader.yields_record false hbits hb).bind fun b hb => ?_
    split
    · exact Reader.yields_pure hb
    · exact Reader.yields_throw _
  · exact .of_any fun _ => Reader.yields_pure hb

end StoredBits

namespace BitSet

variable {s : BitSet}

lemma eq_of_parts {t : BitSet} (hcapacity : s.capacity = t.capacity) (hhead : s.head = t.head)
    (hmask : s.mask = t.mask) (hsize : s.size = t.size) : s = t := by
  cases s
  cases t
  cases hcapacity
  cases hhead
  cases hmask
  cases hsize
  rfl

/-- The digits are found again in the words. -/
lemma mask_stored (s : BitSet) : s.stored.mask = s.mask := by
  refine Nat.eq_of_testBit_eq fun i => ?_
  rw [StoredBits.mask, stored, Ones.ofWords_words, Ones.testBit_truncate, Nat.testBit_shiftRight,
    Ones.testBit_truncate, Nat.testBit_shiftLeft, Nat.add_sub_cancel_left]
  cases hi : s.mask.testBit i with
  | false => simp
  | true =>
    have hlt : i < s.capacity := s.within i hi
    have hroom : s.head.val + i < Ones.wordWidth *
        ((s.head.val + s.capacity + (Ones.wordWidth - 1)) / Ones.wordWidth) := by
      rw [Ones.wordWidth]
      omega
    simp [hlt, hroom]

lemma Accurate.toBitSet_stored (h : s.Accurate) : s.stored.toBitSet = .ok s := by
  have hcount : s.stored.size = Ones.count s.stored.mask := by
    rw [mask_stored, ← card_members]
    exact h
  have hhead : (⟨s.stored.head % 64, Nat.mod_lt _ (by decide)⟩ : Fin 64) = s.head :=
    Fin.ext (Nat.mod_eq_of_lt s.head.isLt)
  rw [StoredBits.toBitSet, if_pos hcount]
  exact congrArg Except.ok (eq_of_parts rfl hhead (mask_stored s) rfl)

lemma Accurate.size_le_capacity (h : s.Accurate) : s.size ≤ s.capacity := by
  have hsub : s.members ⊆ Finset.range s.capacity := by
    intro v hv
    exact Finset.mem_range.2 (lt_capacity_of_mem (mem_members.1 hv))
  have hcard := Finset.card_le_card hsub
  rwa [Finset.card_range, ← h] at hcard

/-- The parts of a set whose capacity is a 64-bit number are in the range of their
fields. -/
lemma Accurate.proper_stored (h : s.Accurate) (hcapacity : s.capacity ≤ StoredBits.largest) :
    s.stored.Proper where
  head := s.head.isLt
  bits := hcapacity
  words w hw := Nat.le_pred_of_lt (Ones.lt_of_mem_words hw)
  room := by
    show s.head.val + s.capacity ≤ Ones.wordWidth * (Ones.words _ _).length
    rw [Ones.length_words, Ones.wordWidth]
    omega
  size := Nat.le_trans h.size_le_capacity hcapacity

lemma Accurate.decode_encode (h : s.Accurate) (hcapacity : s.capacity ≤ StoredBits.largest) :
    decode s.encode = .ok s := by
  have hreads : Reader.Reads reader s.stored.tokens s := by
    rw [← List.append_nil s.stored.tokens]
    refine (h.proper_stored hcapacity).reads_tokens.bind ?_
    rw [h.toBitSet_stored]
    exact Reader.reads_pure s
  exact hreads.decode_text (StoredBits.recovers_tokens s.stored)

/-! ## The room of a set that was reached -/

lemma yields_capacity : Reader.Yields reader fun s => s.capacity ≤ StoredBits.largest := by
  refine StoredBits.yields_bits.bind fun b hb => ?_
  split
  · next s made =>
    rw [StoredBits.toBitSet] at made
    split at made
    · cases made
      exact Reader.yields_pure hb
    · cases made
  · exact Reader.yields_throw _

lemma capacity_of_insertAll {values : List Nat} {t : BitSet} (made : insertAll values s = .ok t) :
    t.capacity = s.capacity := by
  induction values generalizing s with
  | nil =>
    cases made
    rfl
  | cons v vs ih =>
    rw [insertAll] at made
    split at made
    · exact (ih made).trans (capacity_insert s v)
    · cases made

lemma Origin.capacity_le (h : Origin s) : s.capacity ≤ StoredBits.largest := by
  cases h with
  | ofCapacity c => exact Nat.le_pred_of_lt c.fits
  | @ofList values _ made =>
    rw [BitSet.ofList] at made
    split at made
    · cases made
      exact Nat.zero_le _
    · split at made
      · next c _ =>
        rw [capacity_of_insertAll made]
        exact Nat.le_pred_of_lt c.fits
      · cases made
  | decoded ok => exact yields_capacity.of_decode ok

lemma Reaches.decode_encode {s₀ : BitSet} (h : Reaches s₀ s) (h₀ : Origin s₀) :
    decode s.encode = .ok s := by
  obtain ⟨haccurate, hcapacity⟩ := h.accurate h₀.accurate
  exact haccurate.decode_encode (hcapacity ▸ h₀.capacity_le)

end BitSet

end IntWalk
