import IntWalk.Proofs.Bits.Text
import IntWalk.Proofs.Parts.Reachable
import IntWalk.Proofs.Parts.Text
import IntWalk.Proofs.Sequence.Text

/-!
# Round trips

What a collection writes is read back as the collection, so the checks of the readers
never turn against the writers.
-/

namespace IntWalk

/-- The text of a sequence of any kind, of a part set and of a bit set is read back as
the very collection that was written.  Thus the text of what is read is the same again,
and a bit set keeps the head that it had from an earlier text. -/
theorem decode_encode_of_reachable :
    (∀ (k : IntKind) (s : Sequence k.Value), Sequence.decode k s.encode = .ok s) ∧
    (∀ s : PartSet, PartSet.Reachable s → PartSet.decode s.encode = .ok s) ∧
    ∀ s₀ s : BitSet, BitSet.Origin s₀ → BitSet.Reaches s₀ s → BitSet.decode s.encode = .ok s := by
  refine ⟨fun k s => Sequence.decode_encode s, fun s h => ?_, fun s₀ s h₀ h => ?_⟩
  · exact PartSet.decode_encode h.canonical
  · exact h.decode_encode h₀

/-- The extremes of the widest kinds, the last part beside the first, a bit set without
room, and one that came out of a text with the digit for zero at the end of a word. -/
theorem decode_encode_at_extremes :
    let signed : IntKind := ⟨true, .quad⟩
    let natural : IntKind := ⟨false, .quad⟩
    let ends : Sequence signed.Value :=
      ⟨[⟨signed.least, by decide⟩, ⟨signed.greatest, by decide⟩]⟩
    let last : Sequence natural.Value := ⟨[⟨natural.greatest, by decide⟩]⟩
    let parts := ((PartSet.empty.ask (.insert 4294967295)).after.ask (.insert 0)).after
    let bits : BitSet := ⟨2, 63, 3, 2, Ones.below_truncate 3 2⟩
    let left := (bits.ask (.remove 0)).after
    Sequence.decode _ ends.encode = .ok ends ∧ Sequence.decode _ last.encode = .ok last ∧
    PartSet.decode parts.encode = .ok parts ∧ BitSet.decode BitSet.empty.encode = .ok .empty ∧
    BitSet.decode left.encode = .ok left ∧ left.head = 63 := by
  intro signed natural ends last parts bits left
  obtain ⟨hsequence, hparts, hbits⟩ := decode_encode_of_reachable
  have haccurate : bits.Accurate := by
    rw [BitSet.Accurate, BitSet.card_members]
    cbv
  have hnone : BitSet.ofList [] = .ok .empty := rfl
  have horigin : BitSet.Origin bits := .decoded (haccurate.decode_encode (by decide))
  have hreachable : PartSet.Reachable parts := .request _ (.request _ .empty)
  have hhead : left.head = 63 := by
    unfold left bits
    cbv
  exact ⟨hsequence _ ends, hsequence _ last, hparts _ hreachable,
    hbits _ _ (.ofList hnone) .refl, hbits _ _ horigin (.request _ .refl), hhead⟩

end IntWalk
