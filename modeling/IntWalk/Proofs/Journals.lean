import IntWalk.Proofs.Bits.Contract
import IntWalk.Proofs.Cursor.Journal
import IntWalk.Proofs.Parts.Contract

/-!
# The journals of the three walks

A sequence writes down the place of a value removed, a bit set the member and a part set the
part; the first two add how many are left.  A part set writes down before that if the removal
cuts a run in two, which it does just if both neighbours of the part are there.  The walks keep
these ledgers, so what they report is a faithful journal.
-/

namespace IntWalk

open Cursor

/-! ## Sequences -/

namespace Sequence

variable {α : Type}

/-- A removal is written down with its place and the number of values left. -/
def ledger : Ledger (Sequence α) α where
  redo
    | .removedAt i _, s => ⟨s.values.eraseIdx i⟩
    | _, s => s
  Due s v es := ∃ i n, s.values[i]? = some v ∧ n + 1 = s.size ∧ es = [.removedAt i n]

lemma sized_ledger : (ledger (α := α)).Sized size where
  written := by
    rintro s v _ ⟨i, n, hv, hn, rfl⟩
    have hi := (List.getElem?_eq_some_iff.1 hv).1
    have hsize : (s.values.eraseIdx i).length = n := by
      rw [List.length_eraseIdx_of_lt hi]
      exact Nat.sub_eq_of_eq_add hn.symm
    exact congrArg (fun n => [n]) hsize.symm
  smaller := by
    rintro s v _ ⟨i, n, hv, hn, rfl⟩
    exact List.length_eraseIdx_add_one (List.getElem?_eq_some_iff.1 hv).1

lemma kept_ledger [Max α] (s : Sequence α) :
    ledger.Kept Walk.sequence (Walk.Recounts s.values) where
  exact := Walk.exact
  history p rs w h := h.perform p
  exhausted n c := rfl
  single := by
    rintro s v _ ⟨i, n, -, -, rfl⟩
    rfl
  gives w := by
    change w.next.after.sequence = w.sequence
    rw [Walk.next]
    cases hw : w.ahead with
    | nil => rfl
    | cons v ahead => simp [Walk.sequence, hw]
  removes rs w h gone := by
    change w.remove.answer = _ at gone
    change ∃ v, _ ∧ ledger.Due w.sequence v w.remove.events ∧
      ledger.replay w.remove.events w.sequence = w.remove.after.sequence
    -- the value stands next to the cut, so its place is the number of values before it
    have hs := h.returned.2 (h.contract.removes.1 gone)
    obtain ⟨earlier, v, hgiven, -, hbehind⟩ := h.exists_behind_eq hs
    generalize (leaveOut (takenPlaces 0 rs) earlier).reverse = rest at hbehind
    have hremove : w.remove = ⟨.ok (), ⟨rest, w.ahead, ⟨.removed, w.progress.yielded⟩⟩,
        [.removedAt rest.length (rest.reverse ++ w.ahead).length]⟩ := by
      rw [Walk.remove, Progress.claimRemoval_eq_ok_iff.2 ⟨hs, rfl⟩, hbehind]
      rfl
    have hvalues : w.sequence = ⟨rest.reverse ++ v :: w.ahead⟩ := by
      simp [Walk.sequence, hbehind]
    rw [hremove, hvalues]
    refine ⟨v, ?_, ⟨rest.length, _, ?_, ?_, rfl⟩, ?_⟩
    · rw [hgiven, List.getLast?_concat]
    · simp
    · simp [size, Nat.add_assoc]
    · show (⟨(rest.reverse ++ v :: w.ahead).eraseIdx rest.length⟩ : Sequence α) = _
      rw [List.eraseIdx_append_of_length_le (by simp)]
      simp [Walk.sequence]

end Sequence

/-! ## Bit sets -/

namespace BitSet

/-- A removal is written down with the member and the number of members left. -/
def ledger : Ledger BitSet Nat where
  redo
    | .cleared v _, s => (s.remove v).after
    | _, s => s
  Due s v es := ∃ n, v ∈ s ∧ n + 1 = s.size ∧ es = [.cleared v n]

lemma replay_cleared {s : BitSet} {v n : Nat} (hv : v ∈ s) :
    ledger.replay [.cleared v n] s = s.clear v := by
  show (s.remove v).after = s.clear v
  rw [remove_of_mem hv, Step.still_after]

lemma sized_ledger : ledger.Sized size where
  written := by
    rintro s v _ ⟨n, hv, hn, rfl⟩
    rw [replay_cleared hv]
    exact congrArg (fun n => [n]) (Nat.sub_eq_of_eq_add hn.symm).symm
  smaller := by
    rintro s v _ ⟨n, hv, hn, rfl⟩
    rw [replay_cleared hv, ← hn]
    show s.size - 1 + 1 = n + 1
    omega

/-- What the replies to a walk say of where it stands. -/
def Walk.Recounted (s : BitSet) (rs : List (Reply Nat)) (w : Walk) : Prop :=
  Walk.Sound s.capacity w ∧ ∃ u, w.Follows u ∧ u.Recounts s.toList rs

lemma kept_ledger (s : BitSet) : ledger.Kept Walk.bits (Walk.Recounted s) where
  exact := Walk.exact
  history := by
    rintro p rs w ⟨hsound, u, hfollows, hrecounts⟩
    refine ⟨(Walk.keeps_sound _).along (perform_path p.call w) hsound, ?_⟩
    exact Walk.mirrors_follows.exists_recounts_perform hfollows hrecounts p
  exhausted n c := rfl
  single := by
    rintro s v _ ⟨n, -, -, rfl⟩
    rfl
  gives w := by
    change w.next.after.bits = w.bits
    rw [Walk.next]
    cases w.peek <;> rfl
  removes := by
    rintro rs w ⟨hsound, u, hfollows, hrecounts⟩ gone
    have hremovable :=
      (Walk.mirrors_follows.contract hfollows hrecounts.contract).removes.1 gone
    obtain ⟨v, hlast, hv, hremove⟩ := hfollows.remove_eq hrecounts hremovable
    change ∃ v, _ ∧ ledger.Due w.bits v w.remove.events ∧
      ledger.replay w.remove.events w.bits = w.remove.after.bits
    rw [hremove]
    exact ⟨v, hlast, ⟨_, hv, hsound.accurate.size_clear hv, rfl⟩, replay_cleared hv⟩

end BitSet

/-! ## Part sets -/

namespace PartSet

/-- A removal is written down with the part, after the cut that it makes. -/
def ledger : Ledger PartSet Part where
  redo
    | .dropped p, s => (s.remove p).after
    | _, s => s
  Due s p es := p ∈ s ∧
    (s.Enclosed p ∧ es = [.split p (s.remove p).after.runs.size, .dropped p] ∨
      ¬ s.Enclosed p ∧ es = [.dropped p])

/-- What the replies to a walk say of where it stands. -/
def Walk.Recounted (s : PartSet) (rs : List (Reply Part)) (w : Walk) : Prop :=
  ∃ u, w.Follows u ∧ u.Recounts s.toList rs

lemma kept_ledger (s : PartSet) : ledger.Kept Walk.parts (Walk.Recounted s) where
  exact := Walk.exact
  history := by
    rintro p rs w ⟨u, hfollows, hrecounts⟩
    exact Walk.mirrors_follows.exists_recounts_perform hfollows hrecounts p
  exhausted n c := rfl
  single := by
    rintro s p es ⟨-, ⟨-, rfl⟩ | ⟨-, rfl⟩⟩
    · rfl
    · rfl
  gives w := by
    change w.next.after.parts = w.parts
    rw [Walk.next]
    cases w.peek <;> rfl
  removes := by
    rintro rs w ⟨u, hfollows, hrecounts⟩ gone
    have hremovable :=
      (Walk.mirrors_follows.contract hfollows hrecounts.contract).removes.1 gone
    obtain ⟨p, hlast, hp, hremove⟩ := hfollows.remove_eq hrecounts hremovable
    obtain ⟨before, r, after, holder⟩ := exists_holder hfollows.canonical hp
    change ∃ v, _ ∧ ledger.Due w.parts v w.remove.events ∧
      ledger.replay w.remove.events w.parts = w.remove.after.parts
    rw [hremove]
    obtain ⟨enclosed, hevents⟩ | ⟨free, hevents⟩ := holder.events hfollows.canonical
    · rw [hevents]
      exact ⟨p, hlast, ⟨hp, .inl ⟨enclosed, rfl⟩⟩, rfl⟩
    · rw [hevents]
      exact ⟨p, hlast, ⟨hp, .inr ⟨free, rfl⟩⟩, rfl⟩

end PartSet

variable {α : Type} [Max α] {s₀ s : BitSet} {t : PartSet}

/-- What a walk reports is a faithful journal of it: every removal is written down when it is
made, with what was removed and how many elements are left, or with the cut that it makes, and
done again these removals give the collection that the walk leaves.  Vain requests are written
down if they were made as such, and not those of the loops. -/
theorem journals_are_faithful (xs : Sequence α) (h₀ : BitSet.Origin s₀)
    (h : BitSet.Reaches s₀ s) (ht : PartSet.Reachable t) :
    (∀ calls, Sequence.ledger.Journal Sequence.Walk.sequence calls xs.walk ∧
      Event.CountDown xs.size (performAll calls xs.walk).events) ∧
    (∀ calls, BitSet.ledger.Journal BitSet.Walk.bits calls s.walk ∧
      Event.CountDown s.size (performAll calls s.walk).events) ∧
    ∀ calls, PartSet.ledger.Journal PartSet.Walk.parts calls t.walk := by
  have hxs := Sequence.Walk.recounts_walk xs
  have hs : BitSet.Walk.Recounted s [] s.walk :=
    ⟨⟨rfl, (h.accurate h₀.accurate).1, nofun⟩, _, BitSet.Walk.follows_walk s,
      Sequence.Walk.recounts_walk _⟩
  have ht : PartSet.Walk.Recounted t [] t.walk :=
    ⟨_, PartSet.Walk.follows_walk ht.canonical, Sequence.Walk.recounts_walk _⟩
  refine ⟨fun calls => ⟨?_, ?_⟩, fun calls => ⟨?_, ?_⟩, fun calls => ?_⟩
  · exact (Sequence.kept_ledger xs).journal hxs calls
  · exact (Sequence.kept_ledger xs).sizes Sequence.sized_ledger hxs calls
  · exact (BitSet.kept_ledger s).journal hs calls
  · exact (BitSet.kept_ledger s).sizes BitSet.sized_ledger hs calls
  · exact (PartSet.kept_ledger t).journal ht calls

/-- A cut between two parts and a vain request at the end. -/
theorem journal_of_cut :
    let s := ((BitSet.ofCapacity ⟨6, by decide, by decide⟩).ask (.insert 5)).after
    let t := (((PartSet.empty.ask (.insert 4)).after.ask (.insert 6)).after.ask (.insert 5)).after
    let calls : List (Call Part) := [.next, .next, .remove, .hasNext, .next, .next]
    (performAll calls t.walk).events = [.split 5 2, .dropped 5, .exhausted 3] ∧
      PartSet.ledger.Journal PartSet.Walk.parts calls t.walk ∧
      BitSet.ledger.Journal BitSet.Walk.bits [.next, .remove] s.walk := by
  intro s t calls
  have hs : BitSet.Reaches _ s := .request (.insert 5) .refl
  have ht : PartSet.Reachable t := .request _ (.request _ (.request _ .empty))
  obtain ⟨-, hbits, hparts⟩ := journals_are_faithful (Sequence.empty : Sequence Nat)
    (.ofCapacity _) hs ht
  exact ⟨by decide +kernel, hparts calls, (hbits _).1⟩

end IntWalk
