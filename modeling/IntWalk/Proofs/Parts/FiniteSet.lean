import IntWalk.Proofs.Parts.Reachable
import IntWalk.Proofs.Script

/-!
# Part sets are finite sets

The same requests are put to a part set and to the finite set of its parts.  Both
give the same answers and remain related, so no sequence of requests tells them
apart.
-/

namespace IntWalk.PartSet

variable {s : PartSet} {p : Part}

/-- Puts one request to a finite set of parts. -/
def askSet : Request Part → Finset Part → Step Event (Finset Part) Answer
  | .insert p, S => ⟨.flag (decide (p ∉ S)), Insert.insert p S, []⟩
  | .insertSigned v, S =>
    if v < 0 then .still (.stored (.error (.negative v))) S
    else if 4294967295 < v then .still (.stored (.error (.tooLarge v 4294967295))) S
    else
      let p := UInt32.ofNat v.toNat
      ⟨.stored (.ok (decide (p ∉ S))), Insert.insert p S, []⟩
  | .remove p, S => ⟨.flag (decide (p ∈ S)), S.erase p, []⟩
  | .contains p, S => .still (.flag (decide (p ∈ S))) S
  | .size, S => .still (.total S.card) S
  | .isEmpty, S => .still (.flag (decide (S = ∅))) S

section Ask

variable (h : Canonical s.runs.toList)
include h

lemma insert_answer (p : Part) : (s.insert p).answer = decide (p ∉ s.members) := by
  rw [Bool.eq_iff_iff, insert_answer_eq_true_iff h, decide_eq_true_iff, mem_members]

lemma remove_answer (p : Part) : (s.remove p).answer = decide (p ∈ s.members) := by
  rw [Bool.eq_iff_iff, remove_answer_eq_true_iff h, decide_eq_true_iff, mem_members]

lemma contains_eq (p : Part) : s.contains p = decide (p ∈ s.members) := by
  rw [Bool.eq_iff_iff, contains_eq_true_iff h, decide_eq_true_iff, mem_members]

lemma isEmpty_eq : s.isEmpty = decide (s.members = ∅) := by
  rw [Bool.eq_iff_iff, isEmpty_eq_true_iff h, decide_eq_true_iff]

/-- A request is answered as the finite set answers it, and does to the parts what
it does to the finite set. -/
lemma ask_alike (r : Request Part) :
    (s.ask r).answer = (askSet r s.members).answer ∧
      (s.ask r).after.members = (askSet r s.members).after := by
  cases r with
  | insert p => exact ⟨congrArg Answer.flag (insert_answer h p), members_insert h p⟩
  | insertSigned v =>
    rcases lt_or_ge v 0 with hneg | hpos
    · rw [ask, askSet, if_pos hneg, insertSigned_of_neg hneg]
      exact ⟨rfl, rfl⟩
    rcases lt_or_ge 4294967295 v with hbig | hle
    · rw [ask, askSet, if_neg (by omega), if_pos hbig, insertSigned_of_lt hbig]
      exact ⟨rfl, rfl⟩
    · rw [ask, askSet, if_neg (by omega), if_neg (by omega), insertSigned_of_le hpos hle]
      have hanswer := insert_answer h (UInt32.ofNat v.toNat)
      exact ⟨congrArg (fun b => Answer.stored (.ok b)) hanswer, members_insert h _⟩
  | remove p => exact ⟨congrArg Answer.flag (remove_answer h p), members_remove h p⟩
  | contains p => exact ⟨congrArg Answer.flag (contains_eq h p), rfl⟩
  | size => exact ⟨congrArg Answer.total (card_members h).symm, rfl⟩
  | isEmpty => exact ⟨congrArg Answer.flag (isEmpty_eq h), rfl⟩

end Ask

/-- The set answers every request as the finite set `S` of its parts does, and
changes as `S` does. -/
structure Represents (s : PartSet) (S : Finset Part) : Prop where
  covered : ∀ p, p ∈ S ↔ ∃ r ∈ s.runs, r.first ≤ p ∧ p ≤ r.last
  insert : ∀ p, ((s.insert p).answer = true ↔ p ∉ S) ∧
    (s.insert p).after.members = Insert.insert p S
  remove : ∀ p, ((s.remove p).answer = true ↔ p ∈ S) ∧ (s.remove p).after.members = S.erase p
  insertSigned : ∀ p : Part, (s.insertSigned p.toNat).answer = .ok (s.insert p).answer ∧
    (s.insertSigned p.toNat).after = (s.insert p).after
  negative : ∀ v : Int, v < 0 →
    (s.insertSigned v).answer = .error (.negative v) ∧ (s.insertSigned v).after = s
  tooLarge : ∀ v : Int, 4294967295 < v →
    (s.insertSigned v).answer = .error (.tooLarge v 4294967295) ∧ (s.insertSigned v).after = s
  contains : ∀ p, s.contains p = true ↔ p ∈ S
  size : s.size = S.card
  isEmpty : s.isEmpty = true ↔ S = ∅

lemma Canonical.represents (h : Canonical s.runs.toList) : Represents s s.members where
  covered p := by
    rw [mem_members, mem_def]
    simp only [Array.mem_toList_iff, Run.mem_def]
  insert p := by
    rw [insert_answer_eq_true_iff h, mem_members]
    exact ⟨Iff.rfl, members_insert h p⟩
  remove p := by
    rw [remove_answer_eq_true_iff h, mem_members]
    exact ⟨Iff.rfl, members_remove h p⟩
  insertSigned p := by
    rw [insertSigned_toNat]
    exact ⟨rfl, rfl⟩
  negative v hv := by
    rw [insertSigned_of_neg hv]
    exact ⟨rfl, rfl⟩
  tooLarge v hv := by
    rw [insertSigned_of_lt hv]
    exact ⟨rfl, rfl⟩
  contains p := by rw [contains_eq_true_iff h, mem_members]
  size := (card_members h).symm
  isEmpty := isEmpty_eq_true_iff h

/-- A set that a program can come to stands for the finite set of its parts, and a
whole sequence of requests is answered as the finite set answers it. -/
theorem represents_members_of_reachable (hs : Reachable s) :
    Represents s s.members ∧ ∀ requests,
      (Step.runAll ask requests s).answer = (Step.runAll askSet requests s.members).answer ∧
      Represents (Step.runAll ask requests s).after
        (Step.runAll askSet requests s.members).after := by
  refine ⟨hs.canonical.represents, fun requests => ?_⟩
  -- the runs remain canonical and the finite set remains that of the parts
  have alike : ∀ r (s : PartSet) S, Canonical s.runs.toList ∧ s.members = S →
      (s.ask r).answer = (askSet r S).answer ∧
        Canonical (s.ask r).after.runs.toList ∧ (s.ask r).after.members = (askSet r S).after := by
    rintro r s _ ⟨h, rfl⟩
    obtain ⟨answers, changes⟩ := ask_alike h r
    exact ⟨answers, canonical_ask h r, changes⟩
  obtain ⟨answers, h, changes⟩ := Step.runAll_alike alike requests ⟨hs.canonical, rfl⟩
  refine ⟨answers, ?_⟩
  rw [← changes]
  exact h.represents

/-- A part between two others, the last part and the number after it. -/
theorem answers_across_bridge :
    (Step.runAll ask [.insert 0, .insertSigned 2, .insert 1, .insert 1, .remove 4294967295,
      .insertSigned 4294967296, .size] PartSet.empty).answer =
    [.flag true, .stored (.ok true), .flag true, .flag false, .flag false,
      .stored (.error (.tooLarge 4294967296 4294967295)), .total 3] :=
  ((represents_members_of_reachable .empty).2 _).1.trans (by rfl)

end IntWalk.PartSet
