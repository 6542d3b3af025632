import IntWalk.Proofs.Bits.Head
import IntWalk.Proofs.Cursor.Filtering
import IntWalk.Proofs.Parts.Unique

/-!
# Removals by a walk and removals one by one

A walk takes elements out by code of its own, and in the order of the walk.  What it leaves is
what the same removals leave when they are made directly, one by one and in any order: the same
set with the same size, and the same runs (`RemovesAlike`).  For a set is determined by its
elements (`Erases`), and these are the ones that it had but for those taken out.
-/

namespace IntWalk

variable {C σ α : Type}

/-! ## What was taken out -/

namespace Sequence.Walk.Recounts

variable {xs : List α} {rs : List (Reply α)} {u : Sequence.Walk α} (h : Recounts xs rs u)
include h

lemma mem_of_mem_takenOut {v : α} (hv : v ∈ takenOut rs) : v ∈ xs := by
  obtain ⟨i, -, hi⟩ := List.mem_filterMap.1 hv
  rw [← h.given]
  exact List.mem_append_left _ (List.mem_of_getElem? hi)

lemma nodup_takenOut (nodup : xs.Nodup) (places : (takenPlaces 0 rs).Nodup) :
    (takenOut rs).Nodup := by
  have hgiven : (givenOut rs).Nodup := by
    rw [← h.given] at nodup
    exact nodup.of_append_left
  refine places.filterMap fun i j v hi hj => ?_
  have hlt := (List.getElem?_eq_some_iff.1 hi).1
  exact (List.getElem?_inj hlt hgiven).1 (hi.trans hj.symm)

end Sequence.Walk.Recounts

/-! ## Removals one by one -/

/-- Removed one after another, all of the elements are there to be removed, and what is left in
the end is `d`. -/
def OneByOne (remove : α → C → Step Event C Bool) (vs : List α) (c d : C) : Prop :=
  (Step.runAll remove vs c).answer = vs.map (fun _ => true) ∧
    (Step.runAll remove vs c).after = d

/-- The collection is determined by its elements, of which a removal takes out one. -/
structure Erases (Inv : C → Prop) (list : C → List α) (remove : α → C → Step Event C Bool) :
    Prop where
  nodup : ∀ {c}, Inv c → (list c).Nodup
  ext : ∀ {c d}, Inv c → Inv d → (∀ v, v ∈ list c ↔ v ∈ list d) → c = d
  keeps : ∀ {c}, Inv c → ∀ v, Inv (remove v c).after
  answer : ∀ {c}, Inv c → ∀ v, (remove v c).answer = true ↔ v ∈ list c
  mem_iff : ∀ {c}, Inv c → ∀ u v, u ∈ list (remove v c).after ↔ u ∈ list c ∧ u ≠ v

lemma Erases.oneByOne {Inv : C → Prop} {list : C → List α} {remove : α → C → Step Event C Bool}
    (e : Erases Inv list remove) {c d : C} (hc : Inv c) (hd : Inv d) {vs : List α}
    (nodup : vs.Nodup) (sub : ∀ v ∈ vs, v ∈ list c)
    (hmem : ∀ v, v ∈ list d ↔ v ∈ list c ∧ v ∉ vs) : OneByOne remove vs c d := by
  induction vs generalizing c with
  | nil =>
    have hsame : ∀ v, v ∈ list c ↔ v ∈ list d := by
      intro v
      rw [hmem]
      simp
    exact ⟨rfl, e.ext hc hd hsame⟩
  | cons v vs ih =>
    obtain ⟨hv, hvs⟩ := List.nodup_cons.1 nodup
    have hthere : (remove v c).answer = true := (e.answer hc v).2 (sub v (List.mem_cons_self ..))
    obtain ⟨hanswer, hafter⟩ : OneByOne remove vs (remove v c).after d := by
      refine ih (e.keeps hc v) hvs (fun u hu => ?_) fun u => ?_
      · exact (e.mem_iff hc u v).2 ⟨sub u (List.mem_cons_of_mem v hu), fun huv => hv (huv ▸ hu)⟩
      · rw [hmem, e.mem_iff hc, List.mem_cons, not_or, and_assoc]
    refine ⟨?_, hafter⟩
    rw [Step.runAll, Step.andThen_answer, Step.map_answer, hanswer, hthere]
    rfl

/-! ## Removals by a walk -/

open Cursor

variable [Cursor σ Event α] [Max α]

/-- Filtering removes the elements that the predicate holds of, and leaves what is left when
these are removed one by one in any order.  So does any other walk with the elements that it took
out. -/
structure RemovesAlike (list : C → List α) (remove : α → C → Step Event C Bool) (walk : C → σ)
    (holds : σ → C) (c : C) : Prop where
  filter : ∀ (p : α → Bool) (vs : List α), vs.Perm ((list c).filter p) →
    (removeIf (.ofElement p) (walk c)).answer.removed = .ok vs.length ∧
      OneByOne remove vs c (holds (removeIf (.ofElement p) (walk c)).after)
  script : ∀ (calls : List (Call α)) (vs : List α),
    vs.Perm (takenOut ((trace calls (walk c)).map Told.reply)) →
      OneByOne remove vs c (holds (performAll calls (walk c)).after)

lemma Erases.removesAlike {Inv : C → Prop} {list : C → List α}
    {remove : α → C → Step Event C Bool} (e : Erases Inv list remove)
    {R : σ → Sequence.Walk α → Prop} {holds : σ → C} {progress : σ → Progress}
    (h : Tracks R (fun w => list (holds w)) progress) {walk : C → σ} {c : C} (hc : Inv c)
    (start : R (walk c) (Sequence.walk ⟨list c⟩))
    (keeps : ∀ calls, Inv (holds (performAll calls (walk c)).after)) :
    RemovesAlike list remove walk holds c := by
  have hnodup := e.nodup hc
  refine ⟨fun p vs hvs => ?_, fun calls vs hvs => ?_⟩
  · obtain ⟨hcount, hkept⟩ := h.filters_ofElement start p
    refine ⟨?_, e.oneByOne hc (keeps [.removeIf (.ofElement p)]) ?_ (fun v hv => ?_) fun v => ?_⟩
    · rw [hvs.length_eq]
      exact hcount
    · exact hvs.nodup_iff.2 (hnodup.filter _)
    · exact List.mem_of_mem_filter (hvs.mem_iff.1 hv)
    · have hleft : v ∈ list (holds (removeIf (.ofElement p) (walk c)).after) ↔
          v ∈ (list c).filter fun v => !p v := by
        rw [hkept]
        rfl
      rw [hvs.mem_iff, List.mem_filter]
      refine hleft.trans (List.mem_filter.trans (and_congr_right fun hv => ?_))
      simp [hv]
  · obtain ⟨⟨u, hu, hrecounts⟩, hplaces⟩ := h.mirrors.exists_recounts_trace start calls
    refine e.oneByOne hc (keeps calls) ?_ (fun v hv => ?_) fun v => ?_
    · exact hvs.nodup_iff.2 (hrecounts.nodup_takenOut hnodup hplaces)
    · exact hrecounts.mem_of_mem_takenOut (hvs.mem_iff.1 hv)
    · rw [h.view_eq hu, hvs.mem_iff]
      exact hrecounts.mem_values_iff hnodup

namespace BitSet

variable {s : BitSet}

/-- The sets with an accurate size that have the capacity and the head of the set `s`. -/
def Kin (s a : BitSet) : Prop := a.Accurate ∧ a.capacity = s.capacity ∧ a.head = s.head

lemma head_remove (s : BitSet) (v : Nat) : (s.remove v).after.head = s.head := by
  rw [remove]
  split <;> rfl

lemma erases (s : BitSet) : Erases (Kin s) toList fun v a => a.remove v where
  nodup _ := nodup_toList _
  ext := by
    rintro a b ⟨ha, hcapacity, hhead⟩ ⟨hb, hcapacity', hhead'⟩ hmem
    refine ha.ext hb (hcapacity.trans hcapacity'.symm) (hhead.trans hhead'.symm) fun v => ?_
    rw [← mem_toList, hmem, mem_toList]
  keeps := by
    rintro a ⟨ha, hcapacity, hhead⟩ v
    exact ⟨ha.remove v, (capacity_remove a v).trans hcapacity, (head_remove a v).trans hhead⟩
  answer _ v := by rw [remove_answer_eq_true_iff, mem_toList]
  mem_iff _ u v := by
    rw [mem_toList, mem_toList, ← mem_members, members_remove, Finset.mem_erase, mem_members,
      and_comm]

lemma Walk.keeps_head (H : Fin 64) : Cursor.Keeps fun w : Walk => w.bits.head = H where
  hasNext _ h := h
  next w h := by
    show w.next.after.bits.head = H
    rw [next]
    split <;> exact h
  remove w h := by
    show w.remove.after.bits.head = H
    rw [remove]
    split <;> exact h

/-- A walk over a set leaves one of its kin. -/
lemma kin_performAll (h : s.Accurate) (calls : List (Call Nat)) :
    Kin s (performAll calls s.walk).after.bits := by
  have hsound : Walk.Sound s.capacity s.walk := ⟨rfl, h, nofun⟩
  have hafter := (Walk.keeps_sound s.capacity).performAll calls hsound
  exact ⟨hafter.accurate, hafter.capacity, (Walk.keeps_head s.head).performAll calls rfl⟩

lemma Accurate.removesAlike (h : s.Accurate) :
    RemovesAlike toList (fun v a => a.remove v) walk Walk.bits s :=
  (erases s).removesAlike Walk.tracks ⟨h, rfl, rfl⟩ (Walk.follows_walk s) (kin_performAll h)

end BitSet

namespace PartSet

variable {s : PartSet}

lemma erases :
    Erases (fun s : PartSet => Canonical s.runs.toList) toList fun p s => s.remove p where
  nodup h := nodup_toList h
  ext ha hb hmem := by
    refine eq_of_members_eq ha hb (Finset.ext fun p => ?_)
    rw [mem_members, mem_members, ← mem_toList, hmem, mem_toList]
  keeps h p := canonical_remove h p
  answer h p := by rw [remove_answer_eq_true_iff h, mem_toList]
  mem_iff h q p := by rw [mem_toList, mem_toList, mem_remove_iff h]

lemma Canonical.removesAlike (h : Canonical s.runs.toList) :
    RemovesAlike toList (fun p s => s.remove p) walk Walk.parts s :=
  erases.removesAlike Walk.tracks h (Walk.follows_walk h)
    fun calls => Walk.keeps_canonical.performAll calls h

end PartSet

variable {s₀ s : BitSet} {t : PartSet}

/-- Removals by a walk over a bit set or a part set, those of a filter as those of any other
script, leave the very set that the same removals leave when they are made directly, in any
order. -/
theorem removals_by_walk_agree (h₀ : BitSet.Origin s₀) (h : BitSet.Reaches s₀ s)
    (ht : t.Reachable) :
    RemovesAlike BitSet.toList (fun v s => s.remove v) BitSet.walk BitSet.Walk.bits s ∧
    RemovesAlike PartSet.toList (fun p t => t.remove p) PartSet.walk PartSet.Walk.parts t :=
  ⟨(h.accurate h₀.accurate).1.removesAlike, ht.canonical.removesAlike⟩

/-- A filter that removes the odd ones of three members, and a walk that cuts a run and shortens
it, against the same removals the other way round. -/
theorem removals_by_walk_agree_backwards :
    let s := ((((BitSet.ofCapacity ⟨6, by decide, by decide⟩).ask (.insert 2)).after.ask
      (.insert 3)).after.ask (.insert 5)).after
    let t := ((((PartSet.empty.ask (.insert 4)).after.ask (.insert 5)).after.ask
      (.insert 6)).after.ask (.insert 7)).after
    let calls : List (Call Part) := [.next, .next, .remove, .drain, .remove]
    OneByOne (fun v s => s.remove v) [5, 3] s
        (removeIf (.ofElement fun v => v % 2 == 1) s.walk).after.bits ∧
      OneByOne (fun p t => t.remove p) [7, 5] t (performAll calls t.walk).after.parts := by
  intro s t calls
  have hs : BitSet.Reaches _ s := .request _ (.request _ (.request _ .refl))
  have ht : t.Reachable := .request _ (.request _ (.request _ (.request _ .empty)))
  obtain ⟨hbits, hparts⟩ := removals_by_walk_agree (.ofCapacity _) hs ht
  have hodd : s.toList.filter (fun v => v % 2 == 1) = [3, 5] := by decide +kernel
  have htaken : takenOut ((trace calls t.walk).map Told.reply) = [5, 7] := by decide +kernel
  exact ⟨(hbits.filter _ [5, 3] (hodd ▸ .swap 3 5 [])).2,
    hparts.script calls [7, 5] (htaken ▸ .swap 5 7 [])⟩

end IntWalk
