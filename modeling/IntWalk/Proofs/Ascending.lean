import Mathlib.Data.List.Sort
import Mathlib.Tactic.Lemma

/-!
# Ascending lists

A walk over a set cuts the ascending list of its elements in two at a bound.  What
comes next is the first element ahead of the cut, which is the least one from the
bound on, and a removal closes the gap that the element leaves.
-/

namespace IntWalk

variable {α : Type} [LE α] [LT α] [Std.IsLinearOrder α] [Std.LawfulOrderLT α]
variable {behind ahead xs : List α} {bound v : α}

/-- The first element ahead of the cut is the least one that is not below the bound. -/
lemma head?_ahead_eq_some_iff (sorted : (behind ++ ahead).Pairwise (· < ·))
    (hbehind : ∀ u ∈ behind, u < bound) (hahead : ∀ u ∈ ahead, bound ≤ u) :
    ahead.head? = some v ↔
      v ∈ behind ++ ahead ∧ bound ≤ v ∧ ∀ u ∈ behind ++ ahead, bound ≤ u → v ≤ u := by
  have hmem : ∀ u, u ∈ behind ++ ahead → bound ≤ u → u ∈ ahead := by
    intro u hu hle
    refine (List.mem_append.1 hu).resolve_left fun hb => ?_
    exact Std.not_le.2 (hbehind u hb) hle
  have hfirst : ∀ u, ahead.head? = some u → ∀ u' ∈ ahead, u ≤ u' := by
    intro u hhead u' hu'
    obtain ⟨rest, rfl⟩ := List.head?_eq_some_iff.1 hhead
    rcases List.mem_cons.1 hu' with rfl | hu'
    · exact Std.le_refl u'
    · have hrest := (List.pairwise_cons.1 (List.pairwise_append.1 sorted).2.1).1
      exact Std.le_of_lt (hrest u' hu')
  constructor
  · intro hhead
    have hv : v ∈ ahead := List.mem_of_head? hhead
    refine ⟨List.mem_append_right _ hv, hahead v hv, fun u hu hle => ?_⟩
    exact hfirst v hhead u (hmem u hu hle)
  · rintro ⟨hv, hle, hleast⟩
    have hv := hmem v hv hle
    cases hhead : ahead.head? with
    | none =>
      rw [List.head?_eq_none_iff.1 hhead] at hv
      exact absurd hv List.not_mem_nil
    | some u =>
      have hu : u ∈ ahead := List.mem_of_head? hhead
      have hle' : v ≤ u := hleast u (List.mem_append_right _ hu) (hahead u hu)
      rw [Std.le_antisymm (hfirst u hhead v hv) hle']

/-- An ascending list that lacks one element of another has a gap in its place. -/
lemma eq_append_of_mem_iff (sorted : (behind ++ v :: ahead).Pairwise (· < ·))
    (hxs : xs.Pairwise (· < ·)) (hmem : ∀ u, u ∈ xs ↔ u ∈ behind ++ v :: ahead ∧ u ≠ v) :
    xs = behind ++ ahead := by
  have hv : v ∉ behind ++ ahead := by
    have hnodup : (behind ++ v :: ahead).Nodup := sorted.imp Std.ne_of_lt
    exact (List.nodup_cons.1 (List.nodup_middle.1 hnodup)).1
  have hkept := sorted.sublist ((List.sublist_cons_self v ahead).append_left behind)
  refine List.Pairwise.eq_of_mem_iff hxs hkept fun u => ?_
  rw [hmem, List.perm_middle.mem_iff, List.mem_cons]
  constructor
  · rintro ⟨rfl | hu, hne⟩
    · exact absurd rfl hne
    · exact hu
  · intro hu
    exact ⟨.inr hu, fun e => hv (e ▸ hu)⟩

end IntWalk
