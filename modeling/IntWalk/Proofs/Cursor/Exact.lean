import IntWalk.Bits.Walk
import IntWalk.Parts.Walk
import IntWalk.Proofs.Cursor.Path
import IntWalk.Proofs.Script
import IntWalk.Sequence.Walk

/-!
# Exact cursors

The walks over the three collections are exact: what they announce they give, a call that fails
changes nothing, and to give an element out earns the right to one removal.  So filtering never
fails on them, and calls that fail can be left out of a walk.  They are exact since they keep to
their progress (`Guided`).
-/

namespace IntWalk

variable {α : Type}

/-- Whether the reply is an error. -/
def Reply.failed : Reply α → Bool
  | .given (.error _) => true
  | .gone (.error _) => true
  | .swept ⟨.error _, _⟩ => true
  | _ => false

/-- The reply, unless it is an error. -/
def Reply.unlessFailed (r : Reply α) : Option (Reply α) := if r.failed then none else some r

lemma Reply.failed_swept_iff {out : Sweep α} :
    (Reply.swept out).failed = true ↔ ∃ e, out.removed = .error e := by
  rcases out with ⟨e | n, asked⟩
  · simp [failed]
  · simp [failed]

namespace Cursor

/-- What the cursor announces it gives, and a call that fails changes nothing. -/
structure Exact (σ : Type) [Cursor σ Event α] : Prop where
  asks : ∀ s : σ, hasNext s = .still (hasNext s).answer s
  announced : ∀ s : σ, (hasNext s).answer = true → ∃ v, (next s).answer = .ok v
  gives : ∀ s : σ, (∃ v t, next s = .still (.ok v) t) ∨
    ∃ n, next s = ⟨.error (.exhausted n), s, [.exhausted n]⟩
  removes : ∀ s : σ, (∃ t es, remove s = ⟨.ok (), t, es⟩ ∧ ∀ n, .exhausted n ∉ es) ∨
    ∃ why, remove s = .still (.error (.refused why)) s
  earned : ∀ (s : σ) (v : α), (next s).answer = .ok v → (remove (next s).after).answer = .ok ()
  spent : ∀ s : σ, (remove s).answer = .ok () →
    (remove (remove s).after).answer = .error (.refused .alreadyRemoved)

/-- The call, unless it fails. -/
def unlessFailing {σ ε : Type} [Cursor σ ε α] [Max α] (c : Call α) (s : σ) : Option (Call α) :=
  if (perform c s).answer.failed then none else some c

/-- The calls of a walk that do not fail. -/
def withoutFailing {σ ε : Type} [Cursor σ ε α] [Max α] (calls : List (Call α)) (s : σ) :
    List (Call α) := Step.trimAll unlessFailing perform calls s

lemma performAll_eq_runAll {σ ε : Type} [Cursor σ ε α] [Max α] (calls : List (Call α)) (s : σ) :
    performAll calls s = Step.runAll perform calls s := by
  induction calls generalizing s with
  | nil => rfl
  | cons c calls ih => simp only [performAll, Step.runAll, ih]

namespace Exact

variable {σ : Type} [Cursor σ Event α] (h : Exact σ) {s : σ} {e : WalkError}
include h

lemma hasNext_after (s : σ) : (hasNext s).after = s := by rw [h.asks s, Step.still_after]

lemma hasNext_events (s : σ) : (hasNext s).events = [] := by rw [h.asks s, Step.still_events]

lemma next_events {v : α} (got : (next s).answer = .ok v) : (next s).events = [] := by
  obtain ⟨v', t, hnext⟩ | ⟨n, hnext⟩ := h.gives s
  · rw [hnext, Step.still_events]
  · rw [hnext] at got
    cases got

lemma next_failed (he : (next s).answer = .error e) :
    (next s).after = s ∧ ∃ n, e = .exhausted n := by
  obtain ⟨v, t, hnext⟩ | ⟨n, hnext⟩ := h.gives s
  · rw [hnext] at he
    cases he
  · rw [hnext] at he ⊢
    cases he
    exact ⟨rfl, n, rfl⟩

lemma remove_failed (he : (remove s).answer = .error e) :
    (remove s).after = s ∧ ∃ why, e = .refused why := by
  obtain ⟨t, es, hremove, -⟩ | ⟨why, hremove⟩ := h.removes s
  · rw [hremove] at he
    cases he
  · rw [hremove] at he ⊢
    cases he
    exact ⟨rfl, why, rfl⟩

/-- An exact cursor reports nothing of being read. -/
lemma reading_silent {t : σ} {es : List Event} (path : Reading s es t) : es = [] := by
  induction path with
  | nil => rfl
  | ask _ ih => rw [h.hasNext_events, ih, List.append_nil]
  | @give s t es more _ ih =>
    obtain ⟨v, got⟩ := h.announced s more
    rw [h.hasNext_events, h.hasNext_after, h.next_events got, ih]
    rfl

/-- Filtering asks only for elements that there are, and removes each of them only once. -/
lemma sweep_done (choose : Chooser α) (asked : List α) (removed : Nat) (s : σ) (e : WalkError) :
    (sweep choose asked removed s).answer.removed ≠ .error e := by
  fun_induction sweep choose asked removed s with
  | case1 asked removed s has more given e' got =>
    obtain ⟨v, hv⟩ := h.announced s more
    rw [← h.hasNext_after s] at hv
    cases hv.symm.trans got
  | case2 asked removed s has more given v got chosen gone events e' refused =>
    have hgone : gone.answer = .ok () := h.earned _ v got
    rw [hgone] at refused
    cases refused
  | case3 asked removed s has more given v got chosen gone events done ih => exact ih
  | case4 asked removed s has more given v got chosen ih => exact ih
  | case5 asked removed s has more =>
    intro failed
    cases failed

variable [Max α]

lemma perform_failed {c : Call α} (hc : (perform c s).answer.failed = true) :
    (perform c s).after = s := by
  cases c with
  | next =>
    cases he : (next s).answer with
    | ok v => simp [perform, he, Reply.failed] at hc
    | error e => exact (h.next_failed he).1
  | remove =>
    cases he : (remove s).answer with
    | ok u => simp [perform, he, Reply.failed] at hc
    | error e => exact (h.remove_failed he).1
  | removeIf choose =>
    obtain ⟨e, he⟩ := Reply.failed_swept_iff.1 hc
    exact absurd he (h.sweep_done choose [] 0 s e)
  | hasNext | skip | value | take | nth | drain | count | greatest => cases hc

/-- The calls that fail can be left out of a walk. -/
lemma spares : Step.Spares (perform (σ := σ)) unlessFailing Reply.unlessFailed := by
  refine Step.spares_of_trims fun c s => ?_
  rw [unlessFailing]
  split
  · next hc =>
    refine .out ?_ (h.perform_failed hc)
    rw [Reply.unlessFailed, if_pos hc]
  · next hc =>
    refine .kept c ?_ rfl
    rw [Reply.unlessFailed, if_neg hc]

lemma performAll_withoutFailing (calls : List (Call α)) (s : σ) :
    (performAll (withoutFailing calls s) s).answer =
      (performAll calls s).answer.filterMap Reply.unlessFailed ∧
    (performAll (withoutFailing calls s) s).after = (performAll calls s).after := by
  rw [performAll_eq_runAll, performAll_eq_runAll]
  exact h.spares calls s

end Exact

/-! ## What makes a cursor exact -/

/-- The cursor keeps to its progress: an element announced advances it, and a removal is granted
as it says. -/
structure Guided {σ : Type} [Cursor σ Event α] (progress : σ → Progress) : Prop where
  asks : ∀ s : σ, hasNext s = .still (hasNext s).answer s
  gives : ∀ s : σ, (hasNext s).answer = true →
    ∃ v t, next s = .still (.ok v) t ∧ progress t = (progress s).advance
  exhausted : ∀ s : σ, (hasNext s).answer = false →
    next s = ⟨.error (.exhausted (progress s).yielded), s, [.exhausted (progress s).yielded]⟩
  refuses : ∀ (s : σ) (why : Refusal), (progress s).claimRemoval = .error why →
    remove s = .still (.error (.refused why)) s
  removes : ∀ (s : σ) (p : Progress), (progress s).claimRemoval = .ok p →
    ∃ t es, remove s = ⟨.ok (), t, es⟩ ∧ progress t = p ∧ ∀ n, .exhausted n ∉ es

namespace Guided

variable {σ : Type} [Cursor σ Event α] {progress : σ → Progress} (h : Guided progress)
include h

/-- A removal that was made used the right to it up. -/
lemma spent {s : σ} (gone : (remove s).answer = .ok ()) :
    (remove (remove s).after).answer = .error (.refused .alreadyRemoved) := by
  cases hs : (progress s).claimRemoval with
  | error why =>
    rw [h.refuses s why hs] at gone
    cases gone
  | ok p =>
    obtain ⟨t, es, hremove, hprogress, -⟩ := h.removes s p hs
    obtain ⟨-, rfl⟩ := Progress.claimRemoval_eq_ok_iff.1 hs
    have hclaim : (progress t).claimRemoval = .error .alreadyRemoved := by
      rw [hprogress]
      rfl
    rw [hremove, h.refuses t _ hclaim, Step.still_answer]

lemma exact : Exact σ where
  asks := h.asks
  announced s more := by
    obtain ⟨v, t, hnext, -⟩ := h.gives s more
    exact ⟨v, by rw [hnext, Step.still_answer]⟩
  gives s := by
    cases more : (hasNext s).answer with
    | false => exact .inr ⟨_, h.exhausted s more⟩
    | true =>
      obtain ⟨v, t, hnext, -⟩ := h.gives s more
      exact .inl ⟨v, t, hnext⟩
  removes s := by
    cases hs : (progress s).claimRemoval with
    | error why => exact .inr ⟨why, h.refuses s why hs⟩
    | ok p =>
      obtain ⟨t, es, hremove, -, hes⟩ := h.removes s p hs
      exact .inl ⟨t, es, hremove, hes⟩
  earned s v got := by
    cases more : (hasNext s).answer with
    | false =>
      rw [h.exhausted s more] at got
      cases got
    | true =>
      obtain ⟨v', t, hnext, hprogress⟩ := h.gives s more
      have hclaim : (progress t).claimRemoval = .ok ⟨.removed, (progress s).yielded + 1⟩ := by
        rw [hprogress, Progress.claimRemoval_advance]
      obtain ⟨u, es, hremove, -⟩ := h.removes t _ hclaim
      rw [hnext, Step.still_after, hremove]
  spent s gone := h.spent gone

end Guided

end Cursor

/-! ## The three walks -/

namespace Sequence.Walk

lemma guided : Cursor.Guided (progress (α := α)) where
  asks w := rfl
  gives w more := by
    change (!w.ahead.isEmpty) = true at more
    change ∃ v t, w.next = _ ∧ _
    rw [next]
    cases hw : w.ahead with
    | nil => simp [hw] at more
    | cons v ahead => exact ⟨v, _, rfl, rfl⟩
  exhausted w more := by
    change (!w.ahead.isEmpty) = false at more
    change w.next = _
    rw [next]
    cases hw : w.ahead with
    | nil => rfl
    | cons v ahead => simp [hw] at more
  refuses w why hw := by
    change w.remove = _
    rw [remove, hw]
  removes w p hw := by
    change ∃ t es, w.remove = _ ∧ _
    rw [remove, hw]
    exact ⟨_, _, rfl, rfl, by simp⟩

lemma exact : Cursor.Exact (Walk α) := guided.exact

end Sequence.Walk

namespace BitSet.Walk

lemma guided : Cursor.Guided progress where
  asks w := rfl
  gives w more := by
    obtain ⟨v, hv⟩ := Option.isSome_iff_exists.1 more
    change ∃ v t, w.next = _ ∧ _
    rw [next, hv]
    exact ⟨v, _, rfl, rfl⟩
  exhausted w more := by
    have hpeek : w.peek = none := Option.isNone_iff_eq_none.1 (Option.isSome_eq_false_iff.1 more)
    change w.next = _
    rw [next, hpeek]
  refuses w why hw := by
    change w.remove = _
    rw [remove, hw]
  removes w p hw := by
    change ∃ t es, w.remove = _ ∧ _
    rw [remove, hw]
    exact ⟨_, _, rfl, rfl, by simp⟩

lemma exact : Cursor.Exact Walk := guided.exact

end BitSet.Walk

namespace PartSet

lemma exhausted_not_mem_remove (s : PartSet) (p : Part) (n : Nat) :
    .exhausted n ∉ (s.remove p).events := by
  rw [remove]
  cases s.runs[s.firstReaching p]?.filter (·.first ≤ p) with
  | none => simp
  | some r => simp

namespace Walk

lemma guided : Cursor.Guided progress where
  asks w := rfl
  gives w more := by
    obtain ⟨p, hp⟩ := Option.isSome_iff_exists.1 more
    change ∃ v t, w.next = _ ∧ _
    rw [next, hp]
    exact ⟨p, _, rfl, rfl⟩
  exhausted w more := by
    have hpeek : w.peek = none := Option.isNone_iff_eq_none.1 (Option.isSome_eq_false_iff.1 more)
    change w.next = _
    rw [next, hpeek]
  refuses w why hw := by
    change w.remove = _
    rw [remove, hw]
  removes w p hw := by
    change ∃ t es, w.remove = _ ∧ _
    rw [remove, hw]
    cases w.current with
    | none => exact ⟨_, _, rfl, rfl, by simp⟩
    | some q => exact ⟨_, _, rfl, rfl, by simp [exhausted_not_mem_remove]⟩

lemma exact : Cursor.Exact Walk := guided.exact

end Walk

end PartSet

end IntWalk
