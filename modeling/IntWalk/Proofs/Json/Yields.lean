import IntWalk.Json.Reader
import Mathlib.Tactic.Lemma

/-!
# What a reader yields

`Yields r P` says that the reader `r` makes no value without the property `P`,
whatever the tokens are.  The lemmas below carry such a property from the items of
a list to the list, and from the fields of a record to the record.
-/

namespace IntWalk.Json.Reader

variable {α β σ : Type}

/-- Whatever value the reader makes has the property. -/
def Yields (r : Reader α) (P : α → Prop) : Prop :=
  ∀ ⦃ts : List Token⦄ ⦃v : α⦄ ⦃rest : List Token⦄, r ts = .ok (v, rest) → P v

variable {r : Reader α} {P : α → Prop} {Q : β → Prop}

lemma yields_true (r : Reader α) : Yields r fun _ => True := fun _ _ _ _ => trivial

lemma yields_pure {v : α} (h : P v) : Yields (pure v) P := by
  rintro ts w rest ⟨⟩
  exact h

lemma yields_throw (fault : Fault) : Yields (throw fault) P := by
  rintro ts v rest ⟨⟩

lemma Yields.bind {k : α → Reader β} (h : Yields r P) (hk : ∀ v, P v → Yields (k v) Q) :
    Yields (r >>= k) Q := by
  intro ts w rest ran
  -- the first reader must have succeeded, or the second one would not have run
  cases hr : r ts with
  | error fault => simp [Bind.bind, StateT.bind, Except.bind, hr] at ran
  | ok x =>
    simp only [Bind.bind, StateT.bind, Except.bind, hr] at ran
    exact hk x.1 (h hr) ran

lemma Yields.of_any {k : α → Reader β} (hk : ∀ v, Yields (k v) Q) : Yields (r >>= k) Q :=
  (yields_true r).bind fun v _ => hk v

lemma yields_number {accept : Bool → Nat → Option α}
    (h : ∀ negative n v, accept negative n = some v → P v) : Yields (number accept) P := by
  intro ts v rest ran
  unfold number at ran
  split at ran
  · split at ran
    · next accepted =>
      cases ran
      exact h _ _ _ accepted
    · cases ran
  · cases ran

lemma yields_natural (bound : Nat) : Yields (natural bound) fun n => n ≤ bound := by
  refine yields_number fun negative n v accepted => ?_
  split at accepted
  · cases accepted
  · split at accepted
    · next hle =>
      cases accepted
      exact hle
    · cases accepted

/-- A value decoded from a text was made by the reader. -/
lemma Yields.of_decode (h : Yields r P) {text : String} {v : α} (ok : decode r text = .ok v) :
    P v := by
  unfold decode at ok
  split at ok
  · next w hw =>
    cases ok
    exact h hw
  · cases ok
  · cases ok

/-! ## Lists -/

lemma yields_items (h : Yields r P) (n : Nat) : Yields (items r n) fun vs => ∀ v ∈ vs, P v := by
  induction n with
  | zero => exact yields_throw _
  | succ n ih =>
    rw [items]
    refine h.bind fun v hv => .of_any fun t => ?_
    split
    · refine ih.bind fun vs hvs => yields_pure ?_
      exact List.forall_mem_cons.2 ⟨hv, hvs⟩
    · exact yields_pure (List.forall_mem_singleton.2 hv)
    · exact yields_throw _

lemma yields_array (h : Yields r P) : Yields (array r) fun vs => ∀ v ∈ vs, P v := by
  refine .of_any fun _ => .of_any fun ts => ?_
  split
  · exact .of_any fun _ => yields_pure (List.forall_mem_nil P)
  · exact yields_items h _

/-! ## Records -/

section Record

variable {I : σ → Prop} {fields : List (Field σ)}

lemma yields_positions (h : ∀ f ∈ fields, ∀ s, I s → Yields (f.read s) I) {s : σ} (hs : I s) :
    Yields (positions fields s) I := by
  induction fields generalizing s with
  | nil => exact .of_any fun _ => yields_pure hs
  | cons f fs ih =>
    have first := h f (List.mem_cons_self ..) s hs
    cases fs with
    | nil => exact first.bind fun t ht => .of_any fun _ => yields_pure ht
    | cons g gs =>
      refine first.bind fun t ht => .of_any fun _ => ?_
      exact ih (fun f hf => h f (List.mem_cons_of_mem _ hf)) ht

lemma yields_members (known : List String) (lenient : Bool) (n : Nat)
    (h : ∀ f ∈ fields, ∀ s, I s → Yields (f.read s) I) {s : σ} (hs : I s) :
    Yields (members known lenient n fields s) I := by
  induction n generalizing fields s with
  | zero => exact yields_throw _
  | succ n ih =>
    rw [members]
    refine .of_any fun key => ?_
    extract_lets rest
    -- what follows a member, whichever fields are still missing then
    have hrest : ∀ missing t, (∀ f ∈ missing, ∀ s, I s → Yields (f.read s) I) → I t →
        Yields (rest (missing, t)) I := by
      intro missing t hm ht
      refine .of_any fun tok => ?_
      split
      · exact ih hm ht
      · split
        · exact yields_pure ht
        · exact yields_throw _
      · exact yields_throw _
    split
    · next f found =>
      refine .of_any fun _ => ?_
      refine (h f (List.mem_of_find?_eq_some found) s hs).bind fun t ht => ?_
      exact hrest _ t (fun g hg => h g (List.mem_filter.1 hg).1) ht
    · split
      · exact (yields_throw (P := fun _ => False) _).bind fun _ => False.elim
      · exact .of_any fun _ => .of_any fun _ => hrest _ s h hs

lemma yields_record (lenient : Bool) (h : ∀ f ∈ fields, ∀ s, I s → Yields (f.read s) I) {s : σ}
    (hs : I s) : Yields (record fields lenient s) I := by
  refine .of_any fun t => ?_
  split
  · exact yields_positions h hs
  · refine .of_any fun ts => ?_
    split
    · refine .of_any fun _ => ?_
      split
      · exact yields_pure hs
      · exact yields_throw _
    · exact yields_members _ lenient _ h hs
  · exact yields_throw _

end Record

end IntWalk.Json.Reader
