import IntWalk.Cursor.Prescribed
import IntWalk.Cursor.Progress
import IntWalk.Proofs.Cursor.Mirror
import Mathlib.Data.List.Basic
import Mathlib.Tactic.Lemma

/-!
# What a walk was told

The replies to a walk are its history.  They tell which elements were given out,
which of these were taken out again, and whether the last of them may still be.  A
cursor meets the `Contract` over a list of elements if its answers and its progress
are what the history says they have to be.
-/

namespace IntWalk

variable {α : Type}

/-- The call that is this one of the three. -/
def Primitive.call : Primitive → Call α
  | .hasNext => .hasNext
  | .next => .next
  | .remove => .remove

/-! ## Histories -/

/-- The element that the reply gives out. -/
def Reply.element? : Reply α → Option α
  | .given (.ok v) => some v
  | _ => none

/-- The elements given out, in order. -/
def givenOut (rs : List (Reply α)) : List α := rs.filterMap Reply.element?

/-- The places among the elements given out, of which there were `n` before, of those
taken out again: a removal takes out the element given out last. -/
def takenPlaces : Nat → List (Reply α) → List Nat
  | _, [] => []
  | n, .given (.ok _) :: rs => takenPlaces (n + 1) rs
  | n, .gone (.ok _) :: rs => (n - 1) :: takenPlaces n rs
  | n, _ :: rs => takenPlaces n rs

/-- The elements taken out again, in order. -/
def takenOut (rs : List (Reply α)) : List α :=
  (takenPlaces 0 rs).filterMap fun i => (givenOut rs)[i]?

/-- An element was given out, and since then nothing was removed. -/
def Removable (rs : List (Reply α)) : Prop :=
  ∃ early v late, rs = early ++ .given (.ok v) :: late ∧ ∀ u, .gone (.ok u) ∉ late

/-- The reply gives no element out and removes none. -/
def Reply.Silent (r : Reply α) : Prop :=
  (∀ v, r ≠ .given (.ok v)) ∧ ∀ u, r ≠ .gone (.ok u)

variable {rs rs' : List (Reply α)} {r : Reply α} {v : α}

/-! ## One more reply -/

lemma Reply.element?_eq_none (h : ∀ v, r ≠ .given (.ok v)) : r.element? = none := by
  fun_cases Reply.element? r with
  | case1 v => exact absurd rfl (h v)
  | case2 => rfl

@[simp] lemma givenOut_nil : givenOut ([] : List (Reply α)) = [] := rfl

@[simp] lemma givenOut_flag_cons (b : Bool) : givenOut (.flag b :: rs) = givenOut rs := rfl

@[simp] lemma givenOut_given_cons (v : α) : givenOut (.given (.ok v) :: rs) = v :: givenOut rs :=
  rfl

@[simp] lemma givenOut_failed_cons (e : WalkError) :
    givenOut (.given (.error e) :: rs) = givenOut rs := rfl

@[simp] lemma givenOut_gone_cons (a : Except WalkError Unit) :
    givenOut (.gone a :: rs) = givenOut rs := rfl

lemma givenOut_append : givenOut (rs ++ rs') = givenOut rs ++ givenOut rs' :=
  List.filterMap_append

lemma takenPlaces_append (n : Nat) : takenPlaces n (rs ++ rs') =
    takenPlaces n rs ++ takenPlaces (n + (givenOut rs).length) rs' := by
  fun_induction takenPlaces n rs with
  | case1 n => rfl
  | case2 n v rs ih =>
    have hlen : (givenOut (Reply.given (.ok v) :: rs)).length = (givenOut rs).length + 1 := rfl
    rw [List.cons_append, takenPlaces, ih, hlen]
    congr 2
    omega
  | case3 n u rs ih =>
    rw [List.cons_append, takenPlaces, ih]
    rfl
  | case4 n r rs hgiven hgone ih =>
    have hr : r.element? = none := Reply.element?_eq_none hgiven
    rw [List.cons_append, takenPlaces, ih, givenOut, givenOut, List.filterMap_cons_none hr]
    · exact hgiven
    · exact hgone

lemma not_removable_nil : ¬ Removable ([] : List (Reply α)) := by
  rintro ⟨early, v, late, h, -⟩
  cases early <;> cases h

lemma removable_append_singleton : Removable (rs ++ [r]) ↔
    (∃ v, r = .given (.ok v)) ∨ Removable rs ∧ ∀ u, r ≠ .gone (.ok u) := by
  constructor
  · rintro ⟨early, v, late, h, hlate⟩
    -- what was given out last is the last reply, or stands before it
    rcases List.eq_nil_or_concat' late with rfl | ⟨late, last, rfl⟩
    · have hr : [r] = [.given (.ok v)] := (List.append_inj' h rfl).2
      exact .inl ⟨v, (List.cons.inj hr).1⟩
    · rw [← List.cons_append, ← List.append_assoc] at h
      obtain ⟨hrs, hr⟩ := List.append_inj' h rfl
      obtain rfl := (List.cons.inj hr).1
      refine .inr ⟨⟨early, v, late, hrs, fun u hu => ?_⟩, fun u hu => ?_⟩
      · exact hlate u (List.mem_append_left _ hu)
      · exact hlate u (List.mem_append_right _ (List.mem_singleton.2 hu.symm))
  · rintro (⟨v, rfl⟩ | ⟨⟨early, v, late, rfl, hlate⟩, hr⟩)
    · exact ⟨rs, v, [], rfl, by simp⟩
    · refine ⟨early, v, late ++ [r], by simp, fun u hu => ?_⟩
      rcases List.mem_append.1 hu with hu | hu
      · exact hlate u hu
      · exact hr u (List.mem_singleton.1 hu).symm

section Silent

variable (h : r.Silent)
include h

lemma Reply.Silent.givenOut : givenOut (rs ++ [r]) = givenOut rs := by
  have hr : IntWalk.givenOut [r] = [] := List.filterMap_cons_none (Reply.element?_eq_none h.1)
  rw [givenOut_append, hr, List.append_nil]

lemma Reply.Silent.takenPlaces : takenPlaces 0 (rs ++ [r]) = takenPlaces 0 rs := by
  rw [takenPlaces_append, IntWalk.takenPlaces, IntWalk.takenPlaces, List.append_nil]
  · exact h.1
  · exact h.2

lemma Reply.Silent.removable : Removable (rs ++ [r]) ↔ Removable rs := by
  rw [removable_append_singleton]
  exact ⟨fun hr => hr.elim (fun ⟨v, hv⟩ => absurd hv (h.1 v)) And.left, fun hr => .inr ⟨hr, h.2⟩⟩

end Silent

lemma givenOut_given (rs : List (Reply α)) (v : α) :
    givenOut (rs ++ [.given (.ok v)]) = givenOut rs ++ [v] := givenOut_append

lemma takenPlaces_given (rs : List (Reply α)) (v : α) :
    takenPlaces 0 (rs ++ [.given (.ok v)]) = takenPlaces 0 rs := by
  rw [takenPlaces_append]
  exact List.append_nil _

lemma givenOut_gone (rs : List (Reply α)) (u : Unit) :
    givenOut (rs ++ [.gone (.ok u)]) = givenOut rs := by
  rw [givenOut_append]
  exact List.append_nil _

lemma takenPlaces_gone (rs : List (Reply α)) (u : Unit) :
    takenPlaces 0 (rs ++ [.gone (.ok u)]) = takenPlaces 0 rs ++ [(givenOut rs).length - 1] := by
  rw [takenPlaces_append, Nat.zero_add]
  rfl

/-! ## The contract -/

/-- After the replies `rs` the cursor stands where they say: it gives out the elements
`xs` in order and removes the one given out last. -/
structure Cursor.Contract {σ ε : Type} [Cursor σ ε α] (xs : List α) (rs : List (Reply α)) (w : σ)
    (progress : Progress) : Prop where
  inOrder : givenOut rs <+: xs
  announces : (hasNext w).answer = true ↔ (givenOut rs).length < xs.length
  gives : ∀ v, (next w).answer = .ok v ↔ xs[(givenOut rs).length]? = some v
  exhausted : ∀ e, (next w).answer = .error e ↔
    xs.length ≤ (givenOut rs).length ∧ e = .exhausted xs.length
  removes : (remove w).answer = .ok () ↔ Removable rs
  nothingReturned : (remove w).answer = .error (.refused .nothingReturned) ↔ givenOut rs = []
  alreadyRemoved : (remove w).answer = .error (.refused .alreadyRemoved) ↔
    givenOut rs ≠ [] ∧ ¬ Removable rs
  yielded : progress.yielded = (givenOut rs).length
  unread : progress.standing = .unread ↔ givenOut rs = []
  returned : progress.standing = .returned ↔ Removable rs
  removed : progress.standing = .removed ↔ givenOut rs ≠ [] ∧ ¬ Removable rs

/-- What mirrors a cursor that meets the contract meets it too. -/
lemma Cursor.Mirrors.contract {σ τ ε ε' : Type} [Cursor σ ε α] [Cursor τ ε' α]
    {R : σ → τ → Prop} (m : Mirrors R) {s : σ} {t : τ} (h : R s t) {xs : List α}
    {progress : Progress} (met : Contract xs rs t progress) : Contract xs rs s progress :=
  { met with
    announces := by rw [(m.hasNext s t h).1, met.announces]
    gives := by
      rw [(m.next s t h).1]
      exact met.gives
    exhausted := by
      rw [(m.next s t h).1]
      exact met.exhausted
    removes := by rw [(m.remove s t h).1, met.removes]
    nothingReturned := by rw [(m.remove s t h).1, met.nothingReturned]
    alreadyRemoved := by rw [(m.remove s t h).1, met.alreadyRemoved] }

end IntWalk
