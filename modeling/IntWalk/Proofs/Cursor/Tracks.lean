import IntWalk.Proofs.Bits.Contract
import IntWalk.Proofs.Cursor.Exact
import IntWalk.Proofs.Cursor.Trace
import IntWalk.Proofs.Parts.Contract

/-!
# Cursors in the middle of a walk

The walks over the three collections do what the walk over a list does, and keep to their
progress: they `Track` a list.  So a loop over any of them can be followed round by round on the
list (`Round`), and whatever holds of a tracking cursor and the elements still ahead of it holds
in every state that calls can bring the walk to (`Midway`).
-/

namespace IntWalk

variable {σ ε α : Type}

lemma Step.still_andThen {ρ φ : Type} (a : ρ) (s : σ) (k : ρ → σ → Step ε σ φ) :
    (still a s).andThen k = k a s := rfl

/-- No place is taken twice: the place given out last is taken only if it was not before. -/
lemma Sequence.Walk.Recounts.nodup_perform [Max α] {xs : List α} {rs : List (Reply α)}
    {u : Sequence.Walk α} (h : u.Recounts xs rs) (hrs : (takenPlaces 0 rs).Nodup)
    (p : Primitive) : (takenPlaces 0 (rs ++ [(Cursor.perform p.call u).answer])).Nodup := by
  cases p with
  | hasNext =>
    have hsilent : (Reply.flag u.hasNext.answer : Reply α).Silent := ⟨nofun, nofun⟩
    show (takenPlaces 0 (rs ++ [.flag u.hasNext.answer])).Nodup
    rwa [hsilent.takenPlaces]
  | next =>
    show (takenPlaces 0 (rs ++ [.given u.next.answer])).Nodup
    cases u.next.answer with
    | ok v => rwa [takenPlaces_given]
    | error e =>
      have hsilent : (Reply.given (.error e) : Reply α).Silent := ⟨nofun, nofun⟩
      rwa [hsilent.takenPlaces]
  | remove =>
    show (takenPlaces 0 (rs ++ [.gone u.remove.answer])).Nodup
    cases hgone : u.remove.answer with
    | ok done =>
      have hstanding := h.returned.2 (h.contract.removes.1 hgone)
      rw [takenPlaces_gone]
      refine List.nodup_append.2 ⟨hrs, List.nodup_singleton _, ?_⟩
      rintro i hi _ hlast rfl
      have hlt := h.last hstanding i hi
      have hlast := List.mem_singleton.1 hlast
      omega
    | error e =>
      have hsilent : (Reply.gone (.error e) : Reply α).Silent := ⟨nofun, nofun⟩
      rwa [hsilent.takenPlaces]

namespace Cursor

/-- Whatever the calls on the cursor over the elements `xs` were, the property holds afterwards:
of the elements that they gave out and did not take out again, of those not given out yet, and
of the state. -/
def Midway [Cursor σ ε α] [Max α] (xs : List α) (s : σ) (P : List α → List α → σ → Prop) :
    Prop :=
  ∀ calls : List (Call α),
    let told := (trace calls s).map Told.reply
    ∃ left, givenOut told ++ left = xs ∧
      P (leaveOut (takenPlaces 0 told) (givenOut told)) left (performAll calls s).after

lemma Midway.imp [Cursor σ ε α] [Max α] {xs : List α} {s : σ} {P Q : List α → List α → σ → Prop}
    (h : Midway xs s P)
    (hPQ : ∀ passed left t, left.length ≤ xs.length → P passed left t → Q passed left t) :
    Midway xs s Q := by
  intro calls told
  obtain ⟨left, hleft, hP⟩ := h calls
  refine ⟨left, hleft, hPQ _ _ _ ?_ hP⟩
  rw [← hleft, List.length_append]
  exact Nat.le_add_left _ _

/-- What holds in the middle of every walk holds after these calls, which gave out `given` and
took out the places `places` of it. -/
lemma Midway.after [Cursor σ ε α] [Max α] {xs : List α} {s : σ} {P : List α → List α → σ → Prop}
    (h : Midway xs s P) {calls : List (Call α)} {given left : List α} {places : List Nat}
    (hgiven : givenOut ((trace calls s).map Told.reply) = given)
    (hplaces : takenPlaces 0 ((trace calls s).map Told.reply) = places)
    (hxs : xs = given ++ left) : P (leaveOut places given) left (performAll calls s).after := by
  obtain ⟨rest, hrest, hP⟩ := h calls
  rw [hgiven, hxs, List.append_cancel_left_eq] at hrest
  rwa [hgiven, hplaces, hrest] at hP

/-- The trace of a cursor that mirrors the walk over a list is the history of such a walk. -/
lemma Mirrors.exists_recounts_trace [Cursor σ ε α] [Max α] {R : σ → Sequence.Walk α → Prop}
    (m : Mirrors R) {s : σ} {xs : List α} (h : R s (Sequence.walk ⟨xs⟩)) (calls : List (Call α)) :
    (∃ u, R (Cursor.performAll calls s).after u ∧
      u.Recounts xs ((trace calls s).map Told.reply)) ∧
    (takenPlaces 0 ((trace calls s).map Told.reply)).Nodup := by
  have hstart := Sequence.Walk.recounts_walk (⟨xs⟩ : Sequence α)
  refine (chronicle (fun ts t => (∃ u, R t u ∧ u.Recounts xs (ts.map Told.reply)) ∧
    (takenPlaces 0 (ts.map Told.reply)).Nodup) (fun _ _ => True) ?_
    ⟨⟨_, h, hstart⟩, List.nodup_nil⟩ calls).1
  rintro p ts t ⟨⟨u, hrelated, hrecounts⟩, hnodup⟩
  obtain ⟨hanswer, -⟩ := (m.echoes.perform p.call hrelated).1
  refine ⟨trivial, ?_⟩
  rw [List.map_append]
  refine ⟨m.exists_recounts_perform hrelated hrecounts p, ?_⟩
  rw [List.map_singleton, told, hanswer]
  exact hrecounts.nodup_perform hnodup p

/-! ## One round of a loop -/

section Loops

variable [Cursor σ ε α] {s t : σ} {v : α}

lemma skip_of_ended (asked : hasNext s = .still false s) (n : Nat) : skip n s = .still 0 s := by
  cases n with
  | zero => rfl
  | succ n =>
    rw [skip, asked]
    rfl

lemma skip_of_given (asked : hasNext s = .still true s) (given : next s = .still (.ok v) t)
    (n : Nat) : skip (n + 1) s = (skip n t).map (· + 1) := by
  rw [skip, asked, Step.still_andThen, if_pos rfl, given, Step.still_andThen]

lemma value?_of_ended (asked : hasNext s = .still false s) : value? s = .still none s := by
  rw [value?, asked]
  rfl

lemma value?_of_given (asked : hasNext s = .still true s) (given : next s = .still (.ok v) t) :
    value? s = .still (some v) t := by
  rw [value?, asked, Step.still_andThen, if_pos rfl, given]
  rfl

lemma take_of_ended (asked : hasNext s = .still false s) (n : Nat) : take n s = .still [] s := by
  cases n with
  | zero => rfl
  | succ n =>
    rw [take, value?_of_ended asked]
    rfl

lemma take_of_given (asked : hasNext s = .still true s) (given : next s = .still (.ok v) t)
    (n : Nat) : take (n + 1) s = (take n t).map (v :: ·) := by
  rw [take, value?_of_given asked given, Step.still_andThen]

lemma drain_of_ended (asked : hasNext s = .still false s) : drain s = .still [] s := by
  rw [drain_eq, value?_of_ended asked, Step.still_andThen]

lemma drain_of_given (asked : hasNext s = .still true s) (given : next s = .still (.ok v) t) :
    drain s = (drain t).map (v :: ·) := by
  rw [drain_eq, value?_of_given asked given, Step.still_andThen]

end Loops

/-! ## Cursors that track a list -/

variable [Cursor σ Event α]

/-- The cursor does what the walk over a list does, keeps to its progress and holds what is in
the list. -/
structure Tracks (R : σ → Sequence.Walk α → Prop) (view : σ → List α) (progress : σ → Progress) :
    Prop where
  mirrors : Mirrors R
  guided : Guided progress
  view_eq : ∀ {s u}, R s u → view s = u.behind.reverse ++ u.ahead
  progress_eq : ∀ {s u}, R s u → progress s = u.progress

/-- What a loop meets in one round: the end of the walk, or the first element ahead. -/
inductive Round (R : σ → Sequence.Walk α → Prop) (s : σ) : Sequence.Walk α → Prop
  | ended {behind : List α} {p : Progress} (asked : hasNext s = .still false s)
      (vain : next s = ⟨.error (.exhausted p.yielded), s, [.exhausted p.yielded]⟩) :
      Round R s ⟨behind, [], p⟩
  | gives {behind rest : List α} {v : α} {p : Progress} {t : σ}
      (asked : hasNext s = .still true s) (given : next s = .still (.ok v) t)
      (tracked : R t ⟨v :: behind, rest, p.advance⟩) : Round R s ⟨behind, v :: rest, p⟩

namespace Tracks

variable {R : σ → Sequence.Walk α → Prop} {view : σ → List α} {progress : σ → Progress}
variable (h : Tracks R view progress) {s : σ} {u : Sequence.Walk α} (hs : R s u)
include h hs

lemma round : Round R s u := by
  obtain ⟨behind, ahead, p⟩ := u
  have hmore := (h.mirrors.hasNext s _ hs).1
  have hasked := h.guided.asks s
  obtain ⟨hanswer, hafter⟩ := h.mirrors.next s _ hs
  cases ahead with
  | nil =>
    have hvain := h.guided.exhausted s hmore
    rw [h.progress_eq hs] at hvain
    rw [hmore] at hasked
    exact .ended hasked hvain
  | cons v rest =>
    rw [hmore] at hasked
    obtain ⟨v', t, hnext, -⟩ := h.guided.gives s hmore
    rw [hnext] at hanswer hafter
    obtain rfl : v' = v := Except.ok.inj hanswer
    exact .gives hasked hnext hafter

lemma drain_answer : (drain s).answer = u.ahead := by
  obtain ⟨behind, ahead, p⟩ := u
  induction ahead generalizing s behind p with
  | nil =>
    obtain ⟨hasked, -⟩ := h.round hs
    rw [drain_of_ended hasked]
    rfl
  | cons v ahead ih =>
    obtain - | ⟨hasked, hgiven, htracked⟩ := h.round hs
    rw [drain_of_given hasked hgiven, Step.map_answer, ih _ _ htracked]

omit hs in
/-- A removal that is granted takes away the element next to the cut. -/
lemma remove_of_returned {v : α} {behind ahead : List α} {p : Progress}
    (hs : R s ⟨v :: behind, ahead, p⟩) (hp : p.standing = .returned) :
    (remove s).answer = .ok () ∧ R (remove s).after ⟨behind, ahead, ⟨.removed, p.yielded⟩⟩ := by
  obtain ⟨standing, n⟩ := p
  obtain rfl : standing = .returned := hp
  exact h.mirrors.remove s _ hs

omit hs in
/-- What holds wherever the list is tracked holds in the middle of every walk over it. -/
lemma midway [Max α] {xs : List α} (hs : R s (Sequence.walk ⟨xs⟩))
    {P : List α → List α → σ → Prop} (hP : ∀ s u, R s u → P u.behind.reverse u.ahead s) :
    Midway xs s P := by
  intro calls told
  obtain ⟨⟨u, hrelated, hrecounts⟩, -⟩ := h.mirrors.exists_recounts_trace hs calls
  refine ⟨u.ahead, hrecounts.given, ?_⟩
  rw [← hrecounts.kept]
  exact hP _ u hrelated

end Tracks

end Cursor

/-! ## The three walks -/

namespace Sequence.Walk

variable {α : Type}

lemma mirrors_eq : Cursor.Mirrors (Eq (α := Walk α)) where
  hasNext _ _ h := h ▸ ⟨rfl, rfl⟩
  next _ _ h := h ▸ ⟨rfl, rfl⟩
  remove _ _ h := h ▸ ⟨rfl, rfl⟩

lemma tracks : Cursor.Tracks (Eq (α := Walk α)) (fun w => w.sequence.values) progress where
  mirrors := mirrors_eq
  guided := guided
  view_eq h := h ▸ rfl
  progress_eq h := h ▸ rfl

end Sequence.Walk

lemma BitSet.Walk.tracks : Cursor.Tracks Follows (fun w => w.bits.toList) progress where
  mirrors := mirrors_follows
  guided := guided
  view_eq h := h.members
  progress_eq h := h.progress

lemma PartSet.Walk.tracks : Cursor.Tracks Follows (fun w => w.parts.toList) progress where
  mirrors := mirrors_follows
  guided := guided
  view_eq h := h.parts
  progress_eq h := h.progress

end IntWalk
