import IntWalk.Proofs.Checked.Machine
import IntWalk.Sequence.Walk

/-!
# Sequences with checks

The values of a sequence lie in an array, and a walk keeps the index of the next one.  A
removal counts the index back and takes out the value there.  The walk that cuts its values in
two shows that this goes through: while a value may be removed there is one behind the cut, and
it is the one before the index.
-/

namespace IntWalk.Sequence

variable {α : Type}

/-- A walk that keeps its values in an array and the index of the next one. -/
structure Indexed (α : Type) where
  /-- The values as they are now. -/
  values : Array α
  /-- The index of the next value. -/
  position : Nat
  /-- How far the walk has come. -/
  progress : Progress

namespace Indexed

variable {w : Indexed α}

/-- Whether a value is left. -/
def hasNext? (w : Indexed α) : Option (Bool × Indexed α) :=
  some (decide (w.position < w.values.size), w)

/-- Gives out the next value, with checks. -/
def next? (w : Indexed α) : Option (Except WalkError α × Indexed α) :=
  match w.values[w.position]? with
  | none => some (.error (.exhausted w.progress.yielded), w)
  | some v => do
    let position ← Checked.add w.position 1
    let progress ← Checked.advance w.progress
    return (.ok v, ⟨w.values, position, progress⟩)

/-- Takes the value given out last out of the array, with checks. -/
def remove? (w : Indexed α) : Option (Except WalkError Unit × Indexed α) :=
  match w.progress.claimRemoval with
  | .error why => some (.error (.refused why), w)
  | .ok progress => do
    let position ← Checked.sub w.position 1
    let values ← Checked.erase w.values position
    return (.ok (), ⟨values, position, progress⟩)

/-- How many values are still to be given out, with checks. -/
def remaining? (w : Indexed α) : Option Nat := Checked.sub w.values.size w.position

/-- How many values there are from the index on. -/
def budget (w : Indexed α) : Nat := w.values.size - w.position

lemma budget_of_next? {v : α} {t : Indexed α} (h : w.next? = some (.ok v, t)) :
    t.budget < w.budget := by
  rw [next?] at h
  split at h
  · cases h
  · next v hv =>
    obtain ⟨hlt, -⟩ := Array.getElem?_eq_some_iff.1 hv
    obtain ⟨position, hposition, h⟩ := Option.bind_eq_some_iff.1 h
    obtain ⟨-, rfl⟩ := Checked.add_eq_some_iff.1 hposition
    obtain ⟨progress, -, h⟩ := Option.bind_eq_some_iff.1 h
    cases h
    show w.values.size - (w.position + 1) < w.values.size - w.position
    omega

/-- A removal takes one value from before the index and counts the index back by one. -/
lemma budget_of_remove? {r : Except WalkError Unit} {t : Indexed α}
    (h : w.remove? = some (r, t)) : t.budget ≤ w.budget := by
  rw [remove?] at h
  split at h
  · cases h
    exact Nat.le_refl _
  · obtain ⟨position, hposition, h⟩ := Option.bind_eq_some_iff.1 h
    obtain ⟨hle, rfl⟩ := Checked.sub_eq_some_iff.1 hposition
    obtain ⟨values, hvalues, h⟩ := Option.bind_eq_some_iff.1 h
    cases h
    rw [Checked.erase] at hvalues
    split at hvalues
    · cases hvalues
      simp only [budget, Array.size_eraseIdx]
      omega
    · cases hvalues

instance : Checked.Calls (Indexed α) α where
  hasNext := hasNext?
  next := next?
  remove := remove?
  budget := budget
  budget_next_lt := by
    intro w t u v hhas hnext
    obtain rfl : w = t := (Prod.mk.inj (Option.some.inj hhas)).2
    exact budget_of_next? hnext
  budget_remove_le := budget_of_remove?

end Indexed

/-! ## The index and the cut -/

namespace Walk

variable {w : Walk α}

/-- The index stands where the values are cut in two. -/
def indexed (w : Walk α) : Indexed α := ⟨w.sequence.values.toArray, w.position, w.progress⟩

/-- A value lies behind the cut while one may be removed, and neither the values nor those
given out are too many. -/
structure Fits (w : Walk α) : Prop where
  current : w.progress.standing = .returned → ∃ v rest, w.behind = v :: rest
  size : w.sequence.size < UInt64.size
  yielded : w.progress.yielded + w.remaining < UInt64.size

lemma fits_walk {s : Sequence α} (h : s.size < UInt64.size) : Fits s.walk where
  current := nofun
  size := h
  yielded := by
    rw [Sequence.walk, remaining, Progress.fresh_yielded, Nat.zero_add]
    exact h

lemma next_of_ahead_eq_nil (ha : w.ahead = []) :
    w.next = ⟨.error (.exhausted w.progress.yielded), w, [.exhausted w.progress.yielded]⟩ := by
  rw [next, ha]

lemma next_of_ahead_eq_cons {v : α} {ahead : List α} (ha : w.ahead = v :: ahead) :
    w.next = .still (.ok v) ⟨v :: w.behind, ahead, w.progress.advance⟩ := by
  rw [next, ha]

lemma remove_of_behind_eq_cons {v : α} {rest : List α}
    (hs : w.progress.standing = .returned) (hb : w.behind = v :: rest) :
    w.remove.answer = .ok () ∧
      w.remove.after = ⟨rest, w.ahead, ⟨.removed, w.progress.yielded⟩⟩ := by
  have hclaim : w.progress.claimRemoval = .ok ⟨.removed, w.progress.yielded⟩ :=
    Progress.claimRemoval_eq_ok_iff.2 ⟨hs, rfl⟩
  rw [remove, hclaim, hb]
  exact ⟨rfl, rfl⟩

lemma remove_of_claimRemoval_eq_error {why : Refusal} (h : w.progress.claimRemoval = .error why) :
    w.remove = .still (.error (.refused why)) w := by
  rw [remove, h]

/-- The next value stands at the index. -/
lemma getElem?_indexed (w : Walk α) : w.indexed.values[w.indexed.position]? = w.ahead.head? := by
  show (w.behind.reverse ++ w.ahead).toArray[w.behind.length]? = _
  rw [← List.length_reverse, List.getElem?_toArray, List.getElem?_append_right (Nat.le_refl _),
    Nat.sub_self, List.head?_eq_getElem?]

lemma Fits.next (h : Fits w) : Fits w.next.after := by
  cases ha : w.ahead with
  | nil =>
    rw [next_of_ahead_eq_nil ha]
    exact h
  | cons v ahead =>
    obtain ⟨-, hsize, hyielded⟩ := h
    rw [size_sequence, position, remaining, ha, List.length_cons] at hsize
    rw [remaining, ha, List.length_cons] at hyielded
    rw [next_of_ahead_eq_cons ha]
    refine ⟨fun _ => ⟨v, w.behind, rfl⟩, ?_, ?_⟩
    · rw [size_sequence]
      show w.behind.length + 1 + ahead.length < UInt64.size
      omega
    · show w.progress.yielded + 1 + ahead.length < UInt64.size
      omega

lemma Fits.remove (h : Fits w) : Fits w.remove.after := by
  cases hclaim : w.progress.claimRemoval with
  | error why =>
    rw [remove_of_claimRemoval_eq_error hclaim]
    exact h
  | ok progress =>
    obtain ⟨hs, -⟩ := Progress.claimRemoval_eq_ok_iff.1 hclaim
    obtain ⟨v, rest, hb⟩ := h.current hs
    obtain ⟨-, hafter⟩ := remove_of_behind_eq_cons hs hb
    obtain ⟨-, hsize, hyielded⟩ := h
    rw [size_sequence, position, hb, List.length_cons] at hsize
    rw [hafter]
    refine ⟨?_, ?_, hyielded⟩
    · intro hs
      cases hs
    · rw [size_sequence]
      show rest.length + w.remaining < UInt64.size
      omega

/-! ### The checks go through -/

lemma Fits.next?_eq (h : Fits w) :
    w.indexed.next? = some (w.next.answer, w.next.after.indexed) := by
  rw [Indexed.next?, getElem?_indexed]
  cases ha : w.ahead with
  | nil =>
    rw [next_of_ahead_eq_nil ha]
    rfl
  | cons v ahead =>
    obtain ⟨-, hsize, hyielded⟩ := h
    rw [size_sequence, remaining, ha, List.length_cons] at hsize
    rw [remaining, ha, List.length_cons] at hyielded
    have hplace : w.position + 1 < UInt64.size := by omega
    have hgiven : w.progress.yielded + 1 < UInt64.size := by omega
    have hposition : Checked.add w.indexed.position 1 = some (w.position + 1) :=
      Checked.add_eq_some hplace
    have hprogress : Checked.advance w.indexed.progress = some w.progress.advance :=
      Checked.advance_eq_some hgiven
    have hvalues : w.indexed.values = w.next.after.indexed.values := by
      rw [next_of_ahead_eq_cons ha]
      simp [indexed, sequence, ha]
    simp only [List.head?_cons, Option.bind_eq_bind, Option.bind_some, hposition, hprogress,
      hvalues]
    rw [next_of_ahead_eq_cons ha]
    rfl

lemma Fits.remove?_eq (h : Fits w) :
    w.indexed.remove? = some (w.remove.answer, w.remove.after.indexed) := by
  have hprogress : w.indexed.progress = w.progress := rfl
  rw [Indexed.remove?, hprogress]
  cases hclaim : w.progress.claimRemoval with
  | error why =>
    rw [remove_of_claimRemoval_eq_error hclaim]
    rfl
  | ok progress =>
    -- the value before the index is the first one behind the cut
    obtain ⟨hs, rfl⟩ := Progress.claimRemoval_eq_ok_iff.1 hclaim
    obtain ⟨v, rest, hb⟩ := h.current hs
    obtain ⟨hanswer, hafter⟩ := remove_of_behind_eq_cons hs hb
    have hposition : Checked.sub w.indexed.position 1 = some rest.reverse.length := by
      rw [indexed, position, hb, List.length_cons, List.length_reverse]
      exact Checked.sub_eq_some (Nat.succ_le_succ (Nat.zero_le _))
    have hvalues : w.indexed.values.toList = rest.reverse ++ v :: w.ahead := by
      rw [indexed, sequence, hb, List.reverse_cons, List.append_assoc]
      rfl
    have herase := Checked.erase_eq_some hvalues
    simp only [Option.bind_eq_bind, Option.bind_some, hposition, herase, hanswer, hafter]
    rw [List.length_reverse]
    rfl

lemma follows_indexed : Checked.Follows indexed (Fits (α := α)) where
  hasNext _ h := h
  next _ h := h.next
  remove _ h := h.remove
  hasNext_eq w _ := by
    have hmore : decide (w.position < w.sequence.size) = !w.ahead.isEmpty := by
      rw [size_sequence, remaining]
      cases w.ahead <;> simp
    show some (decide (w.position < w.sequence.values.toArray.size), w.indexed) = _
    rw [List.size_toArray]
    exact congrArg (fun more => some (more, w.indexed)) hmore
  next_eq _ h := h.next?_eq
  remove_eq _ h := h.remove?_eq
  budget_lt _ h := Nat.lt_of_le_of_lt (Nat.le_add_left _ _) h.yielded

/-- The index never passes the end. -/
lemma remaining?_indexed (w : Walk α) : w.indexed.remaining? = some w.remaining := by
  have hsize := size_sequence w
  rw [Indexed.remaining?, indexed, List.size_toArray]
  change w.sequence.values.length = _ at hsize
  rw [hsize, Checked.sub_eq_some (Nat.le_add_right _ _), Nat.add_sub_cancel_left]

end Walk

/-! ## Scripts -/

/-- What can be done with a sequence. -/
inductive Action (α : Type) where
  /-- Some more values. -/
  | append (more : List α)
  /-- How many values there are. -/
  | size
  /-- Whether there is no value. -/
  | isEmpty
  /-- Whether the value occurs. -/
  | contains (v : α)
  /-- A walk, which holds the sequence until it ends. -/
  | walk (calls : List (Call α))

/-- What is answered. -/
inductive Outcome (α : Type) where
  /-- Nothing. -/
  | done
  /-- A number of values. -/
  | count (n : Nat)
  /-- A yes or a no. -/
  | flag (b : Bool)
  /-- What a walk was told, how far it came and how many values it left. -/
  | replies (rs : List (Reply α)) (progress : Progress) (remaining : Nat)

variable [DecidableEq α] [Max α]

/-- Does what is asked. -/
def act : Action α → Sequence α → Step Event (Sequence α) (Outcome α)
  | .append more, s => .still .done (s.append more)
  | .size, s => .still (.count s.size) s
  | .isEmpty, s => .still (.flag s.isEmpty) s
  | .contains v, s => .still (.flag (s.contains v)) s
  | .walk calls, s =>
    let x := Cursor.performAll calls s.walk
    ⟨.replies x.answer x.after.progress x.after.remaining, x.after.sequence, x.events⟩

/-- Does what is asked, with checks. -/
def act? : Action α → Sequence α → Option (Outcome α × Sequence α)
  | .append more, s => some (.done, s.append more)
  | .size, s => some (.count s.size, s)
  | .isEmpty, s => some (.flag s.isEmpty, s)
  | .contains v, s => some (.flag (s.contains v), s)
  | .walk calls, s => do
    let (rs, w) ← Checked.performAll calls (⟨s.values.toArray, 0, .fresh⟩ : Indexed α)
    let remaining ← w.remaining?
    return (.replies rs w.progress remaining, ⟨w.values.toList⟩)

variable {s : Sequence α}

lemma act?_eq (h : s.size < UInt64.size) (x : Action α) :
    act? x s = some ((act x s).answer, (act x s).after) := by
  cases x with
  | append more | size | isEmpty | contains v => rfl
  | walk calls =>
    have hwalk := Walk.follows_indexed.performAll (Walk.fits_walk h) calls
    have hstart : (⟨s.values.toArray, 0, .fresh⟩ : Indexed α) = s.walk.indexed := rfl
    simp only [act?, hstart, hwalk, Option.bind_eq_bind, Option.bind_some,
      Walk.remaining?_indexed]
    rfl

/-- Whatever is done with a sequence that never grows too long, no check fails. -/
lemma runAll_act?_eq (actions : List (Action α))
    (h : ∀ done, done <+: actions → (Step.runAll act done s).after.size < UInt64.size) :
    Checked.runAll act? actions s =
      some ((Step.runAll act actions s).answer, (Step.runAll act actions s).after) :=
  Checked.runAll_eq_some (P := fun s => s.size < UInt64.size) (fun x _ ht => act?_eq ht x)
    actions h

end IntWalk.Sequence
