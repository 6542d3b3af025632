import IntWalk.Parts.Text
import IntWalk.Parts.Walk
import IntWalk.Proofs.Cursor.Path
import IntWalk.Proofs.Json.Yields
import IntWalk.Proofs.Parts.Members
import IntWalk.Proofs.Request

/-!
# Reachable part sets

A part set comes into being empty or out of a text, and is then changed by requests
and by walks.  Whatever the order of these, its runs stay canonical: so they hold
something, ascend and leave a part free between each other.
-/

namespace IntWalk

open Json

/-- No run is read that begins after its end. -/
lemma Run.yields_reader : Reader.Yields Run.reader fun r => r.first ≤ r.last := by
  refine .of_any fun r => ?_
  split
  · exact Reader.yields_throw _
  · next hlt => exact Reader.yields_pure (UInt32.not_lt.1 hlt)

namespace PartSet

variable {s : PartSet}

/-- Puts one request to the set. -/
def ask : Request Part → PartSet → Step Event PartSet Answer
  | .insert p, s => (s.insert p).map .flag
  | .insertSigned v, s => (s.insertSigned v).map .stored
  | .remove p, s => (s.remove p).map .flag
  | .contains p, s => .still (.flag (s.contains p)) s
  | .size, s => .still (.total s.size) s
  | .isEmpty, s => .still (.flag s.isEmpty) s

/-- The sets that a program can come to.  A walk may be dropped after any of its
calls and leaves the set as it is then. -/
inductive Reachable : PartSet → Prop
  | empty : Reachable .empty
  | decoded {text : String} {s : PartSet} : PartSet.decode text = .ok s → Reachable s
  | request {s : PartSet} (r : Request Part) : Reachable s → Reachable (s.ask r).after
  | walk {s : PartSet} (calls : List (Call Part)) : Reachable s →
      Reachable (Cursor.performAll calls s.walk).after.parts

/-! ## Sets out of a text -/

/-- Runs that hold something and are separated from their neighbours are canonical. -/
lemma canonical_of_unseparated? {runs : List Run} (hle : ∀ r ∈ runs, r.first ≤ r.last)
    (hsep : unseparated? runs = none) : Canonical runs := by
  -- each run is compared with the next, which is the first of a canonical rest
  induction runs with
  | nil => exact Canonical.nil
  | cons a rest ih =>
    obtain ⟨ha, hrest⟩ := List.forall_mem_cons.1 hle
    cases rest with
    | nil => exact Canonical.cons_iff.2 ⟨ha, Canonical.nil, by simp⟩
    | cons b rest =>
      rw [unseparated?] at hsep
      split at hsep
      · next hab => exact Canonical.cons_cons ha hab (ih hrest hsep)
      · cases hsep

lemma yields_reader : Reader.Yields reader fun s => Canonical s.runs.toList := by
  refine Reader.Yields.bind (P := fun runs => ∀ r ∈ runs, r.first ≤ r.last) ?_ fun runs hle => ?_
  · refine Reader.yields_record true ?_ (List.forall_mem_nil _)
    intro f hf runs _
    obtain rfl := List.mem_singleton.1 hf
    exact Reader.yields_array Run.yields_reader
  · split
    · exact Reader.yields_throw _
    · next hsep => exact Reader.yields_pure (canonical_of_unseparated? hle hsep)

/-! ## Requests and walks -/

lemma canonical_ask (h : Canonical s.runs.toList) (r : Request Part) :
    Canonical (s.ask r).after.runs.toList := by
  cases r with
  | insert p => exact canonical_insert h p
  | insertSigned v =>
    rw [ask, Step.map_after, insertSigned]
    split
    · exact h
    · split
      · exact h
      · exact canonical_insert h _
  | remove p => exact canonical_remove h p
  | contains | size | isEmpty => exact h

namespace Walk

@[simp] lemma next_parts (w : Walk) : w.next.after.parts = w.parts := by
  unfold next
  split <;> rfl

/-- A removal leaves the set alone or takes one part out of it. -/
lemma remove_parts (w : Walk) :
    w.remove.after.parts = w.parts ∨ ∃ p, w.remove.after.parts = (w.parts.remove p).after := by
  unfold remove
  split
  · exact .inl rfl
  · split
    · exact .inl rfl
    · next p _ => exact .inr ⟨p, rfl⟩

lemma keeps_canonical : Cursor.Keeps fun w : Walk => Canonical w.parts.runs.toList where
  hasNext _ h := h
  next w h := by
    show Canonical w.next.after.parts.runs.toList
    rwa [next_parts]
  remove w h := by
    show Canonical w.remove.after.parts.runs.toList
    rcases remove_parts w with hw | ⟨p, hw⟩
    · rwa [hw]
    · rw [hw]
      exact canonical_remove h p

end Walk

lemma Reachable.canonical (h : Reachable s) : Canonical s.runs.toList := by
  induction h with
  | empty => exact Canonical.nil
  | decoded ok => exact yields_reader.of_decode ok
  | request r _ ih => exact canonical_ask ih r
  | walk calls _ ih => exact Walk.keeps_canonical.performAll calls ih

/-! ## Spaced runs -/

/-- Each run holds something, and between two neighbours at least one part is
missing: the first of them does not end at the last part, and the second begins
more than one part after its end. -/
structure Spaced (s : PartSet) : Prop where
  ordered : ∀ r ∈ s.runs, r.first ≤ r.last
  apart : ∀ i a b, s.runs[i]? = some a → s.runs[i + 1]? = some b →
    a.last < Part.last ∧ a.last + 1 < b.first

lemma Separated.lt_last_and_add_one_lt {a b : Run} (h : Separated a b) :
    a.last < Part.last ∧ a.last + 1 < b.first := by
  have hb := Part.toNat_lt b.first
  rw [separated_iff] at h
  have hlast : a.last.toNat < Part.last.toNat := by
    rw [Part.toNat_last]
    omega
  have hne : a.last ≠ Part.last := fun e => Nat.lt_irrefl _ (e ▸ hlast)
  rw [UInt32.lt_iff_toNat_lt, UInt32.lt_iff_toNat_lt, Part.toNat_add_one hne]
  exact ⟨hlast, h⟩

lemma Canonical.spaced (h : Canonical s.runs.toList) : Spaced s where
  ordered r hr := h.1 r (Array.mem_toList_iff.2 hr)
  apart i a b ha hb := by
    rw [← Array.getElem?_toList] at ha hb
    obtain ⟨hi, rfl⟩ := List.getElem?_eq_some_iff.1 ha
    obtain ⟨hj, rfl⟩ := List.getElem?_eq_some_iff.1 hb
    have hab := List.pairwise_iff_getElem.1 h.2 i (i + 1) hi hj (Nat.lt_succ_self i)
    exact hab.lt_last_and_add_one_lt

/-- Whatever was done to a set, its runs are spaced, and they are so in the middle
of a walk over it as well. -/
theorem spaced_of_reachable (h : Reachable s) (calls : List (Call Part)) :
    Spaced s ∧ Spaced (Cursor.performAll calls s.walk).after.parts :=
  ⟨h.canonical.spaced, (Reachable.walk calls h).canonical.spaced⟩

/-- The run of the last three parts, joined by its middle part and cut there again. -/
theorem spaced_after_cut :
    let s := (((PartSet.empty.ask (.insert 4294967295)).after.ask
      (.insertSigned 4294967293)).after.ask (.insert 4294967294)).after
    Spaced (Cursor.performAll [.next, .next, .remove] s.walk).after.parts := by
  intro s
  have hs : Reachable s := .request _ (.request _ (.request _ .empty))
  exact (spaced_of_reachable hs [.next, .next, .remove]).2

end PartSet

end IntWalk
