import IntWalk.Proofs.Json.Screens
import IntWalk.Proofs.Parts.Unique
import Mathlib

/-!
# Stored lists of runs

Any list of runs can stand in a text that has the shape of a stored set, and `Stores` says
that it does, whatever the blanks, the order of the names and the other members are.  The
text is read as a set exactly if the runs are spaced, and then the set has these runs.

Otherwise the text is refused for the first run that is reversed, since runs are looked at
while they are read; neighbours are looked at after that, and the first that are not
separated are named only where no run is reversed.
-/

namespace IntWalk

open Json

namespace Run

/-- A stored run, reversed or not. -/
def outline : Reader Run := Reader.record fields true ⟨0, 0⟩

/-- What is wrong with a run by itself. -/
def fault? (r : Run) : Option Fault :=
  if r.last < r.first then some (.inconsistent (.reversedRun r)) else none

lemma fault?_eq_none_iff {r : Run} : r.fault? = none ↔ r.first ≤ r.last := by
  simp [fault?, UInt32.not_lt]

lemma screens_reader : Reader.Screens fault? reader outline := by
  have hread : Reader.Screens (fun _ => none) outline outline :=
    Reader.screens_self fun _ _ _ _ => rfl
  refine hread.check nofun fun r ts _ => ?_
  unfold fault?
  split <;> rfl

end Run

namespace PartSet

variable {s : PartSet} {runs : List Run} {text : String} {i : Nat} {a b r : Run}

/-- A stored list of runs, which need not make a set. -/
def outline : Reader (List Run) :=
  Reader.record [⟨"received", fun _ => Reader.array Run.outline⟩] true []

/-- The runs stand in the text, in this order. -/
def Stores (text : String) (runs : List Run) : Prop := Reader.decode outline text = .ok runs

/-- The set of the runs, or the first two neighbours that are not separated. -/
def ofRuns (runs : List Run) : Except Fault PartSet :=
  match unseparated? runs with
  | some (a, b) => .error (.inconsistent (.unseparatedRuns a b))
  | none => .ok ⟨runs.toArray⟩

/-- The text of the runs stores them, whatever they are. -/
lemma stores_encode (runs : List Run) : Stores (encode ⟨runs.toArray⟩) runs := by
  have hreads : Reader.Reads outline (tokens ⟨runs.toArray⟩) runs :=
    reads_record fun r _ => Run.reads_record r
  exact hreads.decode_text (recovers_tokens _)

/-! ## Two looks at the runs -/

lemma decode_eq (h : Stores text runs) :
    decode text = match runs.findSome? Run.fault? with
      | none => ofRuns runs
      | some e => .error e := by
  have hfields : Reader.Pairs (fun runs => runs.findSome? Run.fault?) fields
      [⟨"received", fun _ => Reader.array Run.outline⟩] :=
    .cons ⟨rfl, fun _ _ => Reader.screens_array Run.screens_reader⟩ .nil
  have hconfined : Reader.Confined (fun runs => runs.findSome? Run.fault?) "received"
      [⟨"received", fun _ => Reader.array Run.outline⟩] := by
    intro o ho hname
    rw [List.mem_singleton.1 ho] at hname
    exact absurd rfl hname
  have hscreens := Reader.screens_record (s := []) "received" true hfields hconfined
    (List.pairwise_singleton _ _) rfl
  refine hscreens.decode_bind ofRuns (fun runs ts => ?_) h
  rw [ofRuns]
  rcases unseparated? runs with _ | ⟨a, b⟩ <;> rfl

/-- A run is named if it is reversed and none before it is. -/
lemma findSome?_fault? (hr : runs[i]? = some r) (hreversed : r.last < r.first)
    (hbefore : ∀ j < i, ∀ r' : Run, runs[j]? = some r' → r'.first ≤ r'.last) :
    runs.findSome? Run.fault? = some (.inconsistent (.reversedRun r)) := by
  obtain ⟨hi, rfl⟩ := List.getElem?_eq_some_iff.1 hr
  refine List.findSome?_eq_some_iff.2 ⟨runs.take i, runs[i], runs.drop (i + 1), ?_, ?_, ?_⟩
  · rw [List.getElem_cons_drop, List.take_append_drop]
  · exact if_pos hreversed
  · intro r' hr'
    obtain ⟨j, hj, rfl⟩ := List.mem_take_iff_getElem.1 hr'
    exact Run.fault?_eq_none_iff.2 (hbefore j (by omega) _ (List.getElem?_eq_getElem _))

lemma findSome?_fault?_eq_none_iff :
    runs.findSome? Run.fault? = none ↔ ∀ r ∈ runs, r.first ≤ r.last := by
  simp [List.findSome?_eq_none_iff, Run.fault?_eq_none_iff]

/-- Two neighbours are named if they are not separated and all before them are. -/
lemma unseparated?_eq_some (ha : runs[i]? = some a) (hb : runs[i + 1]? = some b)
    (hab : ¬ Separated a b) (hbefore : ∀ j < i, ∀ a' b', runs[j]? = some a' →
      runs[j + 1]? = some b' → Separated a' b') : unseparated? runs = some (a, b) := by
  fun_induction unseparated? runs generalizing i with
  | case1 x y rest hxy ih =>
    -- the first two are separated, so the neighbours lie further on
    cases i with
    | zero =>
      cases ha
      cases hb
      exact absurd hxy hab
    | succ i => exact ih ha hb fun j hj => hbefore (j + 1) (Nat.succ_lt_succ hj)
  | case2 x y rest hxy =>
    cases i with
    | zero =>
      cases ha
      cases hb
      rfl
    | succ i => exact absurd (hbefore 0 (Nat.succ_pos i) x y rfl rfl) hxy
  | case3 runs hshort =>
    rcases runs with _ | ⟨x, _ | ⟨y, rest⟩⟩
    · cases ha
    · cases i <;> cases hb
    · exact absurd rfl (hshort x y rest)

/-! ## Spaced runs -/

/-- The end of the first run has a successor, and the second run begins beyond it. -/
def Apart (a b : Run) : Prop := a.last < Part.last ∧ a.last + 1 < b.first

lemma separated_iff_apart : Separated a b ↔ Apart a b := by
  refine ⟨Separated.lt_last_and_add_one_lt, ?_⟩
  rintro ⟨hlast, hlt⟩
  have hnext := Run.toNat_add_one (r := ⟨a.first, Part.last⟩) hlast
  rw [separated_iff, ← hnext]
  exact UInt32.lt_iff_toNat_lt.1 hlt

lemma Spaced.canonical (h : Spaced s) : Canonical s.runs.toList := by
  have hle : ∀ r ∈ s.runs.toList, r.first ≤ r.last :=
    fun r hr => h.ordered r (Array.mem_toList_iff.1 hr)
  refine canonical_of_unseparated? hle ?_
  have hapart := h.apart
  simp only [← Array.getElem?_toList] at hapart
  generalize s.runs.toList = runs at hapart
  fun_induction unseparated? runs with
  | case1 x y rest hxy ih => exact ih fun i => hapart (i + 1)
  | case2 x y rest hxy =>
    exact absurd (separated_iff_apart.2 (hapart 0 x y rfl rfl)) hxy
  | case3 => rfl

lemma canonical_iff_spaced : Canonical runs ↔ Spaced ⟨runs.toArray⟩ :=
  ⟨fun h => Canonical.spaced (s := ⟨runs.toArray⟩) h, Spaced.canonical⟩

/-! ## What becomes of a stored list -/

/-- The runs make a set, and this set is read from the text. -/
lemma decode_eq_ok_iff (h : Stores text runs) :
    decode text = .ok s ↔ s = ⟨runs.toArray⟩ ∧ Spaced s := by
  rw [decode_eq h]
  constructor
  · intro hok
    split at hok
    · next hfault =>
      rw [ofRuns] at hok
      split at hok
      · cases hok
      · next hsep =>
        cases hok
        have hle := findSome?_fault?_eq_none_iff.1 hfault
        exact ⟨rfl, canonical_iff_spaced.1 (canonical_of_unseparated? hle hsep)⟩
    · cases hok
  · rintro ⟨rfl, hspaced⟩
    have hcanonical := canonical_iff_spaced.2 hspaced
    rw [findSome?_fault?_eq_none_iff.2 hcanonical.1, ofRuns, unseparated?_eq_none hcanonical]

lemma decode_of_reversed (h : Stores text runs) (hr : runs[i]? = some r)
    (hreversed : r.last < r.first)
    (hbefore : ∀ j < i, ∀ r' : Run, runs[j]? = some r' → r'.first ≤ r'.last) :
    decode text = .error (.inconsistent (.reversedRun r)) := by
  rw [decode_eq h, findSome?_fault? hr hreversed hbefore]

lemma decode_of_not_apart (h : Stores text runs) (hle : ∀ r ∈ runs, r.first ≤ r.last)
    (ha : runs[i]? = some a) (hb : runs[i + 1]? = some b) (hab : ¬ Apart a b)
    (hbefore : ∀ j < i, ∀ a' b', runs[j]? = some a' → runs[j + 1]? = some b' → Apart a' b') :
    decode text = .error (.inconsistent (.unseparatedRuns a b)) := by
  simp only [← separated_iff_apart] at hab hbefore
  rw [decode_eq h, findSome?_fault?_eq_none_iff.2 hle, ofRuns,
    unseparated?_eq_some ha hb hab hbefore]

/-- A set that was read is the one that its parts make, in whatever order they arrive. -/
lemma insertAll_eq_of_decode (h : Stores text runs) (hs : decode text = .ok s) {ps : List Part}
    (hps : ∀ p, p ∈ ps ↔ ∃ r ∈ runs, r.first ≤ p ∧ p ≤ r.last) :
    (insertAll ps empty).after = s := by
  have hcanonical : Canonical s.runs.toList := (Reachable.decoded hs).canonical
  obtain ⟨rfl, -⟩ := (decode_eq_ok_iff h).1 hs
  refine eq_of_members_eq (canonical_insertAll Canonical.nil ps) hcanonical ?_
  have hnone : empty.members = ∅ := by simp [Finset.eq_empty_iff_forall_notMem, mem_def, empty]
  ext p
  rw [members_insertAll Canonical.nil, hnone, Finset.union_empty, List.mem_toFinset, hps,
    mem_members, mem_def]
  simp [Run.mem_def]

/-- Any list of runs can be stored.  It is read as the set of these runs exactly if they are
spaced, and this is the set that its parts make.  Otherwise the first run that is reversed
is named, or where there is none, the first two neighbours that are not apart, and both also
in the words of the error. -/
theorem decode_spaced_or_first_fault :
    (∀ runs, Stores (encode ⟨runs.toArray⟩) runs) ∧ ∀ text runs, Stores text runs →
      (∀ s, decode text = .ok s ↔ s = ⟨runs.toArray⟩ ∧ Spaced s) ∧
      (∀ (i : Nat) (r : Run), runs[i]? = some r → r.last < r.first →
        (∀ j < i, ∀ r' : Run, runs[j]? = some r' → r'.first ≤ r'.last) →
        decode text = .error (.inconsistent (.reversedRun r)) ∧
          (StoreError.inconsistent (.reversedRun r)).message = "inconsistent collection state: " ++
            s!"part range starts at {r.first.toNat} after its end {r.last.toNat}") ∧
      ((∀ r ∈ runs, r.first ≤ r.last) →
        ∀ (i : Nat) (a b : Run), runs[i]? = some a → runs[i + 1]? = some b → ¬ Apart a b →
        (∀ j < i, ∀ a' b', runs[j]? = some a' → runs[j + 1]? = some b' → Apart a' b') →
        decode text = .error (.inconsistent (.unseparatedRuns a b)) ∧
          (StoreError.inconsistent (.unseparatedRuns a b)).message =
            "inconsistent collection state: " ++
              (s!"part ranges {a.first.toNat}..={a.last.toNat} and {b.first.toNat}..={b.last.toNat} "
                ++ "overlap, touch or are out of order")) ∧
      ∀ s, decode text = .ok s →
        ∀ ps, (∀ p, p ∈ ps ↔ ∃ r ∈ runs, r.first ≤ p ∧ p ≤ r.last) →
          (insertAll ps .empty).after = s := by
  refine ⟨stores_encode, fun text runs h => ⟨fun s => decode_eq_ok_iff h, ?_, ?_, ?_⟩⟩
  · intro i r hr hreversed hbefore
    exact ⟨decode_of_reversed h hr hreversed hbefore, rfl⟩
  · intro hle i a b ha hb hab hbefore
    exact ⟨decode_of_not_apart h hle ha hb hab hbefore, rfl⟩
  · intro s hs ps hps
    exact insertAll_eq_of_decode h hs hps

/-- A reversed run behind two that overlap, one blank and one other member; then two runs
that touch; then two runs that are apart. -/
theorem decode_spaced_or_first_fault_three_texts :
    decode "\x7b\"x\": 1, \"received\": [[1, 5], \x7b\"last\": 7, \"first\": 4\x7d, [9, 2]]\x7d" =
        .error (.inconsistent (.reversedRun ⟨9, 2⟩)) ∧
      decode "\x7b\"received\":[[1,5],[6,7]]\x7d" =
        .error (.inconsistent (.unseparatedRuns ⟨1, 5⟩ ⟨6, 7⟩)) ∧
      decode "[[[1,2],[4,4]]]" = .ok ⟨#[⟨1, 2⟩, ⟨4, 4⟩]⟩ ∧
      (insertAll [4, 1, 2] .empty).after = ⟨#[⟨1, 2⟩, ⟨4, 4⟩]⟩ := by
  have hread := decode_spaced_or_first_fault.2
  refine ⟨?_, ?_, ?_⟩
  · refine ((hread _ [⟨1, 5⟩, ⟨4, 7⟩, ⟨9, 2⟩] (by cbv)).2.1 2 ⟨9, 2⟩ rfl (by decide) ?_).1
    intro j hj r' hr'
    obtain rfl | rfl : j = 0 ∨ j = 1 := by omega
    all_goals
      cases hr'
      decide
  · refine ((hread _ [⟨1, 5⟩, ⟨6, 7⟩] (by cbv)).2.2.1 (by decide) 0 ⟨1, 5⟩ ⟨6, 7⟩ rfl rfl
      ?_ ?_).1
    · exact fun h => absurd h.2 (by decide)
    · exact fun j hj => absurd hj (Nat.not_lt_zero j)
  · obtain ⟨hok, -, -, hinsert⟩ := hread "[[[1,2],[4,4]]]" [⟨1, 2⟩, ⟨4, 4⟩] (by cbv)
    have hcanonical : Canonical [⟨1, 2⟩, ⟨4, 4⟩] :=
      canonical_of_unseparated? (by decide) (by decide)
    have hs := (hok _).2 ⟨rfl, canonical_iff_spaced.1 hcanonical⟩
    refine ⟨hs, hinsert _ hs _ fun p => ?_⟩
    simp [UInt32.le_iff_toNat_le, ← UInt32.toNat_inj]
    omega

end PartSet

end IntWalk
