import IntWalk.Proofs.CommandLine.Shown
import IntWalk.Proofs.Parts.MaximalRuns
import IntWalk.Proofs.Parts.Unique

/-!
# The report on a transfer

The command that records parts prints what has arrived and what is missing below a total.  Both
lines are told by the numbers alone, whatever their order and repetition: they list the maximal
runs of the numbers and of those below the total that are not among them.  A number that no part
has stops the command, and the first such number is named.
-/

namespace IntWalk

/-- There is a part of that number. -/
def IsPart (v : Int) : Prop := 0 ≤ v ∧ v ≤ Part.last.toNat

instance (v : Int) : Decidable (IsPart v) := inferInstanceAs (Decidable (_ ∧ _))

lemma IsPart.toNat_ofNat {v : Int} (h : IsPart v) : ((UInt32.ofNat v.toNat).toNat : Int) = v := by
  obtain ⟨hpos, hle⟩ := h
  rw [Part.toNat_last] at hle
  rw [UInt32.toNat_ofNat_of_lt' (by simp only [UInt32.size]; omega)]
  omega

/-- The parts of the numbers. -/
def partsOf (values : List Int) : List Part := values.map fun v => UInt32.ofNat v.toNat

lemma mem_partsOf {values : List Int} (h : ∀ v ∈ values, IsPart v) {p : Part} :
    p ∈ partsOf values ↔ (p.toNat : Int) ∈ values := by
  rw [partsOf, List.mem_map]
  constructor
  · rintro ⟨v, hv, rfl⟩
    rwa [(h v hv).toNat_ofNat]
  · intro hp
    exact ⟨_, hp, by rw [Int.toNat_natCast, UInt32.ofNat_toNat]⟩

namespace Command

variable {values others : List Int} {s : PartSet} {v : Int} {total : Part}

/-! ## Recording -/

/-- Why there is no part of that number. -/
def partFault (v : Int) : StoreError :=
  if v < 0 then .negative v else .tooLarge v Part.last.toNat

lemma insertSigned_of_not_isPart (h : ¬ IsPart v) (s : PartSet) :
    s.insertSigned v = .still (.error (partFault v)) s := by
  rcases lt_or_ge v 0 with hneg | hpos
  · rw [PartSet.insertSigned_of_neg hneg, partFault, if_pos hneg]
  · have hlt : Part.last.toNat < v := not_le.1 fun hle => h ⟨hpos, hle⟩
    rw [PartSet.insertSigned_of_lt hlt, partFault, if_neg (not_lt.2 hpos)]

/-- Numbers that parts have are all recorded. -/
lemma record_of_isPart (h : ∀ v ∈ values, IsPart v) (s : PartSet) :
    (record values s).answer = .ok () ∧
      (record values s).after = (PartSet.insertAll (partsOf values) s).after := by
  induction values generalizing s with
  | nil => exact ⟨rfl, rfl⟩
  | cons v vs ih =>
    obtain ⟨hv, hvs⟩ := List.forall_mem_cons.1 h
    rw [record, PartSet.insertSigned_of_le hv.1 hv.2]
    exact ih hvs _

/-- The first number that no part has ends the recording. -/
lemma record_of_find? (h : values.find? (¬ IsPart ·) = some v) (s : PartSet) :
    (record values s).answer = .error (.recording v (partFault v)) := by
  induction values generalizing s with
  | nil => cases h
  | cons u vs ih =>
    rw [record]
    by_cases hu : IsPart u
    · rw [List.find?_cons_of_neg (by simpa using hu)] at h
      rw [PartSet.insertSigned_of_le hu.1 hu.2]
      exact ih h _
    · rw [List.find?_cons_of_pos (by simpa using hu)] at h
      obtain rfl := Option.some.inj h
      rw [insertSigned_of_not_isPart hu]
      rfl

/-- The set of the parts of the numbers. -/
def arrived (values : List Int) : PartSet := (PartSet.insertAll (partsOf values) .empty).after

lemma result_runParts (h : ∀ v ∈ values, IsPart v) (total : Part) :
    (runParts total values).result = .ok (inventory total (arrived values)) := by
  obtain ⟨hanswer, hafter⟩ := record_of_isPart h .empty
  rw [runParts, hanswer, hafter]
  rfl

lemma canonical_arrived (values : List Int) :
    PartSet.Canonical (arrived values).runs.toList :=
  PartSet.canonical_insertAll PartSet.Canonical.nil _

lemma mem_arrived (h : ∀ v ∈ values, IsPart v) {p : Part} :
    p ∈ arrived values ↔ (p.toNat : Int) ∈ values := by
  rw [← mem_partsOf h, ← PartSet.mem_members, arrived,
    PartSet.members_insertAll PartSet.Canonical.nil, Finset.mem_union, List.mem_toFinset,
    or_iff_left]
  simp [PartSet.mem_def, PartSet.empty]

lemma exists_arrived_iff (h : ∀ v ∈ values, IsPart v) {n : Nat} :
    (∃ p ∈ arrived values, p.toNat = n) ↔ (n : Int) ∈ values := by
  constructor
  · rintro ⟨p, hp, rfl⟩
    exact (mem_arrived h).1 hp
  · intro hn
    have hp := (h n hn).toNat_ofNat
    refine ⟨UInt32.ofNat (n : Int).toNat, (mem_arrived h).2 ?_, Int.ofNat_inj.1 hp⟩
    rwa [hp]

/-! ## The lines -/

/-- A stretch of numbers with its last one. -/
def inclusive (x : Nat × Nat) : String := s!"{x.1}..={x.2}"

/-- A stretch of numbers with the one after its last one. -/
def halfOpen (x : Nat × Nat) : String := s!"{x.1}..{x.2 + 1}"

/-- The three lines of a report. -/
def transferLines (received missing complete : String) : String :=
  s!"received\t{received}\nmissing\t{missing}\ncomplete\t{complete}\n"

/-- The report on the stretches that have arrived and those that are missing, with blanks between
them. -/
def transferReport (received missing : List (Nat × Nat)) (complete : Bool) : String :=
  transferLines (" ".intercalate (received.map inclusive))
    (" ".intercalate (missing.map halfOpen)) (if complete then "true" else "false")

lemma spaced_eq_intercalate (xs : List String) : spaced xs = " ".intercalate xs :=
  congrArg (" ".intercalate) (List.map_id'' (fun _ => rfl) xs)

lemma intercalate_eq_empty_iff {xs : List String} (h : ∀ x ∈ xs, x ≠ "") :
    " ".intercalate xs = "" ↔ xs = [] := by
  match xs with
  | [] => simp
  | [x] => simpa using h
  | x :: y :: rest => simp [String.intercalate_cons_cons]

lemma halfOpen_ne_empty (x : Nat × Nat) : halfOpen x ≠ "" := by
  intro h
  have := congrArg String.length h
  simp [halfOpen] at this

/-- The report on a canonical set shows its runs and its gaps. -/
lemma inventory_eq (h : PartSet.Canonical s.runs.toList) (total : Part) : inventory total s =
    transferReport s.runNumbers (s.gapNumbers total) (s.isComplete total) := by
  have hreceived : spaced (s.runs.toList.map fun r => s!"{r.first.toNat}..={r.last.toNat}") =
      " ".intercalate (s.runNumbers.map inclusive) := by
    rw [spaced_eq_intercalate, PartSet.runNumbers, List.map_map]
    rfl
  have hmissing : spaced ((s.missing total).map fun g => s!"{g.start.toNat}..{g.stop.toNat}") =
      " ".intercalate ((s.gapNumbers total).map halfOpen) := by
    rw [spaced_eq_intercalate, PartSet.gapNumbers, List.map_map]
    refine congrArg _ (List.map_congr_left fun g hg => ?_)
    have hstop : g.stop.toNat - 1 + 1 = g.stop.toNat :=
      Nat.succ_pred_eq_of_pos (Nat.zero_lt_of_lt ((h.complements_missing total).nonempty g hg))
    simp only [Function.comp, halfOpen, hstop]
  have hcomplete : toString (s.isComplete total) =
      if s.isComplete total then "true" else "false" := by
    cases s.isComplete total <;> rfl
  rw [transferReport, ← hreceived, ← hmissing, ← hcomplete]
  rfl

/-- The stretches that a report shows are the maximal runs of the numbers and of those missing
below the total, and the transfer is complete just if there are none of the latter. -/
structure Accounts (total : Part) (values : List Int) (received missing : List (Nat × Nat))
    (complete : Bool) : Prop where
  arrivals : MaximalRuns {n | (n : Int) ∈ values} received
  gaps : MaximalRuns {n | n < total.toNat ∧ (n : Int) ∉ values} missing
  complete_iff : complete = true ↔ ∀ n < total.toNat, (n : Int) ∈ values
  complete_iff_nil : complete = true ↔ missing = []
  complete_iff_blank : complete = true ↔ " ".intercalate (missing.map halfOpen) = ""

lemma complete_iff_gapNumbers (s : PartSet) (total : Part) :
    s.isComplete total = true ↔ s.gapNumbers total = [] := by
  rw [PartSet.isComplete, List.isEmpty_iff, PartSet.gapNumbers, List.map_eq_nil_iff]

lemma accounts_arrived (h : ∀ v ∈ values, IsPart v) (total : Part) :
    Accounts total values (arrived values).runNumbers ((arrived values).gapNumbers total)
      ((arrived values).isComplete total) where
  arrivals := by
    have hset : {n | ∃ p ∈ arrived values, p.toNat = n} = {n : Nat | (n : Int) ∈ values} :=
      Set.ext fun n => exists_arrived_iff h
    exact hset ▸ (canonical_arrived values).maximalRuns
  gaps := by
    have hset : {n | n < total.toNat ∧ ∀ p ∈ arrived values, p.toNat ≠ n} =
        {n : Nat | n < total.toNat ∧ (n : Int) ∉ values} := by
      refine Set.ext fun n => and_congr_right fun _ => ?_
      rw [← exists_arrived_iff h]
      simp only [not_exists, not_and]
    exact hset ▸ (canonical_arrived values).maximalRuns_missing total
  complete_iff := by
    rw [(canonical_arrived values).isComplete_iff]
    exact forall₂_congr fun n _ => exists_arrived_iff h
  complete_iff_nil := complete_iff_gapNumbers _ total
  complete_iff_blank := by
    have hlines : ∀ x ∈ ((arrived values).gapNumbers total).map halfOpen, x ≠ "" := by
      intro x hx
      obtain ⟨g, -, rfl⟩ := List.mem_map.1 hx
      exact halfOpen_ne_empty g
    rw [intercalate_eq_empty_iff hlines, List.map_eq_nil_iff, complete_iff_gapNumbers]

lemma arrived_eq_of_mem_iff (h : ∀ v ∈ values, IsPart v) (hsame : ∀ v, v ∈ others ↔ v ∈ values) :
    arrived others = arrived values := by
  refine PartSet.insertAll_eq PartSet.Canonical.nil fun p => ?_
  rw [mem_partsOf h, mem_partsOf fun v hv => h v ((hsame v).1 hv), hsame]

lemma prints_report (h : ∀ v ∈ values, IsPart v) (total : Part) :
    (Command.parts total values).Prints (transferReport (arrived values).runNumbers
      ((arrived values).gapNumbers total) ((arrived values).isComplete total)) := by
  refine prints_of_result ?_
  rw [run, result_runParts h, inventory_eq (canonical_arrived values)]

/-- The first number that no part has stops the recording, and the complaint names it. -/
lemma result_parts_of_find? (hv : values.find? (¬ IsPart ·) = some v) (total : Part) :
    (run (.parts total values)).result = .error (.recording v (partFault v)) := by
  rw [run, runParts, record_of_find? hv]
  rfl

/-- Where each number is that of a part, the command prints the maximal runs of the numbers, each
with its last number, those of what is missing below the total, each with the number after it, and
whether nothing is missing.  It prints the same of the same numbers in any order and any number.
Otherwise nothing is printed, and the complaint names the first number that no part has. -/
theorem parts_prints_maximal_runs (total : Part) (values : List Int) :
    ((∀ v ∈ values, IsPart v) → ∃ received missing complete,
      Accounts total values received missing complete ∧
      ∀ others, (∀ v, v ∈ others ↔ v ∈ values) →
        (Command.parts total others).Prints (transferReport received missing complete)) ∧
    ∀ v, values.find? (¬ IsPart ·) = some v →
      (v < 0 → (Command.parts total values).Fails (.recording v (.negative v))
        (complaintText s!"failed to record part {v}"
          s!"negative value {v} is not representable")) ∧
      (0 ≤ v → (Command.parts total values).Fails (.recording v (.tooLarge v 4294967295))
        (complaintText s!"failed to record part {v}"
          s!"value {v} exceeds the largest representable value {4294967295}")) := by
  refine ⟨fun h => ⟨_, _, _, accounts_arrived h total, fun others hsame => ?_⟩, fun v hv => ?_⟩
  · rw [← arrived_eq_of_mem_iff h hsame]
    exact prints_report (fun v hv => h v ((hsame v).1 hv)) total
  · have hresult := result_parts_of_find? hv total
    rw [partFault] at hresult
    constructor
    · intro hneg
      rw [if_pos hneg] at hresult
      exact fails_of_result hresult rfl
    · intro hpos
      rw [if_neg (not_lt.2 hpos)] at hresult
      exact fails_of_result hresult rfl

/-- Parts on both sides of a total, with a repetition, and two numbers that no part has. -/
theorem parts_prints_maximal_runs_around_total :
    ((∀ v ∈ [5, 3, 4294967295, 4, 0, 5, 9], IsPart v) ∧
      ∃ received missing complete,
        Accounts 8 [5, 3, 4294967295, 4, 0, 5, 9] received missing complete ∧
        (Command.parts 8 [9, 0, 3, 4, 5, 4294967295]).Prints
          (transferReport received missing complete)) ∧
    (Command.parts 8 [2, 4294967296, -1]).Fails
      (.recording 4294967296 (.tooLarge 4294967296 4294967295))
      (complaintText "failed to record part 4294967296"
        "value 4294967296 exceeds the largest representable value 4294967295") := by
  have hparts : ∀ v ∈ [5, 3, 4294967295, 4, 0, 5, 9], IsPart v := by decide
  obtain ⟨hall, -⟩ := parts_prints_maximal_runs 8 [5, 3, 4294967295, 4, 0, 5, 9]
  obtain ⟨-, hfirst⟩ := parts_prints_maximal_runs 8 [2, 4294967296, -1]
  obtain ⟨received, missing, complete, haccounts, hprints⟩ := hall hparts
  refine ⟨⟨hparts, received, missing, complete, haccounts, hprints _ fun v => ?_⟩, ?_⟩
  · simp only [List.mem_cons, List.not_mem_nil, or_false]
    omega
  · exact (hfirst 4294967296 (by decide)).2 (by decide)

example : CommandLine.execute ["parts", "5", "3", "--total=8", "4", "0", "5", "9"] none =
    .done "received\t0..=0 3..=5 9..=9\nmissing\t1..3 6..8\ncomplete\tfalse\n" [] := by cbv

end Command

end IntWalk
