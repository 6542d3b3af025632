import IntWalk.Proofs.Bits.OfList
import IntWalk.Proofs.CommandLine.Shown
import IntWalk.Proofs.Cursor.Filtering
import Mathlib.Algebra.Group.Int.Even
import Mathlib.Data.List.Dedup
import Mathlib.Data.List.Sort

/-!
# One filter over two stores

Two commands filter the values given to them, one in a sequence and one in a bit set.  The first
keeps the others in their order, with their repetitions.  The second has no order and no
repetition to keep: it prints what the first prints of the values once they are sorted and each
is left in once.  A number to remove that the first cannot be given is one that the second never
meets.
-/

namespace IntWalk

/-- The number has a place among the signed numbers of 64 bits. -/
def IsSigned64 (v : Int) : Prop :=
  (⟨true, .double⟩ : IntKind).least ≤ v ∧ v ≤ (⟨true, .double⟩ : IntKind).greatest

instance (v : Int) : Decidable (IsSigned64 v) := inferInstanceAs (Decidable (_ ∧ _))

lemma IsSigned64.le_largestValue {n : Nat} (h : IsSigned64 n) : n ≤ BitSet.largestValue := by
  have hgreatest : (⟨true, .double⟩ : IntKind).greatest ≤ BitSet.largestValue := by decide
  exact Int.ofNat_le.1 (h.2.trans hgreatest)

/-- The value has a place in a set of that capacity. -/
def HasRoom (capacity : Nat) (v : Int) : Prop := 0 ≤ v ∧ v < capacity

instance (capacity : Nat) (v : Int) : Decidable (HasRoom capacity v) :=
  inferInstanceAs (Decidable (_ ∧ _))

namespace Command

variable {values : List Int} {s : BitSet} {c : Capacity} {v : Int}

/-! ## The sequence -/

/-- The value is to be removed: it is listed, or it is even and all even ones are to go. -/
def Unwanted (remove : List Int) (removeEven : Bool) (v : Int) : Prop :=
  v ∈ remove ∨ removeEven = true ∧ Even v

instance (remove : List Int) (removeEven : Bool) : DecidablePred (Unwanted remove removeEven) :=
  fun _ => inferInstanceAs (Decidable (_ ∨ _))

lemma decide_unwanted (remove : List Int) (removeEven : Bool) :
    (fun v => remove.contains v || (removeEven && v % 2 == 0)) =
      fun v => decide (Unwanted remove removeEven v) := by
  funext v
  rw [Bool.eq_iff_iff, decide_eq_true_iff, Unwanted, Int.even_iff]
  simp

/-- The report on a filter: one line of the values left, with blanks between them, and one of the
number of those that are gone. -/
def filterReport {α : Type} [ToString α] (left : List α) (gone : Nat) : String :=
  let left := " ".intercalate (left.map toString)
  s!"kept\t{left}\nremoved\t{gone}\n"

/-- The report on the filter that takes out the values that are picked. -/
def reportWithout {α : Type} [ToString α] (p : α → Bool) (values : List α) : String :=
  filterReport (values.filter fun v => !p v) (values.filter p).length

lemma result_runWalk (values remove : List Int) (removeEven : Bool) :
    (runWalk values remove removeEven).result =
      .ok (reportWithout (fun v => decide (Unwanted remove removeEven v)) values) := by
  obtain ⟨hremoved, hleft⟩ := Sequence.Walk.tracks.filters_ofElement
    (s := Sequence.walk ⟨values⟩) rfl fun v => decide (Unwanted remove removeEven v)
  simp only [runWalk, decide_unwanted, hremoved, hleft]
  rfl

/-! ## The bit set -/

/-- Values that have room are all inserted. -/
lemma fill_of_hasRoom (hsigned : ∀ v ∈ values, IsSigned64 v)
    (room : ∀ v ∈ values, HasRoom s.capacity v) :
    fill values s = .ok (BitSet.filled (values.map Int.toNat) s) := by
  induction values generalizing s with
  | nil => rfl
  | cons v vs ih =>
    obtain ⟨⟨hpos, hlt⟩, hvs⟩ := List.forall_mem_cons.1 room
    obtain ⟨hv, hrest⟩ := List.forall_mem_cons.1 hsigned
    obtain ⟨n, rfl⟩ := Int.eq_ofNat_of_zero_le hpos
    rw [fill, BitSet.insertSigned_of_le hv.le_largestValue,
      BitSet.insert_answer (Int.ofNat_lt.1 hlt)]
    exact ih hrest fun u hu => by rw [BitSet.capacity_insert]; exact hvs u hu

/-- Why a set of that capacity has no room for the value. -/
def roomFault (capacity : Nat) (v : Int) : StoreError :=
  if v < 0 then .negative v else .outOfRange v.toNat capacity

lemma insertSigned_of_not_hasRoom (hsigned : IsSigned64 v) (h : ¬ HasRoom s.capacity v) :
    s.insertSigned v = .still (.error (roomFault s.capacity v)) s := by
  rcases lt_or_ge v 0 with hneg | hpos
  · rw [BitSet.insertSigned_of_neg hneg, roomFault, if_pos hneg]
  · obtain ⟨n, rfl⟩ := Int.eq_ofNat_of_zero_le hpos
    have hle : s.capacity ≤ n := Int.ofNat_le.1 (not_lt.1 fun hlt => h ⟨hpos, hlt⟩)
    rw [BitSet.insertSigned_of_le hsigned.le_largestValue, BitSet.insert_of_le hle, roomFault,
      if_neg (not_lt.2 hpos), Int.toNat_natCast]

/-- The first value without room ends the filling. -/
lemma fill_of_find? (hsigned : ∀ v ∈ values, IsSigned64 v)
    (h : values.find? (¬ HasRoom s.capacity ·) = some v) :
    fill values s = .error (.insertion v (roomFault s.capacity v)) := by
  induction values generalizing s with
  | nil => cases h
  | cons u vs ih =>
    obtain ⟨hu, hrest⟩ := List.forall_mem_cons.1 hsigned
    rw [fill]
    by_cases room : HasRoom s.capacity u
    · rw [List.find?_cons_of_neg (by simpa using room)] at h
      obtain ⟨n, rfl⟩ := Int.eq_ofNat_of_zero_le room.1
      rw [BitSet.insertSigned_of_le hu.le_largestValue,
        BitSet.insert_answer (Int.ofNat_lt.1 room.2)]
      rw [← BitSet.capacity_insert s n] at h ⊢
      exact ih hrest h
    · rw [List.find?_cons_of_pos (by simpa using room)] at h
      obtain rfl := Option.some.inj h
      rw [insertSigned_of_not_hasRoom hu room]
      rfl

lemma result_runBits {capacity : Nat} (hc : Capacity.ofCount capacity = .ok c) {t : BitSet}
    (ht : fill values (.ofCapacity c) = .ok t) (remove : List Nat) :
    (runBits capacity values remove).result =
      .ok (reportWithout (fun n => decide (n ∈ remove)) t.toList) := by
  obtain ⟨hremoved, hleft⟩ := BitSet.Walk.tracks.filters_ofElement (BitSet.Walk.follows_walk t)
    fun n => decide (n ∈ remove)
  have hchoose : remove.contains = fun n => decide (n ∈ remove) :=
    funext fun n => List.contains_eq_mem n remove
  simp only [runBits, hc, ht, hchoose, hremoved, hleft]
  rfl

/-! ## The same filter -/

/-- The numbers to remove that have a place among the signed numbers of 64 bits. -/
def fitting (remove : List Nat) : List Int :=
  (remove.map Nat.cast).filter fun v => IsSigned64 v

lemma natCast_mem_fitting {n : Nat} (h : IsSigned64 n) {remove : List Nat} :
    (n : Int) ∈ fitting remove ↔ n ∈ remove := by
  rw [fitting, List.mem_filter, decide_eq_true_iff, and_iff_left h]
  exact List.mem_map_of_injective fun _ _ => Int.ofNat_inj.1

/-- A report does not tell a natural number from the same integer. -/
lemma reportWithout_map_natCast {p : Int → Bool} {q : Nat → Bool} {xs : List Nat}
    (h : ∀ n ∈ xs, p n = q n) : reportWithout p (xs.map Nat.cast) = reportWithout q xs := by
  have hpicked : xs.filter (p ∘ Nat.cast) = xs.filter q := List.filter_congr h
  have hleft : xs.filter ((fun v => !p v) ∘ Nat.cast) = xs.filter fun n => !q n :=
    List.filter_congr fun n hn => congrArg (!·) (h n hn)
  rw [reportWithout, reportWithout, List.filter_map, List.filter_map, hpicked, hleft,
    List.length_map, filterReport, filterReport, List.map_map]
  rfl

/-- The values in ascending order, each of them once. -/
def ascending (values : List Int) : List Int := values.dedup.insertionSort (· ≤ ·)

lemma mem_ascending : v ∈ ascending values ↔ v ∈ values := by
  rw [ascending, List.mem_insertionSort, List.mem_dedup]

lemma pairwise_ascending (values : List Int) : (ascending values).Pairwise (· < ·) := by
  have hnodup : (ascending values).Nodup :=
    (List.perm_insertionSort _ _).nodup_iff.2 values.nodup_dedup
  exact (List.sortedLE_insertionSort.sortedLT_of_nodup hnodup).pairwise

section Members

variable {t : BitSet} (hpos : ∀ v ∈ values, 0 ≤ v)
include hpos

lemma mem_map_toNat {n : Nat} : n ∈ values.map Int.toNat ↔ (n : Int) ∈ values := by
  rw [List.mem_map]
  constructor
  · rintro ⟨v, hv, rfl⟩
    rwa [Int.toNat_of_nonneg (hpos v hv)]
  · intro hn
    exact ⟨n, hn, Int.toNat_natCast n⟩

variable (ht : ∀ n, n ∈ t ↔ (n : Int) ∈ values)
include ht

/-- A set of the values lists them sorted and without repetitions. -/
lemma map_natCast_toList : t.toList.map Nat.cast = ascending values := by
  have hsorted : (t.toList.map Nat.cast).Pairwise ((· < ·) : Int → Int → Prop) :=
    t.pairwise_toList.map Nat.cast fun m n hlt => Int.ofNat_lt.2 hlt
  refine hsorted.eq_of_mem_iff (pairwise_ascending values) fun v => ?_
  rw [mem_ascending, List.mem_map]
  constructor
  · rintro ⟨n, hn, rfl⟩
    exact (ht n).1 (BitSet.mem_toList.1 hn)
  · intro hv
    have hcast := Int.toNat_of_nonneg (hpos v hv)
    exact ⟨v.toNat, BitSet.mem_toList.2 ((ht _).2 (by rwa [hcast])), hcast⟩

/-- The report on a set of the values is the one on the values sorted. -/
lemma reportWithout_toList (hsigned : ∀ v ∈ values, IsSigned64 v) (remove : List Nat) :
    reportWithout (fun n => decide (n ∈ remove)) t.toList =
      reportWithout (fun v => decide (Unwanted (fitting remove) false v)) (ascending values) := by
  rw [← map_natCast_toList hpos ht]
  refine (reportWithout_map_natCast fun n hn => ?_).symm
  have hv := (ht n).1 (BitSet.mem_toList.1 hn)
  refine decide_eq_decide.2 (Iff.trans ?_ (natCast_mem_fitting (hsigned n hv)))
  simp [Unwanted]

end Members

lemma prints_walk (values remove : List Int) (removeEven : Bool) :
    (Command.walk values remove removeEven).Prints
      (reportWithout (fun v => decide (Unwanted remove removeEven v)) values) :=
  prints_of_result (result_runWalk values remove removeEven)

/-- Values that have room are reported on like the same values in a sequence. -/
lemma prints_bits (hsigned : ∀ v ∈ values, IsSigned64 v) (room : ∀ v ∈ values, HasRoom c.count v)
    (hc : Capacity.ofCount c.count = .ok c) (remove : List Nat) :
    (Command.bits c.count values remove).Prints
      (reportWithout (fun v => decide (Unwanted (fitting remove) false v)) (ascending values)) := by
  have hpos : ∀ v ∈ values, 0 ≤ v := fun v hv => (room v hv).1
  have hmem : ∀ n, n ∈ BitSet.filled (values.map Int.toNat) (.ofCapacity c) ↔
      (n : Int) ∈ values := by
    intro n
    rw [BitSet.mem_filled_ofCapacity, mem_map_toNat hpos]
    exact fun n hn => Int.ofNat_lt.1 (room n ((mem_map_toNat hpos).1 hn)).2
  refine prints_of_result ?_
  rw [run, result_runBits hc (fill_of_hasRoom hsigned room), reportWithout_toList hpos hmem hsigned]

/-- The first value without room stops the filling, and the complaint names it. -/
lemma result_bits_of_find? (hsigned : ∀ v ∈ values, IsSigned64 v)
    (hv : values.find? (¬ HasRoom c.count ·) = some v) (hc : Capacity.ofCount c.count = .ok c)
    (remove : List Nat) : (run (.bits c.count values remove)).result =
      .error (.insertion v (roomFault c.count v)) := by
  have hfill := fill_of_find? (s := .ofCapacity c) hsigned hv
  simp only [run, runBits, hc, hfill]
  rfl

/-- The command that filters a sequence prints the values neither listed nor, if they are to go,
even, as they were given, and how many the others are.  The command that filters a bit set takes
no capacity of zero.  If each value has room it prints what the first command prints of the values
sorted and without repetitions; otherwise it prints nothing and names the first without room. -/
theorem bits_prints_as_walk :
    (∀ values remove removeEven,
      let left := values.filter (¬ Unwanted remove removeEven ·)
      let gone := values.filter (Unwanted remove removeEven ·)
      (Command.walk values remove removeEven).Prints ("kept\t" ++ " ".intercalate
        (left.map toString) ++ "\nremoved\t" ++ toString gone.length ++ "\n") ∧
      left.length + gone.length = values.length) ∧
    (∀ values remove, (Command.bits 0 values remove).Fails (.capacity (.badCapacity .zero))
      (complaintText "invalid bit set capacity"
        "invalid collection configuration: capacity must be > 0")) ∧
    ∀ values, (∀ v ∈ values, IsSigned64 v) → ∀ capacity remove, 0 < capacity →
      capacity < UInt64.size →
      ((∀ v ∈ values, HasRoom capacity v) → ∃ text,
        (Command.walk (ascending values) (fitting remove) false).Prints text ∧
        (Command.bits capacity values remove).Prints text) ∧
      ∀ v, values.find? (¬ HasRoom capacity ·) = some v →
        (v < 0 → (Command.bits capacity values remove).Fails (.insertion v (.negative v))
          (complaintText s!"failed to insert {v}" s!"negative value {v} is not representable")) ∧
        (0 ≤ v → (Command.bits capacity values remove).Fails
          (.insertion v (.outOfRange v.toNat capacity))
          (complaintText s!"failed to insert {v}"
            s!"value {v} out of range for capacity {capacity}")) := by
  refine ⟨fun values remove removeEven => ⟨?_, ?_⟩, fun values remove => fails_of_result rfl rfl,
    fun values hsigned capacity remove hcapacity hfits => ?_⟩
  · have hprints := prints_walk values remove removeEven
    simp only [reportWithout, filterReport] at hprints
    simp only [decide_not]
    exact hprints
  · rw [Nat.add_comm, List.length_eq_length_filter_add (l := values) (Unwanted remove removeEven ·)]
    simp only [decide_not]
  · obtain ⟨c, hc⟩ := BitSet.exists_ofCount hcapacity hfits
    obtain rfl := BitSet.count_of_ofCount hc
    refine ⟨fun room => ⟨_, prints_walk .., prints_bits hsigned room hc remove⟩, fun v hv => ?_⟩
    have hresult := result_bits_of_find? hsigned hv hc remove
    rw [roomFault] at hresult
    constructor
    · intro hneg
      rw [if_pos hneg] at hresult
      exact fails_of_result hresult rfl
    · intro hpos
      obtain ⟨n, rfl⟩ := Int.eq_ofNat_of_zero_le hpos
      rw [if_neg (not_lt.2 hpos)] at hresult
      exact fails_of_result hresult rfl

/-- The least signed number and an odd one below zero in a sequence, numbers to remove from a set
that are absent or beyond any capacity, and two values without room. -/
theorem bits_prints_as_walk_beyond_capacity :
    (Command.walk [-9223372036854775808, 3, -3, 3, 8] [8, 3] true).Prints
      "kept\t-3\nremoved\t4\n" ∧
    (Command.walk [0, 2, 7] [2, 5] false).Prints "kept\t0 7\nremoved\t1\n" ∧
    (∃ text, (Command.walk [0, 2, 7] [2, 5] false).Prints text ∧
      (Command.bits 8 [7, 2, 7, 0] [2, 5, 18446744073709551615]).Prints text) ∧
    (Command.bits 8 [5, 8, -1] [5]).Fails (.insertion 8 (.outOfRange 8 8))
      (complaintText "failed to insert 8" "value 8 out of range for capacity 8") := by
  obtain ⟨hwalk, -, hbits⟩ := bits_prints_as_walk
  have hsort : ascending [7, 2, 7, 0] = [0, 2, 7] := by decide
  have hfitting : fitting [2, 5, 18446744073709551615] = [2, 5] := by decide
  refine ⟨(hwalk _ [8, 3] true).1, (hwalk _ [2, 5] false).1, ?_,
    ((hbits [5, 8, -1] (by decide) 8 [5] (by decide) (by decide)).2 8 (by decide)).2 (by decide)⟩
  rw [← hsort, ← hfitting]
  exact (hbits [7, 2, 7, 0] (by decide) 8 _ (by decide) (by decide)).1 (by decide)

example : CommandLine.execute ["bits", "7", "2", "7", "0", "--remove", "2", "--remove=5"] none =
    .done "kept\t0 7\nremoved\t1\n" [] := by cbv

end Command

end IntWalk
