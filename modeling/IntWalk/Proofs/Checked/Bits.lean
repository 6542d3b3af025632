import IntWalk.Proofs.Bits.Contract
import IntWalk.Proofs.Bits.Head
import IntWalk.Proofs.Checked.Machine

/-!
# Bit sets with checks

The size is counted up and down beside the digits, and a walk looks for the next member among
the digits from its place on.  While the size is accurate and the place within the capacity,
all of this goes through with checks.
-/

namespace IntWalk

/-- The first one from a place on is the first one of the digits behind it. -/
lemma Ones.nextFrom?_eq_map (m i : Nat) :
    nextFrom? m i = (nextFrom? (m >>> i) 0).map (i + ·) := by
  simp only [nextFrom?, Nat.shiftRight_zero]
  split <;> simp

namespace BitSet

variable {s : BitSet} {v : Nat}

/-! ## Requests -/

lemma below_set (s : BitSet) (v : Nat) (room : v < s.capacity) :
    Ones.Below (Ones.set s.mask v) s.capacity := Ones.below_set s.within room

/-- Makes a number a member, with checks. -/
def insert? (s : BitSet) (v : Nat) : Option (Except StoreError Bool × BitSet) :=
  if room : v < s.capacity then do
    let present := s.mask.testBit v
    let size ← if present then some s.size else Checked.add s.size 1
    return (.ok !present,
      { s with mask := Ones.set s.mask v, size, within := s.below_set v room })
  else some (.error (.outOfRange v s.capacity), s)

/-- Makes a number given with its sign a member, with checks. -/
def insertSigned? (s : BitSet) (v : Int) : Option (Except StoreError Bool × BitSet) :=
  if v < 0 then some (.error (.negative v), s)
  else if largestValue < v then some (.error (.tooLarge v largestValue), s)
  else s.insert? v.toNat

/-- Clears the digit of a number within the capacity and counts the size down, with checks. -/
def clear? (s : BitSet) (v : Nat) : Option BitSet :=
  if v < s.capacity then do
    let size ← Checked.sub s.size 1
    return { s.clear v with size }
  else none

/-- Makes a number no member, with checks. -/
def remove? (s : BitSet) (v : Nat) : Option (Bool × BitSet) :=
  if s.contains v then do
    let t ← s.clear? v
    return (true, t)
  else some (false, s)

/-- Makes all the numbers members, with checks. -/
def insertAll? : List Nat → BitSet → Option (Except StoreError BitSet)
  | [], s => some (.ok s)
  | v :: vs, s => do
    let (new, t) ← s.insert? v
    match new with
    | .ok _ => insertAll? vs t
    | .error e => return .error e

/-- The least set that has the numbers as its members, with checks. -/
def ofList? (values : List Nat) : Option (Except StoreError BitSet) :=
  match values.max? with
  | none => some (.ok empty)
  | some largest =>
    match Capacity.ofLargest largest with
    | .ok c => insertAll? values (ofCapacity c)
    | .error e => some (.error e)

/-- Puts one request to the set, with checks. -/
def ask? : Request Nat → BitSet → Option (Answer × BitSet)
  | .insert v, s => do
    let (new, t) ← s.insert? v
    return (.stored new, t)
  | .insertSigned n, s => do
    let (new, t) ← s.insertSigned? n
    return (.stored new, t)
  | .remove v, s => do
    let (gone, t) ← s.remove? v
    return (.flag gone, t)
  | .contains v, s => some (.flag (s.contains v), s)
  | .size, s => some (.total s.size, s)
  | .isEmpty, s => some (.flag s.isEmpty, s)

/-- The size is accurate and the capacity is a number of 64 bits. -/
structure Fits (s : BitSet) : Prop where
  accurate : s.Accurate
  capacity : s.capacity ≤ StoredBits.largest

namespace Fits

lemma capacity_lt (h : Fits s) : s.capacity < UInt64.size :=
  Nat.lt_of_le_of_lt h.capacity (by decide)

/-- There is a number for one more member that has room. -/
lemma add_size (h : Fits s) (room : v < s.capacity) (hv : v ∉ s) :
    Checked.add s.size 1 = some (s.size + 1) := by
  have hle := (h.accurate.insert v).size_le_capacity
  have hsize : (s.insert v).after.size = s.size + 1 := by
    rw [size_insert room, if_neg (by rwa [mem_members])]
  rw [hsize, capacity_insert] at hle
  exact Checked.add_eq_some (Nat.lt_of_le_of_lt hle h.capacity_lt)

lemma insert?_eq (h : Fits s) (v : Nat) :
    s.insert? v = some ((s.insert v).answer, (s.insert v).after) := by
  unfold insert? insert
  by_cases room : v < s.capacity
  · rw [dif_pos room, dif_pos room]
    by_cases hv : s.mask.testBit v = true
    · simp [hv]
    · simp [hv, h.add_size room hv]
  · rw [dif_neg room, dif_neg room]
    rfl

lemma insertSigned?_eq (h : Fits s) (n : Int) :
    s.insertSigned? n = some ((s.insertSigned n).answer, (s.insertSigned n).after) := by
  unfold insertSigned? insertSigned
  split
  · rfl
  · split
    · rfl
    · exact h.insert?_eq _

/-- A member can be counted off. -/
lemma clear?_eq (h : Fits s) (hv : v ∈ s) : s.clear? v = some (s.clear v) := by
  have hpos : 1 ≤ s.size := by
    rw [h.accurate, Nat.one_le_iff_ne_zero, Nat.ne_zero_iff_zero_lt, Finset.card_pos]
    exact ⟨v, mem_members.2 hv⟩
  rw [clear?, if_pos (lt_capacity_of_mem hv), Checked.sub_eq_some hpos]
  rfl

lemma remove?_eq (h : Fits s) (v : Nat) :
    s.remove? v = some ((s.remove v).answer, (s.remove v).after) := by
  unfold remove? remove
  by_cases hv : s.contains v = true
  · simp [hv, h.clear?_eq (contains_eq_true_iff.1 hv)]
  · simp [hv]

lemma ask?_eq (h : Fits s) (r : Request Nat) :
    ask? r s = some ((s.ask r).answer, (s.ask r).after) := by
  cases r with
  | insert v =>
    rw [ask?, ask, h.insert?_eq]
    rfl
  | insertSigned n =>
    rw [ask?, ask, h.insertSigned?_eq]
    rfl
  | remove v =>
    rw [ask?, ask, h.remove?_eq]
    rfl
  | contains | size | isEmpty => rfl

lemma insert (h : Fits s) (v : Nat) : Fits (s.insert v).after where
  accurate := h.accurate.insert v
  capacity := by
    rw [capacity_insert]
    exact h.capacity

end Fits

/-! ## Sets out of a list -/

lemma insertAll?_eq (h : Fits s) (values : List Nat) :
    insertAll? values s = some (insertAll values s) := by
  induction values generalizing s with
  | nil => rfl
  | cons v vs ih =>
    rw [insertAll?, h.insert?_eq, insertAll]
    cases hnew : (s.insert v).answer with
    | ok new => simp [ih (h.insert v)]
    | error e => rfl

lemma ofList?_eq (values : List Nat) : ofList? values = some (ofList values) := by
  rw [ofList?, ofList]
  cases values.max? with
  | none => rfl
  | some largest =>
    simp only []
    cases Capacity.ofLargest largest with
    | error e => rfl
    | ok c => exact insertAll?_eq ⟨accurate_ofCapacity c, Nat.le_pred_of_lt c.fits⟩ values

/-! ## Walks -/

/-- The first member from the place on, which must be within the capacity, with checks. -/
def nextSetBit? (s : BitSet) (i : Nat) : Option (Option Nat) :=
  if i ≤ s.capacity then
    match Ones.nextFrom? (s.mask >>> i) 0 with
    | none => some none
    | some offset => do
      let v ← Checked.add i offset
      return some v
  else none

lemma eq_of_nextSetBit? {i : Nat} {x : Option Nat} (h : s.nextSetBit? i = some x) :
    x = Ones.nextFrom? s.mask i := by
  rw [nextSetBit?] at h
  rw [Ones.nextFrom?_eq_map]
  split at h
  · split at h
    · next hnone =>
      rw [hnone]
      exact (Option.some.inj h).symm
    · next offset hoffset =>
      rw [hoffset]
      obtain ⟨v, hadd, hx⟩ := Option.bind_eq_some_iff.1 h
      obtain ⟨-, rfl⟩ := Checked.add_eq_some_iff.1 hadd
      exact (Option.some.inj hx).symm
  · cases h

/-- The search goes through from every place within the capacity. -/
lemma Fits.nextSetBit?_eq (h : Fits s) {i : Nat} (hi : i ≤ s.capacity) :
    s.nextSetBit? i = some (Ones.nextFrom? s.mask i) := by
  have hmap := Ones.nextFrom?_eq_map s.mask i
  rw [nextSetBit?, if_pos hi]
  cases hoffset : Ones.nextFrom? (s.mask >>> i) 0 with
  | none =>
    rw [hmap, hoffset]
    rfl
  | some offset =>
    -- what is found is a member and has room
    rw [hoffset, Option.map_some] at hmap
    obtain ⟨-, hmem, -⟩ := Ones.nextFrom?_eq_some_iff.1 hmap
    have hlt := Nat.lt_trans (lt_capacity_of_mem hmem) h.capacity_lt
    have hadd : Checked.add i offset = some (i + offset) := Checked.add_eq_some hlt
    simp only [hmap, hadd, Option.bind_eq_bind, Option.bind_some]
    rfl

namespace Walk

variable {w : Walk} {c : Nat}

/-- Whether a member is left, with checks. -/
def hasNext? (w : Walk) : Option (Bool × Walk) := do
  let found ← w.bits.nextSetBit? w.scanFrom
  return (found.isSome, w)

/-- Gives out the next member, with checks. -/
def next? (w : Walk) : Option (Except WalkError Nat × Walk) := do
  match ← w.bits.nextSetBit? w.scanFrom with
  | none => return (.error (.exhausted w.progress.yielded), w)
  | some v =>
    let scanFrom ← Checked.add v 1
    let progress ← Checked.advance w.progress
    return (.ok v, { w with scanFrom, progress })

/-- Takes the member given out last out of the set, with checks. -/
def remove? (w : Walk) : Option (Except WalkError Unit × Walk) :=
  match w.progress.claimRemoval with
  | .error why => some (.error (.refused why), w)
  | .ok progress => do
    let v ← Checked.sub w.scanFrom 1
    let bits ← w.bits.clear? v
    return (.ok (), { w with bits, progress })

/-! ### What goes through is done as without checks -/

lemma eq_of_hasNext? {x : Bool × Walk} (h : w.hasNext? = some x) : x = (w.peek.isSome, w) := by
  obtain ⟨found, hfound, hx⟩ := Option.bind_eq_some_iff.1 h
  obtain rfl := eq_of_nextSetBit? hfound
  exact (Option.some.inj hx).symm

lemma next_of_peek_eq_none (hpeek : w.peek = none) :
    w.next = ⟨.error (.exhausted w.progress.yielded), w, [.exhausted w.progress.yielded]⟩ := by
  rw [next, hpeek]

lemma next_of_peek_eq_some (hpeek : w.peek = some v) : w.next = .still (.ok v)
    { w with scanFrom := v + 1, progress := w.progress.advance } := by
  rw [next, hpeek]

lemma eq_of_next? {x : Except WalkError Nat × Walk} (h : w.next? = some x) :
    x = (w.next.answer, w.next.after) := by
  obtain ⟨found, hfound, hx⟩ := Option.bind_eq_some_iff.1 h
  obtain rfl : found = w.peek := eq_of_nextSetBit? hfound
  cases hpeek : w.peek with
  | none =>
    rw [hpeek] at hx
    rw [next_of_peek_eq_none hpeek]
    exact (Option.some.inj hx).symm
  | some v =>
    rw [hpeek] at hx
    rw [next_of_peek_eq_some hpeek]
    obtain ⟨scanFrom, hscan, hx⟩ := Option.bind_eq_some_iff.1 hx
    obtain ⟨-, rfl⟩ := Checked.add_eq_some_iff.1 hscan
    obtain ⟨progress, hprogress, hx⟩ := Option.bind_eq_some_iff.1 hx
    obtain rfl := Checked.eq_of_advance hprogress
    exact (Option.some.inj hx).symm

lemma budget_of_remove? {x : Except WalkError Unit × Walk} (h : w.remove? = some x) :
    x.2.budget = w.budget := by
  rw [remove?] at h
  split at h
  · cases h
    rfl
  · obtain ⟨v, -, hx⟩ := Option.bind_eq_some_iff.1 h
    obtain ⟨bits, hbits, hx⟩ := Option.bind_eq_some_iff.1 hx
    rw [clear?] at hbits
    split at hbits
    · obtain ⟨size, -, hbits⟩ := Option.bind_eq_some_iff.1 hbits
      cases hbits
      cases hx
      rfl
    · cases hbits

instance : Checked.Calls Walk Nat where
  hasNext := hasNext?
  next := next?
  remove := remove?
  budget := budget
  budget_next_lt := by
    intro w t u v hhas hnext
    obtain rfl : t = w := (Prod.mk.inj (eq_of_hasNext? hhas)).2
    obtain ⟨hanswer, rfl⟩ := Prod.mk.inj (eq_of_next? hnext)
    exact budget_next_lt hanswer.symm
  budget_remove_le hremove := Nat.le_of_eq (budget_of_remove? hremove)

/-! ### What the checks need -/

/-- The set is sound, the place within the capacity, and no more members were given out than
there are numbers below the place. -/
structure Fits (c : Nat) (w : Walk) : Prop extends Sound c w where
  largest : c ≤ StoredBits.largest
  place : w.scanFrom ≤ w.bits.capacity
  yielded : w.progress.yielded ≤ w.scanFrom

lemma fits_walk (h : BitSet.Fits s) : Fits s.capacity s.walk where
  capacity := rfl
  accurate := h.accurate
  current := nofun
  largest := h.capacity
  place := Nat.zero_le _
  yielded := Nat.le_refl 0

lemma Fits.bits (h : Fits c w) : w.bits.Fits := ⟨h.accurate, h.capacity ▸ h.largest⟩

lemma Fits.next (h : Fits c w) : Fits c w.next.after := by
  refine ⟨(keeps_sound c).next w h.toSound, h.largest, keeps_scanFrom_le.next w h.place, ?_⟩
  cases hpeek : w.peek with
  | none =>
    rw [next_of_peek_eq_none hpeek]
    exact h.yielded
  | some v =>
    obtain ⟨-, hplace, -⟩ := peek_eq_some_iff.1 hpeek
    rw [next_of_peek_eq_some hpeek]
    exact Nat.succ_le_succ (Nat.le_trans h.yielded hplace)

lemma Fits.remove (h : Fits c w) : Fits c w.remove.after := by
  refine ⟨(keeps_sound c).remove w h.toSound, h.largest,
    keeps_scanFrom_le.remove w h.place, ?_⟩
  have hyielded := h.yielded
  rw [Walk.remove]
  split
  · exact hyielded
  · next progress hclaim =>
    obtain ⟨-, rfl⟩ := Progress.claimRemoval_eq_ok_iff.1 hclaim
    exact hyielded

lemma Fits.hasNext?_eq (h : Fits c w) : w.hasNext? = some (w.peek.isSome, w) := by
  rw [hasNext?, h.bits.nextSetBit?_eq h.place]
  rfl

lemma Fits.next?_eq (h : Fits c w) : w.next? = some (w.next.answer, w.next.after) := by
  rw [next?, h.bits.nextSetBit?_eq h.place]
  cases hpeek : w.peek with
  | none =>
    rw [next_of_peek_eq_none hpeek]
    rw [peek] at hpeek
    simp only [Option.bind_eq_bind, Option.bind_some, hpeek]
    rfl
  | some v =>
    obtain ⟨hmem, hplace, -⟩ := peek_eq_some_iff.1 hpeek
    have hlt := lt_capacity_of_mem hmem
    have hroom := h.bits.capacity_lt
    have hyielded := h.yielded
    have hscan : Checked.add v 1 = some (v + 1) := Checked.add_eq_some (by omega)
    have hcount : w.progress.yielded + 1 < UInt64.size := by omega
    rw [next_of_peek_eq_some hpeek]
    rw [peek] at hpeek
    simp only [Option.bind_eq_bind, Option.bind_some, hpeek, hscan,
      Checked.advance_eq_some hcount]
    rfl

lemma Fits.remove?_eq (h : Fits c w) :
    w.remove? = some (w.remove.answer, w.remove.after) := by
  rw [Walk.remove, remove?]
  cases hclaim : w.progress.claimRemoval with
  | error why => rfl
  | ok progress =>
    -- the number before the place is a member, so its digit can be counted off
    obtain ⟨hs, -⟩ := Progress.claimRemoval_eq_ok_iff.1 hclaim
    obtain ⟨v, hscan, hv⟩ := h.current hs
    have hsub : Checked.sub w.scanFrom 1 = some v := by
      rw [hscan]
      exact Checked.sub_eq_some (Nat.succ_le_succ (Nat.zero_le v))
    have hplace : w.scanFrom - 1 = v := by
      rw [hscan, Nat.add_sub_cancel]
    simp only [Option.bind_eq_bind, Option.bind_some, hsub, h.bits.clear?_eq hv, hplace]
    rfl

/-- The checks of a walk over a sound set go through. -/
lemma follows_id (c : Nat) : Checked.Follows id (Fits c) where
  hasNext _ h := h
  next _ h := h.next
  remove _ h := h.remove
  hasNext_eq _ h := h.hasNext?_eq
  next_eq _ h := h.next?_eq
  remove_eq _ h := h.remove?_eq
  budget_lt _ h := Nat.lt_of_le_of_lt (Nat.sub_le _ _) h.bits.capacity_lt

end Walk

/-! ## Scripts -/

/-- Does what is asked, with checks. -/
def act? : Action → BitSet → Option (Outcome × BitSet)
  | .ask r, s => do
    let (a, t) ← ask? r s
    return (.answer a, t)
  | .capacity, s => some (.count s.capacity, s)
  | .list, s => some (.members s.toList, s)
  | .compare other, s => some (.verdict (s == other) (other == s), s)
  | .walk calls, s => do
    let (rs, w) ← Checked.performAll calls s.walk
    return (.replies rs w.progress, w.bits)

lemma Fits.act (h : Fits s) (x : Action) : Fits (act x s).after := by
  cases x with
  | ask r =>
    refine ⟨accurate_ask h.accurate r, ?_⟩
    rw [BitSet.act, Step.map_after, capacity_ask]
    exact h.capacity
  | capacity | list | compare other => exact h
  | walk calls =>
    exact ((Walk.follows_id s.capacity).toKeeps.performAll calls (Walk.fits_walk h)).bits

lemma Fits.act?_eq (h : Fits s) (x : Action) :
    act? x s = some ((BitSet.act x s).answer, (BitSet.act x s).after) := by
  cases x with
  | ask r =>
    rw [act?, h.ask?_eq]
    rfl
  | capacity | list | compare other => rfl
  | walk calls =>
    have hwalk := (Walk.follows_id s.capacity).performAll (Walk.fits_walk h) calls
    rw [act?, ← id_eq s.walk, hwalk]
    rfl

/-- Whatever is done with a set whose size is accurate, no check fails. -/
lemma Fits.runAll_act?_eq (h : Fits s) (actions : List Action) :
    Checked.runAll act? actions s =
      some ((Step.runAll BitSet.act actions s).answer, (Step.runAll BitSet.act actions s).after) :=
  Checked.runAll_eq_some (P := Fits) (fun x _ ht => ht.act?_eq x) actions fun xs _ =>
    Step.after_runAll (P := Fits) (fun x _ ht => ht.act x) xs h

end BitSet

end IntWalk
