import IntWalk.Parts.Gaps
import IntWalk.Proofs.Checked.Machine
import IntWalk.Proofs.Parts.Reachable

/-!
# Part sets with checks

An arrival and a loss change the runs where they stand: a run is made longer or shorter in its
place, taken out or put in.  With all places and part numbers checked this goes through for
every canonical set, and comes to the same runs as putting new runs in the place of the old
ones.
-/

namespace IntWalk

namespace Part

variable {p q : Part}

/-- The part before this one, if there is one. -/
def previous? (p : Part) : Option Part := if p = 0 then none else some (p - 1)

lemma next?_of_lt (h : p < q) : p.next? = some (p + 1) := by
  refine if_neg ?_
  rintro rfl
  have hlt := UInt32.lt_iff_toNat_lt.1 h
  have hle := toNat_lt q
  rw [toNat_last] at hlt
  omega

lemma previous?_of_lt (h : q < p) : p.previous? = some (p - 1) := by
  refine if_neg ?_
  rintro rfl
  exact UInt32.not_lt_zero h

end Part

/-! ## Counting runs -/

namespace Run

/-- How many parts the runs hold and `n` more, with checks. -/
def total? : List Run → Nat → Option Nat
  | [], n => some n
  | r :: rs, n => do
    let beyond ← Checked.sub r.last.toNat r.first.toNat
    let size ← Checked.add beyond 1
    let n ← Checked.add n size
    total? rs n

lemma total?_eq {runs : List Run} {n : Nat} (h : ∀ r ∈ runs, r.first ≤ r.last)
    (hn : n + total runs < UInt64.size) : total? runs n = some (n + total runs) := by
  induction runs generalizing n with
  | nil => rfl
  | cons r rs ih =>
    obtain ⟨hr, hrs⟩ := List.forall_mem_cons.1 h
    have hsize := size_eq hr
    have hle := UInt32.le_iff_toNat_le.1 hr
    rw [total] at hn ⊢
    have hsub := Checked.sub_eq_some hle
    have hone : Checked.add (r.last.toNat - r.first.toNat) 1 = some r.size := by
      rw [hsize]
      exact Checked.add_eq_some (by omega)
    have hadd : Checked.add n r.size = some (n + r.size) := Checked.add_eq_some (by omega)
    have hrest := ih (n := n + r.size) hrs (by omega)
    simp only [total?, Option.bind_eq_bind, Option.bind_some, hsub, hone, hadd, hrest]
    rw [Nat.add_assoc]

lemma length_le_total {runs : List Run} (h : ∀ r ∈ runs, r.first ≤ r.last) :
    runs.length ≤ total runs := by
  induction runs with
  | nil => exact Nat.le_refl _
  | cons r rs ih =>
    obtain ⟨hr, hrs⟩ := List.forall_mem_cons.1 h
    have hsize := size_eq hr
    have hle := ih hrs
    rw [List.length_cons, total]
    omega

end Run

namespace PartSet

variable {s : PartSet} {p : Part} {before after beyond : List Run} {left right : Option Run}
variable {r : Run}

/-! ## Arrivals -/

/-- Whether the run before the place ends right before the part. -/
def endsBefore? (s : PartSet) (i : Nat) (p : Part) : Option Bool :=
  if i = 0 then some false
  else do
    let j ← Checked.sub i 1
    let l ← s.runs[j]?
    let next ← l.last.next?
    return next == p

/-- The runs with a part in its place, joined with the run before it, with the run after it,
with both of them or with none. -/
def place? (s : PartSet) (i : Nat) (p : Part) : Bool → Bool → Option (Array Run)
  | true, true => do
    let r ← s.runs[i]?
    let runs ← Checked.erase s.runs i
    let j ← Checked.sub i 1
    let l ← runs[j]?
    Checked.set runs j { l with last := r.last }
  | true, false => do
    let j ← Checked.sub i 1
    let l ← s.runs[j]?
    Checked.set s.runs j { l with last := p }
  | false, true => do
    let r ← s.runs[i]?
    Checked.set s.runs i { r with first := p }
  | false, false => Checked.insert s.runs i (.single p)

/-- Records a part, with checks. -/
def insert? (s : PartSet) (p : Part) : Option (Bool × PartSet) :=
  let i := s.firstReaching p
  if s.runs[i]?.any (·.first ≤ p) then some (false, s)
  else do
    let left ← s.endsBefore? i p
    let right := s.runs[i]?.any fun r => p.next? == some r.first
    let runs ← s.place? i p left right
    return (true, ⟨runs⟩)

lemma Cut.endsBefore?_eq (cut : Cut s p before after) :
    s.endsBefore? (s.firstReaching p) p =
      some (s.leftNeighbour (s.firstReaching p) p).isSome := by
  rw [cut.leftNeighbour, endsBefore?, cut.index]
  rcases List.eq_nil_or_concat' before with rfl | ⟨init, l, rfl⟩
  · rfl
  · -- the run before the place ends before the part, so its last part has a successor
    have hlt : l.last < p := UInt32.lt_iff_toNat_lt.2 (cut.ends l (by simp))
    have hnext := Part.next?_of_lt hlt
    have hplace : s.runs.toList = init ++ l :: after := by
      rw [cut.runs, List.append_assoc]
      rfl
    have hl := Checked.getElem?_eq_some hplace
    simp [Checked.sub, hl, hnext]

/-- The run of a part in its place is the one that joins its neighbours. -/
lemma Place.place?_eq (pl : Place s p before left right beyond) :
    s.place? (s.firstReaching p) p left.isSome right.isSome =
      some (before ++ Run.joining left p right :: beyond).toArray := by
  have hruns := pl.runs
  rw [pl.index]
  cases left with
  | none =>
    cases right with
    | none => exact Checked.insert_eq_some (by simpa using hruns)
    | some r =>
      have hplace : s.runs.toList = before ++ r :: beyond := by simpa using hruns
      have hr := Checked.getElem?_eq_some hplace
      show (do
        let r ← s.runs[before.length]?
        Checked.set s.runs before.length { r with first := p }) = _
      rw [hr]
      exact Checked.set_eq_some hplace
  | some l =>
    have hj : Checked.sub (before.length + 1) 1 = some before.length := by simp [Checked.sub]
    cases right with
    | none =>
      have hplace : s.runs.toList = before ++ l :: beyond := by simpa using hruns
      have hl := Checked.getElem?_eq_some hplace
      show (do
        let j ← Checked.sub (before.length + 1) 1
        let l ← s.runs[j]?
        Checked.set s.runs j { l with last := p }) = _
      simp only [Option.bind_eq_bind, Option.bind_some, hj, hl]
      exact Checked.set_eq_some hplace
    | some r =>
      have hplace : s.runs.toList = (before ++ [l]) ++ r :: beyond := by simpa using hruns
      have hr := Checked.getElem?_eq_some hplace
      have herase := Checked.erase_eq_some hplace
      have hplace' : ((before ++ [l]) ++ beyond).toArray.toList = before ++ l :: beyond := by simp
      have hl := Checked.getElem?_eq_some hplace'
      rw [List.length_append] at hr herase
      show (do
        let r ← s.runs[before.length + [l].length]?
        let runs ← Checked.erase s.runs (before.length + [l].length)
        let j ← Checked.sub (before.length + 1) 1
        let l ← runs[j]?
        Checked.set runs j { l with last := r.last }) = _
      simp only [Option.bind_eq_bind, Option.bind_some, hr, herase, hj, hl]
      exact Checked.set_eq_some hplace'

/-- An arrival with checks goes through in every canonical set. -/
lemma insert?_eq (h : Canonical s.runs.toList) (p : Part) :
    s.insert? p = some ((s.insert p).answer, (s.insert p).after) := by
  obtain ⟨start, rest, cut⟩ := exists_cut h p
  by_cases hp : p ∈ s
  · obtain ⟨r, hr, hle⟩ := (cut.mem_iff h).1 hp
    rw [insert_of_mem h hp, insert?, cut.getElem?, hr]
    exact if_pos (by simpa using hle)
  · obtain ⟨before, left, right, beyond, pl⟩ := exists_place h hp
    obtain ⟨hanswer, hafter, -⟩ := insert_of_place h hp pl
    have hnew : (s.runs[s.firstReaching p]?.any (·.first ≤ p)) = false := by
      rw [cut.getElem?, Bool.eq_false_iff]
      intro hany
      obtain ⟨r, hr, hle⟩ := (Option.any_eq_true _ _).1 hany
      exact hp ((cut.mem_iff h).2 ⟨r, hr, of_decide_eq_true hle⟩)
    have hright : (s.runs[s.firstReaching p]?.any fun r => p.next? == some r.first) =
        right.isSome := by
      rw [← pl.rightNeighbour, rightNeighbour, Option.isSome_filter]
    have hset : (⟨(before ++ Run.joining left p right :: beyond).toArray⟩ : PartSet) =
        (s.insert p).after := by
      rw [← hafter]
    rw [insert?, hnew, cut.endsBefore?_eq, pl.leftNeighbour, hright, hanswer, ← hset]
    simp [pl.place?_eq]

/-- Records a part given by a signed number, with checks. -/
def insertSigned? (s : PartSet) (v : Int) : Option (Except StoreError Bool × PartSet) :=
  if v < 0 then some (.error (.negative v), s)
  else if Part.last.toNat < v then some (.error (.tooLarge v Part.last.toNat), s)
  else do
    let (new, t) ← s.insert? (UInt32.ofNat v.toNat)
    return (.ok new, t)

lemma insertSigned?_eq (h : Canonical s.runs.toList) (v : Int) :
    s.insertSigned? v = some ((s.insertSigned v).answer, (s.insertSigned v).after) := by
  unfold insertSigned? insertSigned
  split
  · rfl
  · split
    · rfl
    · simp [insert?_eq h]

/-! ## Sizes -/

/-- There are no more parts than part numbers. -/
lemma Canonical.size_lt (h : Canonical s.runs.toList) : s.size < UInt64.size := by
  have hinj : Function.Injective UInt32.toNat := fun _ _ => UInt32.toNat_inj.1
  have hsub : s.members.image UInt32.toNat ⊆ Finset.range 4294967296 := by
    intro n hn
    obtain ⟨p, -, rfl⟩ := Finset.mem_image.1 hn
    exact Finset.mem_range.2 (Part.toNat_lt p)
  have hcard := Finset.card_le_card hsub
  rw [Finset.card_image_of_injective _ hinj, Finset.card_range, card_members h] at hcard
  exact Nat.lt_of_le_of_lt hcard (by decide)

lemma Canonical.size_runs_lt (h : Canonical s.runs.toList) : s.runs.size < UInt64.size := by
  have hlength := Run.length_le_total h.1
  rw [Array.length_toList] at hlength
  exact Nat.lt_of_le_of_lt hlength h.size_lt

/-! ## Losses -/

/-- The runs without a part of the run at the place. -/
def cut? (s : PartSet) (i : Nat) (r : Run) (p : Part) : Option (Array Run) :=
  if r.first = r.last then Checked.erase s.runs i
  else if p = r.first then do
    let next ← p.next?
    Checked.set s.runs i { r with first := next }
  else if p = r.last then do
    let previous ← p.previous?
    Checked.set s.runs i { r with last := previous }
  else do
    let previous ← p.previous?
    let runs ← Checked.set s.runs i { r with last := previous }
    let j ← Checked.add i 1
    let next ← p.next?
    Checked.insert runs j { r with first := next }

/-- Forgets a part, with checks. -/
def remove? (s : PartSet) (p : Part) : Option (Bool × PartSet) :=
  let i := s.firstReaching p
  match s.runs[i]?.filter (·.first ≤ p) with
  | none => some (false, s)
  | some r => do
    let runs ← s.cut? i r p
    return (true, ⟨runs⟩)

/-- What is left of the run takes its place. -/
lemma Holder.cut?_eq (holder : Holder s p before r after) (hsize : s.runs.size < UInt64.size) :
    s.cut? (s.firstReaching p) r p = some (before ++ (r.without p ++ after)).toArray := by
  have hruns := holder.runs
  obtain ⟨hfirst, hlast⟩ := holder.mem
  rw [holder.index, cut?, Run.without]
  by_cases hone : r.first = r.last
  · obtain rfl : p = r.first := UInt32.le_antisymm (hone ▸ hlast) hfirst
    simp only [hone, if_true, UInt32.lt_irrefl, if_false]
    exact Checked.erase_eq_some hruns
  · rw [if_neg hone]
    by_cases hpfirst : p = r.first
    · have hlower : ¬ r.first < p := by
        rw [hpfirst]
        exact UInt32.lt_irrefl _
      have hupper : p < r.last := UInt32.lt_of_le_of_ne hlast (hpfirst ▸ hone)
      rw [if_pos hpfirst, if_neg hlower, if_pos hupper, Part.next?_of_lt hupper]
      exact Checked.set_eq_some hruns
    · have hlower : r.first < p := UInt32.lt_of_le_of_ne hfirst (Ne.symm hpfirst)
      rw [if_neg hpfirst, if_pos hlower, Part.previous?_of_lt hlower]
      by_cases hplast : p = r.last
      · have hupper : ¬ p < r.last := by
          rw [hplast]
          exact UInt32.lt_irrefl _
        rw [if_pos hplast, if_neg hupper]
        exact Checked.set_eq_some hruns
      · -- the run is cut in two, and its second half put in behind the first
        have hupper : p < r.last := UInt32.lt_of_le_of_ne hlast hplast
        have hset := Checked.set_eq_some (x := ⟨r.first, p - 1⟩) hruns
        have hplace : (before ++ ⟨r.first, p - 1⟩ :: after).toArray.toList =
            (before ++ [⟨r.first, p - 1⟩]) ++ after := by simp
        have hinsert := Checked.insert_eq_some (x := ⟨p + 1, r.last⟩) hplace
        have hlt : before.length < s.runs.size := by
          rw [← Array.length_toList, hruns]
          simp
        have hnext : Checked.add before.length 1 = some (before.length + 1) :=
          Checked.add_eq_some (by omega)
        rw [List.length_append, List.length_singleton] at hinsert
        rw [if_neg hplast, if_pos hupper]
        simp only [Option.bind_eq_bind, Option.bind_some, hset, hnext, Part.next?_of_lt hupper,
          hinsert]
        simp

/-- A loss with checks goes through in every canonical set. -/
lemma remove?_eq (h : Canonical s.runs.toList) (p : Part) :
    s.remove? p = some ((s.remove p).answer, (s.remove p).after) := by
  by_cases hp : p ∈ s
  · obtain ⟨before, r, after, holder⟩ := exists_holder h hp
    obtain ⟨hanswer, hafter, -⟩ := remove_of_holder holder
    have hset : (⟨(before ++ (r.without p ++ after)).toArray⟩ : PartSet) =
        (s.remove p).after := by
      rw [← hafter]
    rw [remove?, holder.filter_eq_some, hanswer, ← hset]
    simp [holder.cut?_eq h.size_runs_lt]
  · rw [remove_of_not_mem h hp, remove?, filter_eq_none_of_not_mem h hp]
    rfl

/-! ## Requests -/

/-- Puts one request to the set, with checks. -/
def ask? : Request Part → PartSet → Option (Answer × PartSet)
  | .insert p, s => do
    let (new, t) ← s.insert? p
    return (.flag new, t)
  | .insertSigned v, s => do
    let (new, t) ← s.insertSigned? v
    return (.stored new, t)
  | .remove p, s => do
    let (gone, t) ← s.remove? p
    return (.flag gone, t)
  | .contains p, s => some (.flag (s.contains p), s)
  | .size, s => do
    let n ← Run.total? s.runs.toList 0
    return (.total n, s)
  | .isEmpty, s => some (.flag s.isEmpty, s)

lemma ask?_eq (h : Canonical s.runs.toList) (r : Request Part) :
    ask? r s = some ((s.ask r).answer, (s.ask r).after) := by
  cases r with
  | insert p => simp [ask?, ask, insert?_eq h]
  | insertSigned v => simp [ask?, ask, insertSigned?_eq h]
  | remove p =>
    rw [ask?, ask, remove?_eq h]
    rfl
  | contains | isEmpty => rfl
  | size =>
    have hsize : 0 + Run.total s.runs.toList < UInt64.size := by
      rw [Nat.zero_add]
      exact h.size_lt
    simp [ask?, ask, size, Run.total?_eq h.1 hsize]

/-! ## Walks -/

namespace Walk

variable {w : Walk}

/-- Gives out the next part, with checks. -/
def next? (w : Walk) : Option (Except WalkError Part × Walk) :=
  match w.peek with
  | none => some (.error (.exhausted w.progress.yielded), w)
  | some p => do
    let progress ← Checked.advance w.progress
    return (.ok p, { w with lower := p.next?, current := some p, progress })

/-- Takes the part given out last out of the set, with checks. -/
def remove? (w : Walk) : Option (Except WalkError Unit × Walk) :=
  match w.progress.claimRemoval with
  | .error why => some (.error (.refused why), w)
  | .ok progress =>
    match w.current with
    | none => some (.ok (), { w with progress })
    | some p => do
      let (_, parts) ← w.parts.remove? p
      return (.ok (), { w with parts, current := none, progress })

lemma next_of_peek_eq_none (hpeek : w.peek = none) :
    w.next = ⟨.error (.exhausted w.progress.yielded), w, [.exhausted w.progress.yielded]⟩ := by
  rw [next, hpeek]

lemma next_of_peek_eq_some (hpeek : w.peek = some p) : w.next = .still (.ok p)
    { w with lower := p.next?, current := some p, progress := w.progress.advance } := by
  rw [next, hpeek]

/-- What goes through with checks is done as without. -/
lemma eq_of_next? {x : Except WalkError Part × Walk} (h : w.next? = some x) :
    x = (w.next.answer, w.next.after) := by
  rw [next?] at h
  cases hpeek : w.peek with
  | none =>
    rw [hpeek] at h
    rw [next_of_peek_eq_none hpeek]
    exact (Option.some.inj h).symm
  | some p =>
    rw [hpeek] at h
    rw [next_of_peek_eq_some hpeek]
    obtain ⟨progress, hprogress, hx⟩ := Option.bind_eq_some_iff.1 h
    obtain rfl := Checked.eq_of_advance hprogress
    exact (Option.some.inj hx).symm

lemma lower_of_remove? {x : Except WalkError Unit × Walk} (h : w.remove? = some x) :
    x.2.lower = w.lower := by
  unfold remove? at h
  split at h
  · cases h
    rfl
  · split at h
    · cases h
      rfl
    · obtain ⟨y, -, hx⟩ := Option.bind_eq_some_iff.1 h
      cases hx
      rfl

instance : Checked.Calls Walk Part where
  hasNext w := some (w.peek.isSome, w)
  next := next?
  remove := remove?
  budget := budget
  budget_next_lt := by
    intro w t u p hhas hnext
    obtain rfl : w = t := (Prod.mk.inj (Option.some.inj hhas)).2
    have hx := eq_of_next? hnext
    obtain ⟨hanswer, rfl⟩ := Prod.mk.inj hx
    exact budget_next_lt hanswer.symm
  budget_remove_le := by
    intro w t r hremove
    have hlower : t.lower = w.lower := lower_of_remove? hremove
    rw [budget, budget, hlower]

/-- The set is canonical, and what was and can be given out can be counted. -/
structure Fits (w : Walk) : Prop where
  canonical : Canonical w.parts.runs.toList
  yielded : w.progress.yielded + w.budget < UInt64.size

lemma fits_walk (h : Canonical s.runs.toList) : Fits s.walk where
  canonical := h
  yielded := by simp [walk, budget, UInt64.size]

/-- A part that is given out costs one part number at least. -/
lemma Fits.yielded_lt (h : Fits w) (hpeek : w.peek = some p) :
    w.progress.yielded + 1 + w.next.after.budget < UInt64.size := by
  have hlt : w.next.after.budget < w.budget := by
    refine budget_next_lt (p := p) ?_
    rw [next_of_peek_eq_some hpeek, Step.still_answer]
  have hle := h.yielded
  omega

lemma Fits.next (h : Fits w) : Fits w.next.after := by
  refine ⟨keeps_canonical.next w h.canonical, ?_⟩
  cases hpeek : w.peek with
  | none =>
    rw [next_of_peek_eq_none hpeek]
    exact h.yielded
  | some p =>
    have hlt := h.yielded_lt hpeek
    have hyielded : w.next.after.progress.yielded = w.progress.yielded + 1 := by
      rw [next_of_peek_eq_some hpeek]
      rfl
    omega

lemma Fits.remove (h : Fits w) : Fits w.remove.after := by
  have hyielded : w.remove.after.progress.yielded = w.progress.yielded := by
    unfold Walk.remove
    split
    · rfl
    · next progress hclaim =>
      obtain ⟨-, rfl⟩ := Progress.claimRemoval_eq_ok_iff.1 hclaim
      split <;> rfl
  refine ⟨keeps_canonical.remove w h.canonical, ?_⟩
  rw [hyielded, budget_remove]
  exact h.yielded

lemma Fits.next?_eq (h : Fits w) : w.next? = some (w.next.answer, w.next.after) := by
  cases hpeek : w.peek with
  | none =>
    rw [next_of_peek_eq_none hpeek, next?, hpeek]
  | some p =>
    have hlt := h.yielded_lt hpeek
    have hcount : w.progress.yielded + 1 < UInt64.size := by omega
    rw [next_of_peek_eq_some hpeek, next?, hpeek, Checked.advance_eq_some hcount]
    rfl

lemma Fits.remove?_eq (h : Fits w) : w.remove? = some (w.remove.answer, w.remove.after) := by
  rw [Walk.remove, remove?]
  cases w.progress.claimRemoval with
  | error why => rfl
  | ok progress =>
    cases w.current with
    | none => rfl
    | some p =>
      simp only [PartSet.remove?_eq h.canonical]
      rfl

/-- The checks of a walk over a canonical set go through. -/
lemma follows_id : Checked.Follows id Fits where
  hasNext _ h := h
  next _ h := h.next
  remove _ h := h.remove
  hasNext_eq _ _ := rfl
  next_eq _ h := h.next?_eq
  remove_eq _ h := h.remove?_eq
  budget_lt _ h := Nat.lt_of_le_of_lt (Nat.le_add_left _ _) h.yielded

end Walk

/-! ## Scripts -/

/-- What can be done with a part set. -/
inductive Action where
  /-- Any single request. -/
  | ask (r : Request Part)
  /-- The gaps below a total. -/
  | missing (total : Part)
  /-- A walk, which holds the set until it ends. -/
  | walk (calls : List (Call Part))

/-- What is answered. -/
inductive Outcome where
  /-- The answer to a request. -/
  | answer (a : Answer)
  /-- Some gaps. -/
  | gaps (gs : List Gap)
  /-- What a walk was told, and how far it came. -/
  | replies (rs : List (Reply Part)) (progress : Progress)

/-- Does what is asked. -/
def act : Action → PartSet → Step Event PartSet Outcome
  | .ask r, s => (s.ask r).map .answer
  | .missing total, s => .still (.gaps (s.missing total)) s
  | .walk calls, s =>
    let x := Cursor.performAll calls s.walk
    ⟨.replies x.answer x.after.progress, x.after.parts, x.events⟩

/-- Does what is asked, with checks. -/
def act? : Action → PartSet → Option (Outcome × PartSet)
  | .ask r, s => do
    let (a, t) ← ask? r s
    return (.answer a, t)
  | .missing total, s => some (.gaps (s.missing total), s)
  | .walk calls, s => do
    let (rs, w) ← Checked.performAll calls s.walk
    return (.replies rs w.progress, w.parts)

lemma canonical_act (h : Canonical s.runs.toList) (x : Action) :
    Canonical (act x s).after.runs.toList := by
  cases x with
  | ask r => exact canonical_ask h r
  | missing total => exact h
  | walk calls => exact Walk.keeps_canonical.performAll calls h

lemma act?_eq (h : Canonical s.runs.toList) (x : Action) :
    act? x s = some ((act x s).answer, (act x s).after) := by
  cases x with
  | ask r =>
    rw [act?, ask?_eq h]
    rfl
  | missing total => rfl
  | walk calls =>
    have hwalk := Walk.follows_id.performAll (Walk.fits_walk h) calls
    rw [act?, ← id_eq s.walk, hwalk]
    rfl

/-- Whatever is done with a canonical set, no check fails. -/
lemma runAll_act?_eq (h : Canonical s.runs.toList) (actions : List Action) :
    Checked.runAll act? actions s =
      some ((Step.runAll act actions s).answer, (Step.runAll act actions s).after) :=
  Checked.runAll_eq_some (P := fun s : PartSet => Canonical s.runs.toList)
    (fun x _ ht => act?_eq ht x) actions fun xs _ =>
      Step.after_runAll (P := fun s : PartSet => Canonical s.runs.toList)
        (fun x _ ht => canonical_act ht x) xs h

end PartSet

end IntWalk
