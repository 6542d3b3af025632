import IntWalk.Proofs.Json.Yields
import Mathlib.Data.List.Forall2

/-!
# Readers that look for faults

A reader may read a value and look for a fault in it.  `Screens fault r o` says that `r`
does so where `o` reads the mere shape: whenever `o` makes a value of the tokens, `r` makes
the same value of them, or stops with the fault that the value has.

A list is read up to its first item at fault.  A record is read up to the field that puts
a fault into it, so no other field may take this fault away again.
-/

namespace IntWalk.Json.Reader

variable {α β σ : Type}

/-! ## Running one reader after another -/

section Bind

variable {r : Reader α} {k : α → Reader β} {ts rest : List Token} {v : α} {w : β}

lemma bind_of_ok (h : r ts = .ok (v, rest)) : (r >>= k) ts = k v rest := by
  simp only [Bind.bind, StateT.bind, Except.bind, h]

lemma bind_of_error {fault : Fault} (h : r ts = .error fault) : (r >>= k) ts = .error fault := by
  simp only [Bind.bind, StateT.bind, Except.bind, h]

/-- Where both have read, the first has read. -/
lemma exists_of_bind (h : (r >>= k) ts = .ok (w, rest)) :
    ∃ v us, r ts = .ok (v, us) ∧ k v us = .ok (w, rest) := by
  cases hr : r ts with
  | error fault =>
    rw [bind_of_error hr] at h
    cases h
  | ok x =>
    rw [bind_of_ok hr] at h
    exact ⟨x.1, x.2, rfl, h⟩

end Bind

/-! ## Faults of single values -/

/-- What `o` makes of the tokens is what `r` makes of them, unless it is at fault. -/
def Screens (fault : α → Option Fault) (r o : Reader α) : Prop :=
  ∀ ⦃ts : List Token⦄ ⦃v : α⦄ ⦃rest : List Token⦄, o ts = .ok (v, rest) →
    r ts = match fault v with
      | none => .ok (v, rest)
      | some e => .error e

variable {fault : α → Option Fault} {r o : Reader α}

namespace Screens

variable {ts rest : List Token} {v : α} {e : Fault}

lemma eq_ok (h : Screens fault r o) (hread : o ts = .ok (v, rest)) (hv : fault v = none) :
    r ts = .ok (v, rest) := by
  rw [h hread, hv]

lemma eq_error (h : Screens fault r o) (hread : o ts = .ok (v, rest)) (hv : fault v = some e) :
    r ts = .error e := by
  rw [h hread, hv]

/-- The value may be changed on its way, if what is wrong with it stays. -/
lemma map {f : α → β} {fault' : β → Option Fault} (h : Screens fault r o)
    (hf : ∀ v, fault' (f v) = fault v) :
    Screens fault' (r >>= fun v => pure (f v)) (o >>= fun v => pure (f v)) := by
  intro ts w rest hread
  obtain ⟨v, us, hv, hread⟩ := exists_of_bind hread
  cases hread
  rw [hf]
  cases hfault : fault v with
  | none =>
    rw [bind_of_ok (h.eq_ok hv hfault)]
    rfl
  | some e => rw [bind_of_error (h.eq_error hv hfault)]

/-- A value that has no fault so far is looked at again. -/
lemma check {fault' : α → Option Fault} {k : α → Reader α} (h : Screens fault r o)
    (hkept : ∀ v e, fault v = some e → fault' v = some e)
    (hk : ∀ v ts, fault v = none → k v ts = match fault' v with
      | none => .ok (v, ts)
      | some e => .error e) : Screens fault' (r >>= k) o := by
  intro ts v rest hread
  cases hfault : fault v with
  | none => rw [bind_of_ok (h.eq_ok hread hfault), hk v rest hfault]
  | some e => rw [bind_of_error (h.eq_error hread hfault), hkept v e hfault]

end Screens

/-- Values without faults need no look. -/
lemma screens_self (h : Yields r fun v => fault v = none) : Screens fault r r := by
  intro ts v rest hread
  rw [h hread, hread]

/-! ## Lists -/

lemma screens_items (h : Screens fault r o) (n : Nat) :
    Screens (fun vs => vs.findSome? fault) (items r n) (items o n) := by
  induction n with
  | zero => rintro ts vs rest ⟨⟩
  | succ n ih =>
    intro ts vs rest hread
    rw [items] at hread ⊢
    obtain ⟨v, us, hv, hread⟩ := exists_of_bind hread
    obtain ⟨t, us', ht, hread⟩ := exists_of_bind hread
    cases hfault : fault v with
    | some e =>
      -- the first item is at fault, whatever comes after it
      rw [bind_of_error (h.eq_error hv hfault)]
      split at hread
      · obtain ⟨us, vs', -, hread⟩ := exists_of_bind hread
        cases hread
        simp [hfault]
      · cases hread
        simp [hfault]
      · cases hread
    | none =>
      rw [bind_of_ok (h.eq_ok hv hfault), bind_of_ok ht]
      split at hread
      · obtain ⟨vs, us, hvs, hread⟩ := exists_of_bind hread
        cases hread
        simp only [List.findSome?_cons, hfault]
        cases hrest : vs.findSome? fault with
        | none => rw [bind_of_ok (ih.eq_ok hvs hrest)]; rfl
        | some e => rw [bind_of_error (ih.eq_error hvs hrest)]
      · cases hread
        simp [hfault]
        rfl
      · cases hread

lemma screens_array (h : Screens fault r o) :
    Screens (fun vs => vs.findSome? fault) (array r) (array o) := by
  intro ts vs rest hread
  obtain ⟨_, us, hopen, hread⟩ := exists_of_bind hread
  rw [array, bind_of_ok hopen]
  obtain ⟨us', us'', hget, hread⟩ := exists_of_bind hread
  rw [bind_of_ok hget]
  split at hread
  · cases hread
    rfl
  · exact screens_items h _ hread

/-! ## Records -/

section Record

variable {fault : σ → Option Fault} {fields outline : List (Field σ)}

/-- The fields of the two lists have the same names, and those of the first look for faults
in what those of the second read into a record without any. -/
def Pairs (fault : σ → Option Fault) : List (Field σ) → List (Field σ) → Prop :=
  List.Forall₂ fun f o => f.name = o.name ∧
    ∀ s, fault s = none → Screens fault (f.read s) (o.read s)

/-- Only the field of this name changes what is wrong with the record. -/
def Confined (fault : σ → Option Fault) (name : String) (outline : List (Field σ)) : Prop :=
  ∀ o ∈ outline, o.name ≠ name → ∀ s, Yields (o.read s) fun t => fault t = fault s

namespace Pairs

lemma map_name (h : Pairs fault fields outline) :
    fields.map Field.name = outline.map Field.name := by
  induction h with
  | nil => rfl
  | cons h _ ih => rw [List.map_cons, List.map_cons, h.1, ih]

lemma find?_eq (h : Pairs fault fields outline) (key : String) :
    (outline.find? (·.name == key) = none ∧ fields.find? (·.name == key) = none) ∨
      ∃ o f, outline.find? (·.name == key) = some o ∧ fields.find? (·.name == key) = some f ∧
        ∀ s, fault s = none → Screens fault (f.read s) (o.read s) := by
  induction h with
  | nil => exact .inl ⟨rfl, rfl⟩
  | @cons f o fields outline h _ ih =>
    by_cases hkey : o.name = key
    · exact .inr ⟨o, f, by simp [hkey], by simp [h.1, hkey], h.2⟩
    · have hf : f.name ≠ key := h.1 ▸ hkey
      simpa [hkey, hf] using ih

lemma filter (h : Pairs fault fields outline) (key : String) :
    Pairs fault (fields.filter (·.name != key)) (outline.filter (·.name != key)) := by
  induction h with
  | nil => exact .nil
  | @cons f o fields outline h _ ih =>
    by_cases hkey : o.name = key
    · simpa [h.1, hkey] using ih
    · have hf : f.name ≠ key := h.1 ▸ hkey
      simpa [hkey, hf] using .cons h ih

end Pairs

variable {name : String}

lemma Confined.subset {outline' : List (Field σ)} (h : Confined fault name outline)
    (hsub : outline' ⊆ outline) : Confined fault name outline' := fun o ho => h o (hsub ho)

/-- Where a field has put a fault into the record, the others leave it there. -/
lemma Confined.of_fault {o : Field σ} {s t : σ} {e : Fault} {ts rest : List Token}
    (h : Confined fault name outline) (ho : o ∈ outline) (hs : fault s = none)
    (hread : o.read s ts = .ok (t, rest)) (ht : fault t = some e) :
    ∀ o' ∈ outline, o'.name ≠ o.name →
      ∀ s, fault s = some e → Yields (o'.read s) fun t => fault t = some e := by
  by_cases hname : o.name = name
  · intro o' ho' hne s hs
    rw [hname] at hne
    rw [← hs]
    exact h o' ho' hne s
  · have hkept : fault t = fault s := h o ho hname s hread
    rw [ht, hs] at hkept
    cases hkept

lemma screens_positions (h : Pairs fault fields outline) (hconfined : Confined fault name outline)
    (hnodup : (outline.map Field.name).Nodup) {s : σ} (hs : fault s = none) :
    Screens fault (positions fields s) (positions outline s) := by
  induction h generalizing s with
  | nil => exact screens_self (.of_any fun _ => yields_pure hs)
  | @cons f o fields outline h hrest ih =>
    intro ts u rest hread
    have hread' := h.2 s hs
    cases hrest with
    | nil =>
      rw [positions] at hread ⊢
      obtain ⟨t, us, ht, hread⟩ := exists_of_bind hread
      obtain ⟨_, us', hclose, hread⟩ := exists_of_bind hread
      cases hread
      cases hfault : fault u with
      | none =>
        rw [bind_of_ok (hread'.eq_ok ht hfault), bind_of_ok hclose]
        rfl
      | some e => rw [bind_of_error (hread'.eq_error ht hfault)]
    | cons hnext hrest =>
      rw [positions] at hread ⊢
      · obtain ⟨t, us, ht, hread⟩ := exists_of_bind hread
        obtain ⟨_, us', hcomma, hread⟩ := exists_of_bind hread
        have hsub : Confined fault name (_ :: _) := hconfined.subset (List.subset_cons_self ..)
        obtain ⟨hnew, hnodup⟩ := List.nodup_cons.1 hnodup
        cases hfault : fault t with
        | none =>
          rw [bind_of_ok (hread'.eq_ok ht hfault), bind_of_ok hcomma]
          exact ih hsub hnodup hfault hread
        | some e =>
          -- the fields that come after it leave the fault in its place
          have hu : fault u = some e := by
            refine yields_positions (I := fun t => fault t = some e) ?_ hfault hread
            intro o' ho' s' hs'
            refine hconfined.of_fault (List.mem_cons_self ..) hs ht hfault o'
              (List.mem_cons_of_mem _ ho') ?_ s' hs'
            exact fun hname => hnew (hname ▸ List.mem_map_of_mem ho')
          rw [bind_of_error (hread'.eq_error ht hfault), hu]
      all_goals simp

/-- What follows a member of an object: the next one, or the end of the object. -/
def furtherMembers (known : List String) (lenient : Bool) (n : Nat) (missing : List (Field σ))
    (s : σ) : Reader σ := do
  match ← token with
  | .comma => members known lenient n missing s
  | .closeBrace => if missing.isEmpty then return s else throw .malformed
  | _ => throw .malformed

lemma members_succ (known : List String) (lenient : Bool) (n : Nat) (missing : List (Field σ))
    (s : σ) : members known lenient (n + 1) missing s = (do
      let key ← string
      match missing.find? (·.name == key) with
      | some f => do
        expect .colon
        let s ← f.read s
        furtherMembers known lenient n (missing.filter (·.name != key)) s
      | none =>
        if known.contains key || !lenient then throw .malformed
        else do
          expect .colon
          pass
          furtherMembers known lenient n missing s) := by
  rw [members]
  rfl

lemma yields_furtherMembers {I : σ → Prop} {missing : List (Field σ)} (known : List String)
    (lenient : Bool) (n : Nat) (h : ∀ f ∈ missing, ∀ s, I s → Yields (f.read s) I) {s : σ}
    (hs : I s) : Yields (furtherMembers known lenient n missing s) I := by
  refine .of_any fun t => ?_
  split
  · exact yields_members known lenient n h hs
  · split
    · exact yields_pure hs
    · exact yields_throw _
  · exact yields_throw _

/-- What follows is screened if the members to come are. -/
lemma screens_furtherMembers {known : List String} {lenient : Bool} {n : Nat} {s : σ}
    (h : Pairs fault fields outline) (hs : fault s = none)
    (hmembers : Screens fault (members known lenient n fields s)
      (members known lenient n outline s)) :
    Screens fault (furtherMembers known lenient n fields s)
      (furtherMembers known lenient n outline s) := by
  have hempty : fields.isEmpty = outline.isEmpty := by
    cases h <;> rfl
  intro ts u rest hread
  obtain ⟨t, us, ht, hread⟩ := exists_of_bind hread
  rw [furtherMembers, bind_of_ok ht]
  split at hread
  · exact hmembers hread
  · rw [hempty]
    split at hread
    · next hdone =>
      cases hread
      rw [if_pos hdone, hs]
      rfl
    · cases hread
  · cases hread

lemma screens_members (known : List String) (lenient : Bool) (n : Nat)
    (h : Pairs fault fields outline) (hconfined : Confined fault name outline) {s : σ}
    (hs : fault s = none) :
    Screens fault (members known lenient n fields s) (members known lenient n outline s) := by
  induction n generalizing fields outline s with
  | zero => rintro ts u rest ⟨⟩
  | succ n ih =>
    intro ts u rest hread
    rw [members_succ] at hread ⊢
    obtain ⟨key, us, hkey, hread⟩ := exists_of_bind hread
    rw [bind_of_ok hkey]
    rcases h.find?_eq key with ⟨ho, hf⟩ | ⟨o, f, ho, hf, hscreens⟩
    · -- an unknown member is passed over
      rw [ho] at hread
      rw [hf]
      simp only at hread ⊢
      split at hread
      · cases hread
      · next hknown =>
        obtain ⟨_, us, hcolon, hread⟩ := exists_of_bind hread
        obtain ⟨_, us', hpass, hread⟩ := exists_of_bind hread
        rw [if_neg hknown, bind_of_ok hcolon, bind_of_ok hpass]
        exact screens_furtherMembers h hs (ih h hconfined hs) hread
    · rw [ho] at hread
      rw [hf]
      simp only at hread ⊢
      obtain ⟨_, us, hcolon, hread⟩ := exists_of_bind hread
      obtain ⟨t, us', ht, hread⟩ := exists_of_bind hread
      rw [bind_of_ok hcolon]
      have hsub := List.filter_subset_self (p := (·.name != key)) (l := outline)
      cases hfault : fault t with
      | none =>
        rw [bind_of_ok ((hscreens s hs).eq_ok ht hfault)]
        exact screens_furtherMembers (h.filter key) hfault
          (ih (h.filter key) (hconfined.subset hsub) hfault) hread
      | some e =>
        -- the members that come after it leave the fault in its place
        have hu : fault u = some e := by
          refine yields_furtherMembers (I := fun t => fault t = some e) known lenient n ?_ hfault
            hread
          intro o' ho' s' hs'
          obtain ⟨ho', hname⟩ := List.mem_filter.1 ho'
          have hokey : o.name = key := by simpa using List.find?_some ho
          refine hconfined.of_fault (List.mem_of_find?_eq_some ho) hs ht hfault o' ho' ?_ s' hs'
          rw [hokey]
          simpa using hname
        rw [bind_of_error ((hscreens s hs).eq_error ht hfault), hu]

/-- A record looks for the faults that its fields look for. -/
lemma screens_record (name : String) (lenient : Bool) (h : Pairs fault fields outline)
    (hconfined : Confined fault name outline) (hnodup : (outline.map Field.name).Nodup) {s : σ}
    (hs : fault s = none) :
    Screens fault (record fields lenient s) (record outline lenient s) := by
  have hempty : fields.isEmpty = outline.isEmpty := by
    cases h <;> rfl
  intro ts u rest hread
  obtain ⟨t, us, ht, hread⟩ := exists_of_bind hread
  rw [record, bind_of_ok ht]
  split at hread
  · exact screens_positions h hconfined hnodup hs hread
  · obtain ⟨us', us'', hget, hread⟩ := exists_of_bind hread
    rw [bind_of_ok hget]
    split at hread
    · obtain ⟨_, us, hset, hread⟩ := exists_of_bind hread
      rw [bind_of_ok hset, hempty]
      split at hread
      · next hdone =>
        cases hread
        rw [if_pos hdone, hs]
        rfl
      · cases hread
    · rw [h.map_name]
      exact screens_members _ lenient _ h hconfined hs hread
  · cases hread

end Record

/-! ## Whole texts -/

/-- A text whose shape is right is refused for the fault of the value in it, or the value
is made into what the reader is after. -/
lemma Screens.decode_bind (h : Screens fault r o) {k : α → Reader β} (make : α → Except Fault β)
    (hk : ∀ v ts, k v ts = (make v).map (·, ts)) {text : String} {v : α}
    (hread : decode o text = .ok v) : decode (r >>= k) text = match fault v with
      | none => make v
      | some e => .error e := by
  unfold decode at hread ⊢
  split at hread
  · next w hw =>
    cases hread
    cases hv : fault v with
    | none =>
      rw [bind_of_ok (h.eq_ok hw hv), hk]
      cases make v <;> rfl
    | some e => rw [bind_of_error (h.eq_error hw hv)]
  · cases hread
  · cases hread

end IntWalk.Json.Reader
