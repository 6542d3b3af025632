import IntWalk.Json.Reader
import IntWalk.Proofs.Json.Recovers

/-!
# What a reader makes of written tokens

`Reads r ts v` says that the reader `r` makes the value `v` of the tokens `ts`, whatever
follows them.  The lemmas below put such facts together as the writer puts tokens
together: the items of a list between brackets, and the fields of a record, in their
order, between braces.  A text is then read back (`Reads.decode_text`).
-/

namespace IntWalk.Json.Reader

variable {α β σ : Type}

/-- The reader makes the value of the tokens and leaves what follows them. -/
def Reads (r : Reader α) (ts : List Token) (v : α) : Prop :=
  ∀ rest, r (ts ++ rest) = .ok (v, rest)

variable {r : Reader α} {ts us : List Token} {v : α} {w : β}

lemma reads_pure (v : α) : Reads (pure v) [] v := fun _ => rfl

lemma Reads.bind {k : α → Reader β} (h : Reads r ts v) (hk : Reads (k v) us w) :
    Reads (r >>= k) (ts ++ us) w := by
  intro rest
  have hfirst := h (us ++ rest)
  rw [List.append_assoc]
  simp only [Bind.bind, StateT.bind, Except.bind, hfirst]
  exact hk rest

/-- The value may be changed on its way. -/
lemma Reads.map (h : Reads r ts v) (f : α → β) :
    Reads (r >>= fun v => pure (f v)) ts (f v) := by
  rw [← List.append_nil ts]
  exact h.bind (reads_pure (f v))

lemma reads_token (t : Token) : Reads token [t] t := fun _ => rfl

lemma reads_expect (t : Token) : Reads (expect t) [t] () := fun _ => if_pos rfl

lemma reads_string (s : String) : Reads string [.name s] s := fun _ => rfl

lemma reads_number {accept : Bool → Nat → Option α} {negative : Bool} {n : Nat}
    (h : accept negative n = some v) : Reads (number accept) [.integer negative n] v := by
  intro rest
  rw [List.singleton_append, number, h]

lemma reads_natural {bound n : Nat} (h : n ≤ bound) : Reads (natural bound) [.ofNat n] n :=
  reads_number (if_pos h)

/-- A value in recovered tokens is read back from the text. -/
lemma Reads.decode_text (h : Reads r ts v) (hts : Token.Recovers ts) :
    decode r (Token.text ts) = .ok v := by
  have hread := h []
  rw [List.append_nil] at hread
  rw [decode, Token.scan_text hts, hread]

/-! ## Lists -/

/-- The tokens do not begin with the end of a list. -/
def Begun (ts : List Token) : Prop := ∃ t us, ts = t :: us ∧ t ≠ .closeBracket

/-- There is a comma between every two items. -/
lemma length_le_intercalate (items : List (List Token)) :
    items.length ≤ (List.intercalate [Token.comma] items).length + 1 := by
  induction items with
  | nil => exact Nat.zero_le 1
  | cons ts items ih =>
    cases items with
    | nil => exact Nat.le_add_left _ _
    | cons us items =>
      rw [List.intercalate_cons_cons, List.length_cons, List.length_append, List.length_append,
        List.length_singleton]
      omega

section Array

variable {item : Reader α} {write : α → List Token}

lemma reads_items {vs : List α} {n : Nat} (hne : vs ≠ []) (hn : vs.length ≤ n)
    (h : ∀ v ∈ vs, Reads item (write v) v) :
    Reads (items item n) (List.intercalate [.comma] (vs.map write) ++ [.closeBracket]) vs := by
  induction vs generalizing n with
  | nil => exact absurd rfl hne
  | cons v vs ih =>
    obtain ⟨hv, hvs⟩ := List.forall_mem_cons.1 h
    obtain ⟨n, rfl⟩ := Nat.exists_eq_add_of_le' (Nat.le_trans (Nat.succ_pos _) hn)
    cases vs with
    | nil =>
      rw [List.map_singleton, List.intercalate_singleton]
      exact hv.bind ((reads_token .closeBracket).bind (reads_pure [v]))
    | cons u vs =>
      rw [List.map_cons, List.map_cons, List.intercalate_cons_cons, List.append_assoc,
        List.append_assoc]
      refine hv.bind ((reads_token .comma).bind ?_)
      exact (ih nofun (Nat.le_of_succ_le_succ hn) hvs).map (v :: ·)

lemma array_of_ne {t : Token} (ht : t ≠ .closeBracket) (ts : List Token) :
    array item (.openBracket :: t :: ts) = items item (t :: ts).length (t :: ts) := by
  cases t with
  | closeBracket => exact absurd rfl ht
  | _ => rfl

lemma reads_array {vs : List α} (h : ∀ v ∈ vs, Reads item (write v) v)
    (hbegun : ∀ v ∈ vs, Begun (write v)) : Reads (array item) (Token.array (vs.map write)) vs := by
  cases vs with
  | nil => exact fun _ => rfl
  | cons v vs =>
    intro rest
    obtain ⟨t, us, hwrite, ht⟩ := hbegun v (List.mem_cons_self ..)
    have hlength := length_le_intercalate ((v :: vs).map write)
    have hitems := fun n hn => reads_items (n := n) (List.cons_ne_nil v vs) hn h rest
    rw [List.length_map] at hlength
    rw [Token.array]
    rw [List.map_cons, hwrite, List.intercalate_cons_cons_left] at hitems hlength ⊢
    simp only [List.cons_append] at hitems ⊢
    rw [array_of_ne ht]
    refine hitems _ ?_
    simp only [List.length_cons, List.length_append] at hlength ⊢
    omega

end Array

/-! ## Records -/

/-- The fields are read one after another, each from the tokens beside its name, and make
the last record of the first. -/
inductive Fills : List (Field σ) → List (String × List Token) → σ → σ → Prop
  | nil (s : σ) : Fills [] [] s s
  | cons {f : Field σ} {fields : List (Field σ)} {ts : List Token}
      {ms : List (String × List Token)} {s t u : σ} :
      Reads (f.read s) ts t → Fills fields ms t u → Fills (f :: fields) ((f.name, ts) :: ms) s u

section Record

variable {fields : List (Field σ)} {ms : List (String × List Token)} {s u : σ}

/-- The tokens of a named item. -/
def named (m : String × List Token) : List Token := .name m.1 :: .colon :: m.2

lemma Fills.length_eq (h : Fills fields ms s u) : ms.length = fields.length := by
  induction h with
  | nil => rfl
  | cons _ _ ih => rw [List.length_cons, ih, List.length_cons]

/-- The first missing field is found by its name, and it alone. -/
lemma find?_cons_self (f : Field σ) (fields : List (Field σ)) :
    (f :: fields).find? (·.name == f.name) = some f := List.find?_cons_of_pos (beq_self_eq_true _)

lemma filter_cons_self {f : Field σ} (h : f.name ∉ fields.map Field.name) :
    (f :: fields).filter (·.name != f.name) = fields := by
  rw [List.filter_cons_of_neg (by simp)]
  refine List.filter_eq_self.2 fun g hg => bne_iff_ne.2 fun e => h ?_
  exact e ▸ List.mem_map_of_mem hg

/-- The first missing field is read, and what comes next decides how it goes on. -/
lemma reads_member {known : List String} {lenient : Bool} {n : Nat} {f : Field σ} {t : σ}
    {more : List Token} (hf : f.name ∉ fields.map Field.name) (hread : Reads (f.read s) ts t)
    (hmore : Reads (token >>= fun next => match next with
      | .comma => members known lenient n fields t
      | .closeBrace => if fields.isEmpty then return t else throw .malformed
      | _ => throw .malformed) more u) :
    Reads (members known lenient (n + 1) (f :: fields) s) (named (f.name, ts) ++ more) u := by
  rw [members]
  refine (reads_string f.name).bind ?_
  extract_lets rest
  simp only [find?_cons_self, filter_cons_self hf]
  exact (reads_expect .colon).bind (hread.bind hmore)

lemma reads_members {known : List String} {lenient : Bool} {n : Nat} (h : Fills fields ms s u)
    (hne : fields ≠ []) (hn : fields.length ≤ n) (hnodup : (fields.map Field.name).Nodup) :
    Reads (members known lenient n fields s)
      (List.intercalate [.comma] (ms.map named) ++ [.closeBrace]) u := by
  induction h generalizing n with
  | nil => exact absurd rfl hne
  | @cons f fields ts ms s t u hread hrest ih =>
    obtain ⟨n, rfl⟩ := Nat.exists_eq_add_of_le' (Nat.le_trans (Nat.succ_pos _) hn)
    obtain ⟨hf, hnodup⟩ := List.nodup_cons.1 hnodup
    cases hrest with
    | nil =>
      rw [List.map_singleton, List.intercalate_singleton]
      exact reads_member hf hread ((reads_token .closeBrace).bind (reads_pure t))
    | cons hread' hrest' =>
      rw [List.map_cons, List.map_cons, List.intercalate_cons_cons, List.append_assoc,
        List.append_assoc]
      refine reads_member hf hread ((reads_token .comma).bind ?_)
      exact ih nofun (Nat.le_of_succ_le_succ hn) hnodup

lemma record_name {lenient : Bool} (key : String) (ts : List Token) :
    record fields lenient s (.openBrace :: .name key :: ts) =
      members (fields.map Field.name) lenient (Token.name key :: ts).length fields s
        (.name key :: ts) := rfl

/-- A record is read from the object that its fields are written into in their order. -/
lemma reads_record {lenient : Bool} (h : Fills fields ms s u)
    (hnodup : (fields.map Field.name).Nodup) :
    Reads (record fields lenient s) (Token.object ms) u := by
  cases h with
  | nil => exact fun _ => rfl
  | @cons f fields ts ms s t u hread hrest =>
    intro rest
    have hlength := length_le_intercalate (((f.name, ts) :: ms).map named)
    have hmembers : ∀ n, (f :: fields).length ≤ n →
        members ((f :: fields).map Field.name) lenient n (f :: fields) s
          (List.intercalate [.comma] (((f.name, ts) :: ms).map named) ++ [.closeBrace] ++ rest) =
            .ok (u, rest) :=
      fun n hn => reads_members (.cons hread hrest) (List.cons_ne_nil f fields) hn hnodup rest
    rw [List.length_map, (Fills.cons hread hrest).length_eq] at hlength
    show record _ _ _ (.openBrace :: (List.intercalate [.comma]
      (((f.name, ts) :: ms).map named) ++ [.closeBrace]) ++ rest) = _
    simp only [List.map_cons, named, List.intercalate_cons_cons_left, List.cons_append]
      at hmembers hlength ⊢
    rw [record_name]
    refine hmembers _ ?_
    simp only [List.length_cons, List.length_append] at hlength ⊢
    omega

end Record

end IntWalk.Json.Reader
