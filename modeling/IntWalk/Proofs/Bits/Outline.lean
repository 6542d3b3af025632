import IntWalk.Bits.Text
import IntWalk.Proofs.Json.Reads
import IntWalk.Proofs.Json.Screens

/-!
# The outline of a stored bit set

`Stores text b` says that the parts `b` of a bit set stand in a text, whatever the blanks and
the order of the names are.  The number of digits, the words and the size have 64 bits each;
the head may be any number, there need not be words enough for the digits, and the size need
not be the number of ones.

The reader of bit sets reads the same parts, and stops at digits without a proper place.
-/

namespace IntWalk

open Json

namespace Json.Reader

/-- A number without a sign. -/
def unbounded : Reader Nat := number fun negative n => if negative then none else some n

lemma reads_unbounded (n : Nat) : Reads unbounded [.ofNat n] n := reads_number (if_neg nofun)

/-- A bound on a number is looked at when the number has been read. -/
lemma screens_natural (bound : Nat) :
    Screens (fun n => if n ≤ bound then none else some .malformed) (natural bound) unbounded := by
  intro ts n rest hread
  unfold unbounded number at hread
  split at hread
  · next negative m us =>
    cases negative with
    | true => cases hread
    | false =>
      cases hread
      by_cases hle : n ≤ bound <;> simp [natural, number, hle]
  · cases hread

end Json.Reader

namespace StoredBits

variable {b : StoredBits} {text : String}

/-! ## The shape -/

/-- The fields of a stored head, which may be any number. -/
def headOutline : List (Reader.Field StoredBits) :=
  [⟨"width", fun b => do
      exactly Ones.wordWidth (← Reader.natural 255)
      return b⟩,
    ⟨"index", fun b => do return { b with head := ← Reader.unbounded }⟩]

/-- The fields of the stored digits, after any head. -/
def bitsOutline : List (Reader.Field StoredBits) :=
  [⟨"order", fun b => do
      exactly lowestFirst (← Reader.string)
      return b⟩,
    ⟨"head", fun b => Reader.record headOutline false b⟩,
    ⟨"bits", fun b => do return { b with bits := ← Reader.natural largest }⟩,
    ⟨"data", fun b => do return { b with words := ← Reader.array (Reader.natural largest) }⟩]

/-- The fields of a stored bit set, whether the words hold the digits or not. -/
def fieldsOutline : List (Reader.Field StoredBits) :=
  [⟨"bits", fun b => Reader.record bitsOutline false b⟩,
    ⟨"len", fun b => do return { b with size := ← Reader.natural largest }⟩]

/-- The parts of a stored bit set, which need not make a set. -/
def outline : Reader StoredBits := Reader.record fieldsOutline true ⟨0, 0, [], 0⟩

/-- The parts stand in the text. -/
def Stores (text : String) (b : StoredBits) : Prop := Reader.decode outline text = .ok b

/-- The numbers beside the head have 64 bits. -/
structure Fits (b : StoredBits) : Prop where
  bits : b.bits ≤ largest
  words : ∀ w ∈ b.words, w ≤ largest
  size : b.size ≤ largest

/-- Whatever is read fits, since the fields are bounded. -/
lemma yields_outline : Reader.Yields outline Fits := by
  have hhead : ∀ f ∈ headOutline, ∀ b, Fits b → Reader.Yields (f.read b) Fits := by
    rw [headOutline, List.forall_mem_cons, List.forall_mem_singleton]
    refine ⟨fun b hb => ?_, fun b hb => ?_⟩
    · exact .of_any fun _ => .of_any fun _ => Reader.yields_pure hb
    · exact .of_any fun _ => Reader.yields_pure ⟨hb.bits, hb.words, hb.size⟩
  have hbits : ∀ f ∈ bitsOutline, ∀ b, Fits b → Reader.Yields (f.read b) Fits := by
    rw [bitsOutline, List.forall_mem_cons, List.forall_mem_cons, List.forall_mem_cons,
      List.forall_mem_singleton]
    refine ⟨fun b hb => ?_, fun b hb => ?_, fun b hb => ?_, fun b hb => ?_⟩
    · exact .of_any fun _ => .of_any fun _ => Reader.yields_pure hb
    · exact Reader.yields_record false hhead hb
    · refine (Reader.yields_natural largest).bind fun n hn => Reader.yields_pure ?_
      exact ⟨hn, hb.words, hb.size⟩
    · refine (Reader.yields_array (Reader.yields_natural largest)).bind fun ws hws => ?_
      exact Reader.yields_pure ⟨hb.bits, hws, hb.size⟩
  refine Reader.yields_record true ?_ ⟨Nat.zero_le _, List.forall_mem_nil _, Nat.zero_le _⟩
  rw [fieldsOutline, List.forall_mem_cons, List.forall_mem_singleton]
  refine ⟨fun b hb => Reader.yields_record false hbits hb, fun b hb => ?_⟩
  refine (Reader.yields_natural largest).bind fun n hn => Reader.yields_pure ?_
  exact ⟨hb.bits, hb.words, hn⟩

lemma Stores.fits (h : Stores text b) : Fits b := yields_outline.of_decode h

/-! ## Written parts -/

/-- The tokens of the head. -/
def headTokens (b : StoredBits) : List Token :=
  Token.object [("width", [Token.ofNat Ones.wordWidth]), ("index", [Token.ofNat b.head])]

/-- The tokens of the digits. -/
def bitsTokens (b : StoredBits) : List Token :=
  Token.object
    [("order", [Token.name lowestFirst]), ("head", b.headTokens), ("bits", [Token.ofNat b.bits]),
      ("data", Token.array (b.words.map fun w => [Token.ofNat w]))]

lemma tokens_eq (b : StoredBits) :
    b.tokens = Token.object [("bits", b.bitsTokens), ("len", [Token.ofNat b.size])] := rfl

lemma reads_exactly {α : Type} [DecidableEq α] (v : α) : Reader.Reads (exactly v v) [] () := by
  rw [exactly, if_pos rfl]
  exact Reader.reads_pure ()

lemma reads_head (b : StoredBits) : Reader.Reads (Reader.record headOutline false ⟨0, 0, [], 0⟩)
    b.headTokens ⟨b.head, 0, [], 0⟩ := by
  have hwidth : Reader.Reads (Reader.natural 255) [Token.ofNat Ones.wordWidth] Ones.wordWidth :=
    Reader.reads_natural (by decide)
  exact Reader.reads_record
    (.cons (hwidth.bind ((reads_exactly _).bind (Reader.reads_pure _)))
      (.cons ((Reader.reads_unbounded b.head).map fun n => StoredBits.mk n 0 [] 0) (.nil _)))
    (by decide)

lemma Fits.reads_bits (h : Fits b) : Reader.Reads
    (Reader.record bitsOutline false ⟨0, 0, [], 0⟩) b.bitsTokens ⟨b.head, b.bits, b.words, 0⟩ := by
  have hwords : ∀ w ∈ b.words, Reader.Reads (Reader.natural largest) [Token.ofNat w] w :=
    fun w hw => Reader.reads_natural (h.words w hw)
  have hdata := Reader.reads_array hwords fun w _ => ⟨_, _, rfl, nofun⟩
  have horder := Reader.reads_string lowestFirst
  have hbits := Reader.reads_natural h.bits
  exact Reader.reads_record
    (.cons (horder.bind ((reads_exactly _).bind (Reader.reads_pure _)))
      (.cons b.reads_head
        (.cons (hbits.map fun n => StoredBits.mk b.head n [] 0)
          (.cons (hdata.map fun ws => StoredBits.mk b.head b.bits ws 0) (.nil _)))))
    (by decide)

lemma Fits.reads_tokens (h : Fits b) : Reader.Reads outline b.tokens b := by
  have hsize := Reader.reads_natural h.size
  have hfields : Reader.Fills fieldsOutline [("bits", b.bitsTokens), ("len", [Token.ofNat b.size])]
      ⟨0, 0, [], 0⟩ b :=
    .cons h.reads_bits (.cons (hsize.map fun n => StoredBits.mk b.head b.bits b.words n) (.nil b))
  rw [tokens_eq]
  exact Reader.reads_record hfields (by decide)

lemma recovers_headTokens (b : StoredBits) : Token.Recovers b.headTokens := by
  refine Token.recovers_object ?_
  rw [List.forall_mem_cons, List.forall_mem_singleton]
  exact ⟨Token.recovers_integer _ _, Token.recovers_integer _ _⟩

lemma recovers_bitsTokens (b : StoredBits) : Token.Recovers b.bitsTokens := by
  have hname : Token.Recovers [Token.name lowestFirst] :=
    (Token.mark_name lowestFirst).cons Token.recovers_nil
  have hdata : Token.Recovers (Token.array (b.words.map fun w => [Token.ofNat w])) :=
    Token.recovers_array fun w _ => Token.recovers_integer _ _
  refine Token.recovers_object ?_
  rw [List.forall_mem_cons, List.forall_mem_cons, List.forall_mem_cons, List.forall_mem_singleton]
  exact ⟨hname, recovers_headTokens b, Token.recovers_integer _ _, hdata⟩

lemma recovers_tokens (b : StoredBits) : Token.Recovers b.tokens := by
  rw [tokens_eq]
  refine Token.recovers_object ?_
  rw [List.forall_mem_cons, List.forall_mem_singleton]
  exact ⟨recovers_bitsTokens b, Token.recovers_integer _ _⟩

lemma Fits.stores (h : Fits b) : Stores (Token.text b.tokens) b :=
  h.reads_tokens.decode_text (recovers_tokens b)

/-! ## Looks at the parts -/

/-- The head is a place in a word, and there are words enough for the digits behind it. -/
def Housed (b : StoredBits) : Prop :=
  b.head < Ones.wordWidth ∧ b.head + b.bits ≤ Ones.wordWidth * b.words.length

instance (b : StoredBits) : Decidable b.Housed := inferInstanceAs (Decidable (_ ∧ _))

lemma Housed.head_lt (h : b.Housed) : b.head < Ones.wordWidth := h.1

/-- A head has eight bits. -/
def headFault? (b : StoredBits) : Option Fault := if b.head ≤ 255 then none else some .malformed

/-- What is wrong with the digits by themselves. -/
def fault? (b : StoredBits) : Option Fault := if b.Housed then none else some .malformed

lemma screens_head (h : b.headFault? = none) : Reader.Screens headFault?
    (Reader.record headFields false b) (Reader.record headOutline false b) := by
  refine Reader.screens_record "index" false ?_ ?_ (by decide) h
  · refine .cons ⟨rfl, fun s hs => ?_⟩ (.cons ⟨rfl, fun s _ => ?_⟩ .nil)
    · exact Reader.screens_self (.of_any fun _ => .of_any fun _ => Reader.yields_pure hs)
    · exact (Reader.screens_natural 255).map fun n => rfl
  · rw [Reader.Confined, headOutline, List.forall_mem_cons, List.forall_mem_singleton]
    refine ⟨fun _ s => ?_, fun hname => absurd rfl hname⟩
    exact .of_any fun _ => .of_any fun _ => Reader.yields_pure rfl

lemma screens_bits (h : b.headFault? = none) : Reader.Screens headFault?
    (Reader.record bitsFields false b) (Reader.record bitsOutline false b) := by
  refine Reader.screens_record "head" false ?_ ?_ (by decide) h
  · refine .cons ⟨rfl, fun s hs => ?_⟩ (.cons ⟨rfl, fun s hs => screens_head hs⟩
      (.cons ⟨rfl, fun s hs => ?_⟩ (.cons ⟨rfl, fun s hs => ?_⟩ .nil)))
    · exact Reader.screens_self (.of_any fun _ => .of_any fun _ => Reader.yields_pure hs)
    · exact Reader.screens_self (.of_any fun _ => Reader.yields_pure hs)
    · exact Reader.screens_self (.of_any fun _ => Reader.yields_pure hs)
  · rw [Reader.Confined, bitsOutline, List.forall_mem_cons, List.forall_mem_cons,
      List.forall_mem_cons, List.forall_mem_singleton]
    refine ⟨fun _ s => ?_, fun hname => absurd rfl hname, fun _ s => ?_, fun _ s => ?_⟩
    · exact .of_any fun _ => .of_any fun _ => Reader.yields_pure rfl
    · exact .of_any fun _ => Reader.yields_pure rfl
    · exact .of_any fun _ => Reader.yields_pure rfl

lemma headFault?_of_housed (h : b.Housed) : b.headFault? = none :=
  if_pos (Nat.le_trans (Nat.le_of_lt h.head_lt) (by decide))

/-- The reader looks at the head when it has read it, and at the words after the last digit. -/
lemma screens_fields :
    Reader.Screens fault? (Reader.record fields true ⟨0, 0, [], 0⟩) outline := by
  refine Reader.screens_record "bits" true ?_ ?_ (by decide) (by decide)
  · refine .cons ⟨rfl, fun s hs => ?_⟩ (.cons ⟨rfl, fun s hs => ?_⟩ .nil)
    · have hhead : s.headFault? = none := by
        rw [fault?] at hs
        split at hs
        · next h => exact headFault?_of_housed h
        · cases hs
      refine (screens_bits hhead).check (fun t e ht => ?_) fun t ts _ => ?_
      · rw [headFault?] at ht
        split at ht
        · cases ht
        · next hlarge =>
          cases ht
          exact if_neg fun h => hlarge (Nat.le_trans (Nat.le_of_lt h.head_lt) (by decide))
      · show (if t.Housed then pure t else throw .malformed : Reader StoredBits) ts = _
        by_cases hhoused : t.Housed
        · rw [if_pos hhoused, fault?, if_pos hhoused]
          rfl
        · rw [if_neg hhoused, fault?, if_neg hhoused]
          rfl
    · exact Reader.screens_self (.of_any fun _ => Reader.yields_pure hs)
  · rw [Reader.Confined, fieldsOutline, List.forall_mem_cons, List.forall_mem_singleton]
    refine ⟨fun hname => absurd rfl hname, fun _ s => ?_⟩
    exact .of_any fun _ => Reader.yields_pure rfl

end StoredBits

end IntWalk
