import IntWalk.Proofs.Bits.Text
import Mathlib

/-!
# Stored words

Parts of a bit set that stand in a text make a set exactly if they are housed and the size is
the number of ones among the digits.  The set has these digits for its members, and nothing
else of the words: a one before the head or behind the last digit is not in it, and no later
text of the set shows such a one again.
-/

namespace IntWalk

open Json

namespace StoredBits

variable {b c : StoredBits} {text : String}

/-- The digit of a value, which lies as far behind the head. -/
def digit (b : StoredBits) (v : Nat) : Bool := Ones.digit b.words (b.head + v)

/-- How many of the digits are one. -/
def population (b : StoredBits) : Nat := (List.range b.bits).countP b.digit

lemma below_mask (b : StoredBits) : Ones.Below b.mask b.bits := Ones.below_truncate _ _

lemma Fits.testBit_mask (h : Fits b) (v : Nat) :
    b.mask.testBit v = (decide (v < b.bits) && b.digit v) := by
  have hwords : ∀ w ∈ b.words, w < 1 <<< Ones.wordWidth :=
    fun w hw => Nat.lt_of_le_of_lt (h.words w hw) (by decide)
  rw [mask, Ones.testBit_truncate, Nat.testBit_shiftRight, Ones.testBit_ofWords hwords, digit]

lemma Fits.count_mask (h : Fits b) : Ones.count b.mask = b.population := by
  rw [Ones.count_eq_countP b.below_mask, population]
  refine List.countP_congr fun v hv => ?_
  rw [h.testBit_mask, decide_eq_true (List.mem_range.1 hv), Bool.true_and]

end StoredBits

namespace BitSet

open StoredBits

variable {s : BitSet} {b c : StoredBits} {text : String}

/-! ## Looks at the parts in a text -/

lemma decode_eq (h : Stores text b) : decode text =
    if b.Housed then b.toBitSet.mapError .inconsistent else .error .malformed := by
  refine (screens_fields.decode_bind (fun b => b.toBitSet.mapError .inconsistent)
    (fun b ts => ?_) h).trans ?_
  · cases b.toBitSet <;> rfl
  · by_cases hb : b.Housed <;> simp [fault?, hb]

lemma decode_of_not_housed (h : Stores text b) (hb : ¬ b.Housed) :
    decode text = .error .malformed := by
  rw [decode_eq h, if_neg hb]

lemma decode_of_size_ne (h : Stores text b) (hb : b.Housed) (hsize : b.size ≠ b.population) :
    decode text = .error (.inconsistent (.sizeMismatch b.size b.population)) := by
  rw [decode_eq h, if_pos hb, toBitSet, h.fits.count_mask, if_neg hsize]
  rfl

/-- The set of the digits, which counts them without a look. -/
def ofHoused (b : StoredBits) (h : b.Housed) : BitSet :=
  ⟨b.bits, ⟨b.head, h.head_lt⟩, b.mask, b.size, b.below_mask⟩

lemma decode_of_size_eq (h : Stores text b) (hb : b.Housed) (hsize : b.size = b.population) :
    decode text = .ok (ofHoused b hb) := by
  rw [decode_eq h, if_pos hb, toBitSet, h.fits.count_mask, if_pos hsize]
  exact congrArg Except.ok (eq_of_parts rfl (Fin.ext (Nat.mod_eq_of_lt hb.head_lt)) rfl rfl)

lemma exists_decode_eq_ok_iff (h : Stores text b) :
    (∃ s, decode text = .ok s) ↔ b.Housed ∧ b.size = b.population := by
  constructor
  · rintro ⟨s, hs⟩
    by_cases hb : b.Housed
    · by_cases hsize : b.size = b.population
      · exact ⟨hb, hsize⟩
      · rw [decode_of_size_ne h hb hsize] at hs
        cases hs
    · rw [decode_of_not_housed h hb] at hs
      cases hs
  · rintro ⟨hb, hsize⟩
    exact ⟨_, decode_of_size_eq h hb hsize⟩

/-! ## Words written again -/

/-- How many words the digits behind the head take. -/
lemma length_words_stored (s : BitSet) :
    s.stored.words.length = (s.head + s.capacity + 63) / 64 := Ones.length_words _ _

lemma lt_of_mem_words_stored {w : Nat} (hw : w ∈ s.stored.words) : w < 2 ^ 64 :=
  Ones.lt_of_mem_words hw

/-- The digit of a value lies behind the head, and there is no one that is not such a digit. -/
lemma digit_words_stored (s : BitSet) (i : Nat) :
    Ones.digit s.stored.words i = (decide (s.head ≤ i) && s.contains (i - s.head)) := by
  rw [stored, Ones.digit_words, Nat.testBit_shiftLeft, contains]
  cases hi : s.mask.testBit (i - s.head) with
  | false => simp
  | true =>
    have hlt : i - s.head < s.capacity := s.within _ hi
    by_cases hle : s.head.val ≤ i
    · have hroom : i < Ones.wordWidth *
          ((s.head.val + s.capacity + (Ones.wordWidth - 1)) / Ones.wordWidth) := by
        rw [Ones.wordWidth]
        omega
      simp [hle, hlt, hroom]
    · simp [hle]

/-- What a set keeps of the parts that it was read from. -/
structure Keeps (s : BitSet) (b : StoredBits) : Prop where
  capacity : s.capacity = b.bits
  size : s.size = b.size
  contains : ∀ v, s.contains v = (decide (v < b.bits) && b.digit v)
  rewritten : ∃ ws, s.encode = Token.text (StoredBits.tokens ⟨b.head, b.bits, ws, b.size⟩) ∧
    ws.length = (b.head + b.bits + 63) / 64 ∧ (∀ w ∈ ws, w < 2 ^ 64) ∧
    ∀ i, Ones.digit ws i =
      (decide (b.head ≤ i ∧ i < b.head + b.bits) && Ones.digit b.words i)

lemma keeps_of_decode (h : Stores text b) (hs : decode text = .ok s) : Keeps s b := by
  obtain ⟨hb, hsize⟩ := (exists_decode_eq_ok_iff h).1 ⟨s, hs⟩
  rw [decode_of_size_eq h hb hsize] at hs
  obtain rfl := Except.ok.inj hs
  have hcontains : ∀ v, (ofHoused b hb).contains v = (decide (v < b.bits) && b.digit v) := by
    intro v
    have hdigit := h.fits.testBit_mask v
    rw [contains, ofHoused, hdigit, ← Bool.and_assoc, Bool.and_self]
  refine ⟨rfl, rfl, hcontains, (ofHoused b hb).stored.words, rfl, length_words_stored _,
    fun w => lt_of_mem_words_stored, fun i => ?_⟩
  have hhead : (ofHoused b hb).head.val = b.head := rfl
  rw [digit_words_stored, hcontains, hhead, StoredBits.digit]
  by_cases hle : b.head ≤ i
  · have hlt : i - b.head < b.bits ↔ i < b.head + b.bits := by omega
    simp [hle, hlt]
  · simp [hle]

/-! ## Other words with the same digits -/

lemma decode_eq_of_digit_eq {text' : String} (h : Stores text b) (h' : Stores text' c)
    (hb : b.Housed) (hc : c.Housed) (hhead : c.head = b.head) (hbits : c.bits = b.bits)
    (hsize : c.size = b.size) (hdigit : ∀ v < b.bits, c.digit v = b.digit v) :
    decode text' = decode text := by
  have hpopulation : c.population = b.population := by
    rw [population, population, hbits]
    exact List.countP_congr fun v hv => by rw [hdigit v (List.mem_range.1 hv)]
  have hmask : c.mask = b.mask := by
    refine Nat.eq_of_testBit_eq fun v => ?_
    rw [h'.fits.testBit_mask, h.fits.testBit_mask, hbits]
    by_cases hv : v < b.bits
    · rw [hdigit v hv]
    · simp [hv]
  by_cases hcounted : b.size = b.population
  · rw [decode_of_size_eq h hb hcounted,
      decode_of_size_eq h' hc (hsize.trans (hcounted.trans hpopulation.symm))]
    exact congrArg Except.ok (eq_of_parts hbits (Fin.ext hhead) hmask hsize)
  · have hcounted' : c.size ≠ c.population := by rwa [hsize, hpopulation]
    rw [decode_of_size_ne h hb hcounted, decode_of_size_ne h' hc hcounted', hsize, hpopulation]

/-- Any parts whose numbers fit can be stored.  They are read as a set exactly if they are
housed and counted; parts that are not housed are malformed, and a wrong size is named
together with the number of ones, also in the words of the error.  The set keeps the digits, and
where other words have the same digits behind the same head, the same is read from them. -/
theorem decode_eq_or_refused :
    (∀ b : StoredBits, b.Fits → Stores (Token.text b.tokens) b) ∧
    ∀ text (b : StoredBits), Stores text b →
      ((∃ s, decode text = .ok s) ↔ b.Housed ∧ b.size = b.population) ∧
      (¬ b.Housed → decode text = .error .malformed) ∧
      (b.Housed → b.size ≠ b.population →
        decode text = .error (.inconsistent (.sizeMismatch b.size b.population)) ∧
          (StoreError.inconsistent (.sizeMismatch b.size b.population)).message =
            "inconsistent collection state: " ++
              s!"bit set length {b.size} does not match population {b.population}") ∧
      (∀ s, decode text = .ok s → Keeps s b) ∧
      ∀ text' (c : StoredBits), Stores text' c → b.Housed → c.Housed →
        c.head = b.head → c.bits = b.bits → c.size = b.size →
        (∀ v < b.bits, c.digit v = b.digit v) → decode text' = decode text := by
  refine ⟨fun b hb => hb.stores, fun text b h => ⟨exists_decode_eq_ok_iff h, ?_, ?_, ?_, ?_⟩⟩
  · exact decode_of_not_housed h
  · exact fun hb hsize => ⟨decode_of_size_ne h hb hsize, rfl⟩
  · exact fun s => keeps_of_decode h
  · exact fun text' c h' => decode_eq_of_digit_eq h h'

/-- Three digits across two words, with other ones around them and a word to spare; the same
digits without these; a size that is too large; and a digit more than the words have. -/
theorem decode_eq_or_refused_across_words :
    let clean : StoredBits := ⟨62, 3, [4611686018427387904, 1], 2⟩
    let counted : StoredBits := ⟨62, 3, [4611686018427387909, 1025], 3⟩
    let long : StoredBits := ⟨62, 67, [4611686018427387909, 1025], 3⟩
    (∃ s, decode ("\x7b\"len\":2,\"bits\":\x7b\"bits\":3,\"head\":\x7b\"width\":64," ++
        "\"index\":62\x7d,\"order\":\"bitvec::order::Lsb0\"," ++
        "\"data\":[4611686018427387909, 1025, 7]\x7d\x7d") = .ok s ∧
      decode (Token.text clean.tokens) = .ok s ∧ Keeps s clean ∧
      s.contains 2 = true ∧ s.contains 1 = false) ∧
      decode (Token.text counted.tokens) = .error (.inconsistent (.sizeMismatch 3 2)) ∧
      decode (Token.text long.tokens) = .error .malformed := by
  intro clean counted long
  obtain ⟨hstores, hread⟩ := decode_eq_or_refused
  have hclean := hstores clean ⟨by decide, by decide, by decide⟩
  refine ⟨?_, ?_, ?_⟩
  · have htext : Stores ("\x7b\"len\":2,\"bits\":\x7b\"bits\":3,\"head\":\x7b\"width\":64," ++
        "\"index\":62\x7d,\"order\":\"bitvec::order::Lsb0\"," ++
        "\"data\":[4611686018427387909, 1025, 7]\x7d\x7d")
        ⟨62, 3, [4611686018427387909, 1025, 7], 2⟩ := by cbv
    obtain ⟨hok, -, -, -, hother⟩ := hread _ _ htext
    obtain ⟨s, hs⟩ := hok.2 (by decide +kernel)
    have hsame := hother _ _ hclean (by decide) (by decide) rfl rfl rfl (by decide +kernel)
    rw [hs] at hsame
    have hkeeps := (hread _ _ hclean).2.2.2.1 s hsame
    refine ⟨s, hs, hsame, hkeeps, ?_, ?_⟩
    · rw [hkeeps.contains]
      decide +kernel
    · rw [hkeeps.contains]
      decide +kernel
  · have hcounted := hstores counted ⟨by decide, by decide, by decide⟩
    have hcount : counted.population = 2 := by decide +kernel
    rw [((hread _ _ hcounted).2.2.1 (by decide) (by rw [hcount]; decide)).1, hcount]
  · have hlong := hstores long ⟨by decide, by decide, by decide⟩
    exact (hread _ _ hlong).2.1 (by decide)

end BitSet

end IntWalk
