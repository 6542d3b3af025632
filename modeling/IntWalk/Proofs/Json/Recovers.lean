import IntWalk.Json.Scan
import Mathlib.Data.List.Basic
import Mathlib.Tactic.Lemma

/-!
# Written tokens are cut again

Tokens are written one after another without blanks, and `scan` cuts them again where
they were joined.  Only a number could run on into what follows it.  All other tokens are
marks, which begin with a character that does not go on a number; so the tokens of a list
and of an object are recovered if those of the items are.
-/

namespace IntWalk.Json.Token

variable {cs rest : List Char} {t : Token} {ts us : List Token}

/-! ## Strings -/

/-- The piece that the scanner makes of a written character. -/
def pieceOf (c : Char) : Piece := if c.toNat < 32 then .unit c.toNat else .char c

lemma hexUnit?_hexPair {n : Nat} (hn : n < 32) :
    hexUnit? '0' '0' (Nat.digitChar (n / 16)) (Nat.digitChar (n % 16)) = some n := by
  have hall : ∀ n < 32,
      hexUnit? '0' '0' (Nat.digitChar (n / 16)) (Nat.digitChar (n % 16)) = some n := by
    decide
  exact hall n hn

/-- A written character is taken as one piece. -/
lemma scanPieces_escape (c : Char) (cs : List Char) : scanPieces (escape c ++ cs) =
    (scanPieces cs).map fun r => (pieceOf c :: r.1, r.2) := by
  rw [escape]
  split
  · next hc =>
    -- a quote or a backslash, which has a short escape
    have hshort : pieceOf c = .char c ∧ shortEscape? c = some c ∧ c ≠ 'u' := by
      rcases hc with rfl | rfl <;> decide
    obtain ⟨hpiece, hshort, hu⟩ := hshort
    rw [List.cons_append, List.singleton_append, scanPieces, hshort, hpiece]
    · cases scanPieces cs <;> rfl
    · rintro a b d e rest rfl
      exact absurd rfl hu
  · next hc =>
    rw [not_or] at hc
    split
    · next hlt =>
      rw [hexPair, List.append_assoc]
      simp only [List.cons_append, List.nil_append]
      rw [scanPieces, hexUnit?_hexPair hlt, pieceOf, if_pos hlt]
      cases scanPieces cs <;> rfl
    · next hge =>
      rw [List.singleton_append, scanPieces, if_neg (by simp [hc.2, hge]), pieceOf, if_neg hge]
      · exact hc.1
      · rintro a b d e rest rfl
        exact absurd rfl hc.2
      · rintro e rest rfl
        exact absurd rfl hc.2

lemma scanPieces_escaped (s rest : List Char) :
    scanPieces (s.flatMap escape ++ '"' :: rest) = some (s.map pieceOf, rest) := by
  induction s with
  | nil => rfl
  | cons c s ih =>
    rw [List.flatMap_cons, List.append_assoc, scanPieces_escape, ih]
    rfl

/-- A control character spells itself: it is no half of another character. -/
lemma spell_unit {n : Nat} (hn : n < 32) (ps : List Piece) :
    spell (.unit n :: ps) = (spell ps).map (Char.ofNat n :: ·) := by
  have hhigh : isHigh n = false := by
    simp [isHigh]
    omega
  have hlow : isLow n = false := by
    simp [isLow]
    omega
  rcases ps with _ | ⟨_ | m, ps⟩
  · simp [spell, hhigh, hlow]
  · simp [spell, hhigh, hlow]
  · simp [spell, hhigh, hlow]

lemma spell_pieces (s : List Char) : spell (s.map pieceOf) = some s := by
  induction s with
  | nil => rfl
  | cons c s ih =>
    rw [List.map_cons, pieceOf]
    split
    · next hc => rw [spell_unit hc, ih, Option.map_some, Char.ofNat_toNat]
    · rw [spell, ih]
      rfl

/-! ## Numbers -/

/-- The text does not go on a number that stands before it. -/
def Detached (cs : List Char) : Prop :=
  ∀ c ∈ cs.head?, c.isDigit = false ∧ c ≠ '.' ∧ c ≠ 'e' ∧ c ≠ 'E'

lemma detached_nil : Detached [] := by
  rintro c ⟨⟩

namespace Detached

variable (h : Detached rest)
include h

lemma takeWhile : rest.takeWhile Char.isDigit = [] := by
  cases rest with
  | nil => rfl
  | cons c rest =>
    rw [List.takeWhile_cons, (h c rfl).1]
    rfl

lemma dropWhile : rest.dropWhile Char.isDigit = rest := by
  cases rest with
  | nil => rfl
  | cons c rest =>
    rw [List.dropWhile_cons, (h c rfl).1]
    rfl

lemma scanFraction : scanFraction rest = some (false, rest) := by
  fun_cases Token.scanFraction rest with
  | case1 rest => exact absurd rfl (h '.' rfl).2.1
  | case2 rest => exact absurd rfl (h '.' rfl).2.1
  | case3 rest => rfl

lemma scanExponent : scanExponent rest = some (false, rest) := by
  cases rest with
  | nil => rfl
  | cons c rest =>
    obtain ⟨-, -, he, hE⟩ := h c rfl
    rw [Token.scanExponent, if_neg]
    rintro (rfl | rfl)
    · exact he rfl
    · exact hE rfl

end Detached

/-- Only zero begins with zero. -/
lemma head?_toDigits_ne {n : Nat} (hn : 0 < n) : (Nat.toDigits 10 n).head? ≠ some '0' := by
  induction n using Nat.strongRecOn with
  | ind n ih =>
    rcases Nat.lt_or_ge n 10 with hlt | hge
    · have hall : ∀ n < 10, 0 < n → Nat.digitChar n ≠ '0' := by
        decide
      rw [Nat.toDigits_of_lt_base hlt, List.head?_singleton]
      exact fun e => hall n hlt hn (Option.some.inj e)
    · have hhead := ih (n / 10) (by omega) (by omega)
      rw [Nat.toDigits_of_base_le (by omega) hge,
        List.head?_append_of_ne_nil _ Nat.toDigits_ne_nil]
      exact hhead

lemma scanNumber_toDigits (negative : Bool) (n : Nat) (h : Detached rest) :
    scanNumber negative (Nat.toDigits 10 n ++ rest) = some (.integer negative n, rest) := by
  have hdigits : ∀ c ∈ Nat.toDigits 10 n, c.isDigit = true :=
    fun c hc => Nat.isDigit_of_mem_toDigits (by omega) (by omega) hc
  have hwhole : (Nat.toDigits 10 n ++ rest).takeWhile Char.isDigit = Nat.toDigits 10 n := by
    rw [List.takeWhile_append_of_pos hdigits, h.takeWhile, List.append_nil]
  have hafter : (Nat.toDigits 10 n ++ rest).dropWhile Char.isDigit = rest := by
    rw [List.dropWhile_append_of_pos hdigits, h.dropWhile]
  have hlead : ((Nat.toDigits 10 n).isEmpty || (Nat.toDigits 10 n).head? == some '0' &&
      decide (1 < (Nat.toDigits 10 n).length)) = false := by
    rcases Nat.eq_zero_or_pos n with rfl | hn
    · decide
    · rw [beq_false_of_ne (head?_toDigits_ne hn), Bool.false_and, Bool.or_false,
        List.isEmpty_eq_false_iff]
      exact Nat.toDigits_ne_nil
  rw [scanNumber, hwhole, hafter, h.scanFraction]
  simp only [hlead, h.scanExponent, Nat.ofDigitChars_ten_toDigits]
  simp

/-! ## Single tokens -/

lemma scan_cons {c : Char} (hc : isBlank c = false) (h : scanOne c cs = some (t, rest)) :
    scan (c :: cs) = t :: scan rest := by
  rw [scan, hc]
  simp only [Bool.false_eq_true, if_false]
  split
  · next none => rw [h] at none; cases none
  · next some =>
    rw [h] at some
    cases some
    rfl

/-- The token is cut again whatever follows, and it does not go on a number. -/
structure Mark (t : Token) : Prop where
  scan : ∀ rest, scan (t.chars ++ rest) = t :: Token.scan rest
  detached : ∀ rest, Detached (t.chars ++ rest)

/-- A token with a first character of its own that is no part of a number. -/
lemma Mark.of_scanOne {c : Char} {cs : List Char} (hchars : t.chars = c :: cs)
    (hc : isBlank c = false) (hone : ∀ rest, scanOne c (cs ++ rest) = some (t, rest))
    (hdetached : c.isDigit = false ∧ c ≠ '.' ∧ c ≠ 'e' ∧ c ≠ 'E') : Mark t where
  scan rest := by
    rw [hchars, List.cons_append]
    exact scan_cons hc (hone rest)
  detached rest := by
    rw [hchars, List.cons_append]
    rintro _ ⟨⟩
    exact hdetached

lemma mark_openBracket : Mark openBracket := .of_scanOne rfl rfl (fun _ => rfl) (by decide)

lemma mark_closeBracket : Mark closeBracket := .of_scanOne rfl rfl (fun _ => rfl) (by decide)

lemma mark_openBrace : Mark openBrace := .of_scanOne rfl rfl (fun _ => rfl) (by decide)

lemma mark_closeBrace : Mark closeBrace := .of_scanOne rfl rfl (fun _ => rfl) (by decide)

lemma mark_comma : Mark comma := .of_scanOne rfl rfl (fun _ => rfl) (by decide)

lemma mark_colon : Mark colon := .of_scanOne rfl rfl (fun _ => rfl) (by decide)

lemma mark_name (s : String) : Mark (name s) := by
  have hchars : (name s).chars = '"' :: (s.toList.flatMap escape ++ ['"']) := rfl
  refine .of_scanOne hchars rfl (fun rest => ?_) (by decide)
  rw [List.append_assoc, List.singleton_append, scanOne, scanPieces_escaped, Option.map_some,
    spell_pieces, Option.map_some, String.ofList_toList]
  rfl

/-! ## Lists of tokens -/

/-- Written one after another the tokens are cut again, unless what follows goes on a
number. -/
def Recovers (ts : List Token) : Prop :=
  ∀ rest, Detached rest → scan (ts.flatMap chars ++ rest) = ts ++ scan rest

lemma recovers_nil : Recovers [] := fun _ _ => rfl

lemma isBlank_of_isDigit {c : Char} (hc : c.isDigit = true) : isBlank c = false := by
  refine Bool.eq_false_iff.2 fun hblank => ?_
  simp only [isBlank, Bool.or_eq_true, decide_eq_true_eq] at hblank
  rcases hblank with ((rfl | rfl) | rfl) | rfl <;> exact absurd hc (by decide)

/-- A digit begins no token but a number. -/
lemma scanOne_of_isDigit {c : Char} (hc : c.isDigit = true) :
    scanOne c cs = scanNumber false (c :: cs) := by
  have hne : ∀ d : Char, d.isDigit = false → c ≠ d := by
    rintro d hd rfl
    rw [hc] at hd
    cases hd
  fun_cases scanOne c cs with
  | case12 => rfl
  | _ => exact absurd rfl (hne _ rfl)

lemma scan_integer (negative : Bool) (n : Nat) (h : Detached rest) :
    scan ((integer negative n).chars ++ rest) = .integer negative n :: scan rest := by
  have hnumber := scanNumber_toDigits negative n h
  cases negative with
  | true => exact scan_cons rfl hnumber
  | false =>
    obtain ⟨c, cs, hdigits⟩ := List.exists_cons_of_ne_nil (Nat.toDigits_ne_nil (n := n) (b := 10))
    have hc : c.isDigit = true := by
      refine Nat.isDigit_of_mem_toDigits (b := 10) (n := n) (by omega) (by omega) ?_
      rw [hdigits]
      exact List.mem_cons_self ..
    have hchars : (integer false n).chars = c :: cs := hdigits
    rw [hdigits, List.cons_append, ← scanOne_of_isDigit hc] at hnumber
    rw [hchars, List.cons_append]
    exact scan_cons (isBlank_of_isDigit hc) hnumber

lemma recovers_integer (negative : Bool) (n : Nat) : Recovers [.integer negative n] := by
  intro rest h
  rw [List.flatMap_singleton]
  exact scan_integer negative n h

/-- What stands before a mark and what stands after it are recovered apart. -/
lemma Recovers.append (h : Recovers ts) (ht : Mark t) (h' : Recovers us) :
    Recovers (ts ++ t :: us) := by
  intro rest hrest
  rw [List.flatMap_append, List.flatMap_cons, List.append_assoc, List.append_assoc,
    h _ (ht.detached _), ht.scan, h' rest hrest, List.append_assoc]
  rfl

lemma Mark.cons (ht : Mark t) (h : Recovers ts) : Recovers (t :: ts) := recovers_nil.append ht h

/-- Items with commas between them, up to a closing mark. -/
lemma recovers_intercalate {items : List (List Token)} (h : ∀ ts ∈ items, Recovers ts)
    (ht : Mark t) : Recovers (List.intercalate [.comma] items ++ [t]) := by
  induction items with
  | nil => exact ht.cons recovers_nil
  | cons ts items ih =>
    obtain ⟨hts, hitems⟩ := List.forall_mem_cons.1 h
    cases items with
    | nil =>
      rw [List.intercalate_singleton]
      exact hts.append ht recovers_nil
    | cons us items =>
      rw [List.intercalate_cons_cons, List.append_assoc, List.append_assoc]
      exact hts.append mark_comma (ih hitems)

lemma recovers_array {α : Type} {write : α → List Token} {xs : List α}
    (h : ∀ x ∈ xs, Recovers (write x)) : Recovers (array (xs.map write)) := by
  refine mark_openBracket.cons (recovers_intercalate ?_ mark_closeBracket)
  intro ts hts
  obtain ⟨x, hx, rfl⟩ := List.mem_map.1 hts
  exact h x hx

lemma recovers_object {members : List (String × List Token)}
    (h : ∀ m ∈ members, Recovers m.2) : Recovers (object members) := by
  refine mark_openBrace.cons (recovers_intercalate ?_ mark_closeBrace)
  intro ts hts
  obtain ⟨m, hm, rfl⟩ := List.mem_map.1 hts
  exact (mark_name m.1).cons (mark_colon.cons (h m hm))

/-- The tokens in the text of recovered tokens are these again. -/
lemma scan_text (h : Recovers ts) : scan (text ts).toList = ts := by
  have htext := h [] detached_nil
  rw [List.append_nil] at htext
  rw [text, String.toList_ofList, htext, scan, List.append_nil]

end IntWalk.Json.Token
