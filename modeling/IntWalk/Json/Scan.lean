import IntWalk.Json.Token
import IntWalk.Text.Numeral

/-!
# Cutting text into tokens

`Token.scan` cuts text into tokens and drops the blanks between them.  Where the
text stops being JSON the list ends with one `junk` token, so what stands before
the fault can still be read.
-/

namespace IntWalk.Json.Token

/-- A blank between tokens. -/
def isBlank (c : Char) : Bool := c = ' ' || c = '\t' || c = '\n' || c = '\r'

/-! ## Strings -/

/-- A piece of a string as it is written. -/
inductive Piece where
  /-- A character, written as itself or by a short escape. -/
  | char (c : Char)
  /-- A code unit of 16 bits, written in hexadecimal digits. -/
  | unit (n : Nat)
deriving DecidableEq, Repr

/-- The value of four hexadecimal digits. -/
def hexUnit? (a b c d : Char) : Option Nat := do
  pure (((← Text.hexDigit? a) * 16 + (← Text.hexDigit? b)) * 256 + (← Text.hexDigit? c) * 16 + (← Text.hexDigit? d))

/-- The character that a short escape stands for. -/
def shortEscape? : Char → Option Char
  | '"' => some '"'
  | '\\' => some '\\'
  | '/' => some '/'
  | 'b' => some '\x08'
  | 'f' => some '\x0c'
  | 'n' => some '\n'
  | 'r' => some '\r'
  | 't' => some '\t'
  | _ => none

/-- The pieces up to the closing quote, and what follows it. -/
def scanPieces : List Char → Option (List Piece × List Char)
  | [] => none
  | '"' :: rest => some ([], rest)
  | '\\' :: 'u' :: a :: b :: c :: d :: rest =>
    match hexUnit? a b c d, scanPieces rest with
    | some n, some (ps, after) => some (.unit n :: ps, after)
    | _, _ => none
  | '\\' :: e :: rest =>
    match shortEscape? e, scanPieces rest with
    | some c, some (ps, after) => some (.char c :: ps, after)
    | _, _ => none
  | c :: rest =>
    if c = '\\' ∨ c.toNat < 32 then none
    else (scanPieces rest).map fun r => (.char c :: r.1, r.2)

/-- Whether the code unit is the first half of a character. -/
def isHigh (n : Nat) : Bool := 0xD800 ≤ n && n < 0xDC00

/-- Whether the code unit is the second half of a character. -/
def isLow (n : Nat) : Bool := 0xDC00 ≤ n && n < 0xE000

/-- The characters that the pieces spell.  Two halves of a character must follow
each other. -/
def spell : List Piece → Option (List Char)
  | [] => some []
  | .char c :: rest => (spell rest).map (c :: ·)
  | .unit m :: .unit n :: rest =>
    if isHigh m then
      if isLow n then
        (spell rest).map (Char.ofNat (0x10000 + (m - 0xD800) * 0x400 + (n - 0xDC00)) :: ·)
      else none
    else if isLow m then none
    else (spell (.unit n :: rest)).map (Char.ofNat m :: ·)
  | .unit m :: rest =>
    if isHigh m || isLow m then none else (spell rest).map (Char.ofNat m :: ·)

/-! ## Numbers -/

/-- Passes a fraction, if there is one, and says whether there was. -/
def scanFraction : List Char → Option (Bool × List Char)
  | '.' :: rest =>
    if (rest.takeWhile Char.isDigit).isEmpty then none
    else some (true, rest.dropWhile Char.isDigit)
  | rest => some (false, rest)

/-- Passes a sign, if there is one. -/
def dropSign : List Char → List Char
  | '+' :: rest => rest
  | '-' :: rest => rest
  | rest => rest

/-- Passes an exponent, if there is one, and says whether there was. -/
def scanExponent : List Char → Option (Bool × List Char)
  | [] => some (false, [])
  | c :: rest =>
    if c = 'e' ∨ c = 'E' then
      let digits := dropSign rest
      if (digits.takeWhile Char.isDigit).isEmpty then none
      else some (true, digits.dropWhile Char.isDigit)
    else some (false, c :: rest)

/-- A number after its sign, and what follows it.  No digit follows a leading zero. -/
def scanNumber (negative : Bool) (cs : List Char) : Option (Token × List Char) :=
  let whole := cs.takeWhile Char.isDigit
  if whole.isEmpty || (whole.head? == some '0' && 1 < whole.length) then none
  else
    match scanFraction (cs.dropWhile Char.isDigit) with
    | none => none
    | some (fraction, rest) =>
      match scanExponent rest with
      | none => none
      | some (exponent, after) =>
        let number := .integer negative (Nat.ofDigitChars 10 whole 0)
        some (if fraction || exponent then .decimal else number, after)

/-! ## Tokens -/

/-- The token that begins with the character, and what follows it. -/
def scanOne : Char → List Char → Option (Token × List Char)
  | '[', rest => some (.openBracket, rest)
  | ']', rest => some (.closeBracket, rest)
  | '\x7b', rest => some (.openBrace, rest)
  | '\x7d', rest => some (.closeBrace, rest)
  | ',', rest => some (.comma, rest)
  | ':', rest => some (.colon, rest)
  | '"', rest => (scanPieces rest).map fun r => (.string ((spell r.1).map String.ofList), r.2)
  | 't', 'r' :: 'u' :: 'e' :: rest => some (.word, rest)
  | 'f', 'a' :: 'l' :: 's' :: 'e' :: rest => some (.word, rest)
  | 'n', 'u' :: 'l' :: 'l' :: rest => some (.word, rest)
  | '-', rest => scanNumber true rest
  | c, rest => scanNumber false (c :: rest)

theorem length_scanPieces {cs after : List Char} {ps : List Piece}
    (h : scanPieces cs = some (ps, after)) : after.length ≤ cs.length := by
  fun_induction scanPieces cs generalizing ps after with
  | case1 => simp at h
  | case2 rest => simp_all
  | case3 a b c d rest n r ps' hn hr ih => simp_all; omega
  | case4 => simp_all
  | case5 => simp_all; omega
  | case6 => simp_all
  | case7 => simp_all
  | case8 =>
    rename_i ih
    obtain ⟨⟨ps', r⟩, hr, e⟩ := Option.map_eq_some_iff.1 h
    have := ih hr
    simp only [Prod.mk.injEq] at e
    simp only [← e.2, List.length_cons]
    omega

theorem length_dropWhile_le (p : Char → Bool) (cs : List Char) :
    (cs.dropWhile p).length ≤ cs.length := (List.dropWhile_sublist p).length_le

theorem length_scanFraction {cs after : List Char} {b : Bool}
    (h : scanFraction cs = some (b, after)) : after.length ≤ cs.length := by
  unfold scanFraction at h
  split at h
  · next rest =>
    split at h
    · simp at h
    · have := length_dropWhile_le Char.isDigit rest
      simp_all
      omega
  · simp_all

theorem length_dropSign (cs : List Char) : (dropSign cs).length ≤ cs.length := by
  unfold dropSign
  split <;> simp

theorem length_scanExponent {cs after : List Char} {b : Bool}
    (h : scanExponent cs = some (b, after)) : after.length ≤ cs.length := by
  unfold scanExponent at h
  split at h
  · simp_all
  · next c rest =>
    split at h
    · have := length_dropWhile_le Char.isDigit (dropSign rest)
      have := length_dropSign rest
      simp_all
      omega
    · simp_all

theorem length_scanNumber {cs after : List Char} {negative : Bool} {t : Token}
    (h : scanNumber negative cs = some (t, after)) : after.length < cs.length := by
  unfold scanNumber at h
  simp only at h
  split at h
  · simp at h
  · next hw =>
    split at h
    · simp at h
    · next fraction rest hf =>
      split at h
      · simp at h
      · next exponent after' he =>
        have cut : (cs.takeWhile Char.isDigit).length + (cs.dropWhile Char.isDigit).length =
            cs.length := by
          rw [← List.length_append, List.takeWhile_append_dropWhile]
        have digits : 0 < (cs.takeWhile Char.isDigit).length := by
          refine List.length_pos_iff.2 fun e => ?_
          simp [e] at hw
        have := length_scanFraction hf
        have := length_scanExponent he
        simp at h
        rw [← h.2]
        omega

theorem length_scanOne {c : Char} {cs after : List Char} {t : Token}
    (h : scanOne c cs = some (t, after)) : after.length ≤ cs.length := by
  unfold scanOne at h
  split at h
  case h_7 rest =>
    obtain ⟨⟨ps, r⟩, hr, e⟩ := Option.map_eq_some_iff.1 h
    simp only [Prod.mk.injEq] at e
    exact e.2 ▸ length_scanPieces hr
  case h_8 | h_9 | h_10 =>
    simp only [Option.some.injEq, Prod.mk.injEq] at h
    simp only [← h.2, List.length_cons]
    omega
  case h_11 => exact Nat.le_of_lt (length_scanNumber h)
  case h_12 => exact Nat.le_of_lt_succ (length_scanNumber h)
  all_goals
    simp only [Option.some.injEq, Prod.mk.injEq] at h
    exact Nat.le_of_eq (by rw [h.2])

/-- The tokens of the text, up to its end or to the first place where it is no JSON. -/
def scan : List Char → List Token
  | [] => []
  | c :: cs =>
    if isBlank c then scan cs
    else
      match _one : scanOne c cs with
      | none => [.junk]
      | some (t, after) => t :: scan after
termination_by cs => cs.length
decreasing_by
  · simp
  · have := length_scanOne _one
    simp only [List.length_cons]
    omega

end IntWalk.Json.Token
