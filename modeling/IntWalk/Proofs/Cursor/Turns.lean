import IntWalk.Proofs.Cursor.Stateful
import IntWalk.Proofs.Cursor.Trace
import Mathlib.Data.List.Chain

/-!
# Calls in turn

The loops over a cursor ask before they take, take before they remove, and stop at the first
answer that is no or a failure (`InTurn`).  This holds of every cursor, however its answers hang
together, and it fixes what filtering (`Filters`), skipping (`Skips`) and reading one value
(`Reads`) come to: they say what the calls that they made were told.

A loop over a cursor recurses on a bound that the cursor has.  Three calls that answer as they
like (`Oracle`) have none; they become a cursor once the elements announced are limited
(`Limited`).  Up to the limit all answers are still theirs, so that nothing is said about bounded
cursors alone.
-/

namespace IntWalk

open Cursor

variable {α : Type}

/-- After the one reply the call that had the other one may be made. -/
inductive Reply.Admits : Reply α → Reply α → Prop
  | next (r : Except WalkError α) : Admits (.flag true) (.given r)
  | remove (v : α) (r : Except WalkError Unit) : Admits (.given (.ok v)) (.gone r)
  | pass (v : α) (b : Bool) : Admits (.given (.ok v)) (.flag b)
  | goOn (u : Unit) (b : Bool) : Admits (.gone (.ok u)) (.flag b)

/-- The calls begin with a question, and each of them may be made after the one before. -/
structure InTurn (rs : List (Reply α)) : Prop where
  first : ∀ r ∈ rs.head?, ∃ b, r = .flag b
  admitted : rs.IsChain Reply.Admits

/-- Whether the reply is to a removal that was made. -/
def Reply.isRemoval : Reply α → Bool
  | .gone (.ok _) => true
  | _ => false

/-- What filtering comes to by the replies to its calls, where the elements `asked` were met
before, the latest first, and `removed` of them removed. -/
structure Filters (choose : Chooser α) (asked : List α) (removed : Nat) (rs : List (Reply α))
    (out : Sweep α) : Prop where
  inTurn : InTurn rs
  asks : out.asked = asked.reverse ++ givenOut rs
  chosen : ∀ early v late, rs = early ++ .given (.ok v) :: late →
    (choose ((givenOut early).reverse ++ asked) v = true ↔ ∃ r rest, late = .gone r :: rest)
  done : ∀ k, out.removed = .ok k ↔
    rs.getLast? = some (.flag false) ∧ k = removed + rs.countP Reply.isRemoval
  stopped : ∀ e, out.removed = .error e ↔
    rs.getLast? = some (.given (.error e)) ∨ rs.getLast? = some (.gone (.error e))

/-- What skipping up to `n` elements comes to by the replies to its calls. -/
structure Skips (n : Nat) (rs : List (Reply α)) (skipped : Nat) : Prop where
  inTurn : InTurn rs
  removesNothing : ∀ r, .gone r ∉ rs
  counts : skipped = (givenOut rs).length
  le : skipped ≤ n
  done : ∀ early late, rs = early ++ late → (givenOut early).length = n → late = []
  stopped : skipped < n →
    rs.getLast? = some (.flag false) ∨ ∃ e, rs.getLast? = some (.given (.error e))

/-- What reading one value comes to by the replies to its calls. -/
inductive Reads : List (Reply α) → Option α → Prop
  | ended : Reads [.flag false] none
  | answered (r : Except WalkError α) : Reads [.flag true, .given r] r.toOption

/-! ## One more round -/

variable {choose : Chooser α} {asked : List α} {removed n k : Nat} {rs : List (Reply α)}
variable {out : Sweep α} {v : α}

namespace InTurn

lemma nil : InTurn ([] : List (Reply α)) := ⟨nofun, .nil⟩

lemma ended (b : Bool) : InTurn [.flag b (α := α)] := ⟨by simp, .singleton _⟩

lemma answered (r : Except WalkError α) : InTurn [.flag true, .given r] :=
  ⟨by simp, .cons_cons (.next r) (.singleton _)⟩

lemma takenOut (v : α) (r : Except WalkError Unit) :
    InTurn [.flag true, .given (.ok v), .gone r] :=
  ⟨by simp, .cons_cons (.next _) (.cons_cons (.remove v r) (.singleton _))⟩

variable (h : InTurn rs)
include h

lemma cons_pass (v : α) : InTurn (.flag true :: .given (.ok v) :: rs) := by
  have hrest : (Reply.given (.ok v) :: rs).IsChain Reply.Admits := by
    refine h.admitted.cons fun r hr => ?_
    obtain ⟨b, rfl⟩ := h.first r hr
    exact .pass v b
  exact ⟨by simp, .cons_cons (.next _) hrest⟩

lemma cons_goOn (v : α) : InTurn (.flag true :: .given (.ok v) :: .gone (.ok ()) :: rs) := by
  have hrest : (Reply.gone (.ok ()) :: rs).IsChain Reply.Admits := by
    refine h.admitted.cons fun r hr => ?_
    obtain ⟨b, rfl⟩ := h.first r hr
    exact .goOn () b
  exact ⟨by simp, .cons_cons (.next _) (.cons_cons (.remove v _) hrest)⟩

end InTurn

namespace Filters

lemma ended : Filters choose asked removed [.flag false] ⟨.ok removed, asked.reverse⟩ where
  inTurn := InTurn.ended false
  asks := (List.append_nil _).symm
  chosen early v late h := by
    rcases early with _ | ⟨r₁, _ | ⟨r₂, early⟩⟩ <;> simp at h
  done k := by simp [Reply.isRemoval, eq_comm]
  stopped e := by simp

lemma unanswered (e : WalkError) :
    Filters choose asked removed [.flag true, .given (.error e)] ⟨.error e, asked.reverse⟩ where
  inTurn := InTurn.answered _
  asks := (List.append_nil _).symm
  chosen early v late h := by
    rcases early with _ | ⟨r₁, _ | ⟨r₂, _ | ⟨r₃, early⟩⟩⟩ <;> simp at h
  done k := by simp
  stopped e' := by simp

lemma refused (e : WalkError) (hv : choose asked v = true) :
    Filters choose asked removed [.flag true, .given (.ok v), .gone (.error e)]
      ⟨.error e, (v :: asked).reverse⟩ where
  inTurn := InTurn.takenOut v _
  asks := by simp
  chosen early v' late h := by
    rcases early with _ | ⟨r₁, _ | ⟨r₂, _ | ⟨r₃, early⟩⟩⟩
    · cases h
    · cases h
      simpa using hv
    · cases h
    · simp at h
  done k := by simp
  stopped e' := by simp

lemma ne_nil (h : Filters choose asked removed rs out) : rs ≠ [] := by
  rintro rfl
  cases hout : out.removed with
  | ok k => simpa using (h.done k).1 hout
  | error e => simpa using (h.stopped e).1 hout

lemma pass (h : Filters choose (v :: asked) removed rs out) (hv : choose asked v ≠ true) :
    Filters choose asked removed (.flag true :: .given (.ok v) :: rs) out := by
  obtain ⟨r, rest, rfl⟩ := List.exists_cons_of_ne_nil h.ne_nil
  refine ⟨h.inTurn.cons_pass v, ?_, ?_, ?_, ?_⟩
  · simpa using h.asks
  · intro early v' late hrs
    rcases early with _ | ⟨r₁, _ | ⟨r₂, early⟩⟩
    · cases hrs
    · -- the element passed over: the next call is a question
      cases hrs
      obtain ⟨b, rfl⟩ := h.inTurn.first r rfl
      simpa using hv
    · obtain ⟨rfl, rfl, hrest⟩ : .flag true = r₁ ∧ .given (.ok v) = r₂ ∧
          r :: rest = early ++ .given (.ok v') :: late := by simpa using hrs
      simpa using h.chosen early v' late hrest
  · simpa [Reply.isRemoval] using h.done
  · simpa using h.stopped

lemma takeOut (h : Filters choose (v :: asked) (removed + 1) rs out) (hv : choose asked v = true) :
    Filters choose asked removed (.flag true :: .given (.ok v) :: .gone (.ok ()) :: rs) out := by
  obtain ⟨r, rest, rfl⟩ := List.exists_cons_of_ne_nil h.ne_nil
  refine ⟨h.inTurn.cons_goOn v, ?_, ?_, ?_, ?_⟩
  · simpa using h.asks
  · intro early v' late hrs
    rcases early with _ | ⟨r₁, _ | ⟨r₂, _ | ⟨r₃, early⟩⟩⟩
    · cases hrs
    · cases hrs
      simpa using hv
    · cases hrs
    · obtain ⟨rfl, rfl, rfl, hrest⟩ : .flag true = r₁ ∧ .given (.ok v) = r₂ ∧
          .gone (.ok ()) = r₃ ∧ r :: rest = early ++ .given (.ok v') :: late := by simpa using hrs
      simpa using h.chosen early v' late hrest
  · intro k
    have hcount : (.flag true :: .given (.ok v) :: .gone (.ok ()) :: r :: rest).countP
        Reply.isRemoval = (r :: rest).countP Reply.isRemoval + 1 := by
      simp [List.countP_cons, Reply.isRemoval]
    rw [h.done k, hcount, List.getLast?_cons_cons, List.getLast?_cons_cons,
      List.getLast?_cons_cons, Nat.add_assoc, Nat.add_comm 1]
  · simpa using h.stopped

end Filters

namespace Skips

lemma none_to_skip : Skips 0 ([] : List (Reply α)) 0 where
  inTurn := InTurn.nil
  removesNothing := by simp
  counts := rfl
  le := Nat.le_refl 0
  done early late h _ := (List.append_eq_nil_iff.1 h.symm).2
  stopped := nofun

lemma ended : Skips (n + 1) [.flag false (α := α)] 0 where
  inTurn := InTurn.ended false
  removesNothing := by simp
  counts := rfl
  le := Nat.zero_le _
  done early late h hn := by
    rcases early with _ | ⟨r₁, _ | ⟨r₂, early⟩⟩
    · simp at hn
    · cases h
      rfl
    · simp at h
  stopped _ := .inl rfl

lemma unanswered (e : WalkError) : Skips (n + 1) [.flag true, .given (.error e) (α := α)] 0 where
  inTurn := InTurn.answered _
  removesNothing := by simp
  counts := rfl
  le := Nat.zero_le _
  done early late h hn := by
    rcases early with _ | ⟨r₁, _ | ⟨r₂, _ | ⟨r₃, early⟩⟩⟩
    · simp at hn
    · cases h
      simp at hn
    · cases h
      rfl
    · simp at h
  stopped _ := .inr ⟨e, rfl⟩

lemma pass (h : Skips n rs k) (v : α) :
    Skips (n + 1) (.flag true :: .given (.ok v) :: rs) (k + 1) where
  inTurn := h.inTurn.cons_pass v
  removesNothing := by simpa using h.removesNothing
  counts := by simpa using h.counts
  le := Nat.succ_le_succ h.le
  done early late hrs hn := by
    rcases early with _ | ⟨r₁, _ | ⟨r₂, early⟩⟩
    · simp at hn
    · cases hrs
      simp at hn
    · cases hrs
      exact h.done early late rfl (by simpa using hn)
  stopped hk := by
    have hstopped := h.stopped (Nat.lt_of_succ_lt_succ hk)
    obtain ⟨r, rest, rfl⟩ : ∃ r rest, rs = r :: rest := by
      refine List.exists_cons_of_ne_nil fun hrs => ?_
      subst hrs
      simp at hstopped
    simpa using hstopped

end Skips

/-! ## The loops -/

namespace Cursor

variable {σ ε ρ φ : Type}

/-- The replies that a watched cursor wrote down. -/
def replies (x : Step (Told σ ε α) (Watched σ) ρ) : List (Reply α) := x.events.map Told.reply

lemma replies_andThen (x : Step (Told σ ε α) (Watched σ) ρ)
    (k : ρ → Watched σ → Step (Told σ ε α) (Watched σ) φ) :
    replies (x.andThen k) = replies x ++ replies (k x.answer x.after) := List.map_append

variable [Cursor σ ε α]

lemma replies_hasNext (w : Watched σ) : replies (hasNext w) = [.flag (hasNext w).answer] := rfl

lemma replies_next (w : Watched σ) : replies (next w) = [.given (next w).answer] := rfl

lemma replies_remove (w : Watched σ) : replies (remove w) = [.gone (remove w).answer] := rfl

lemma sweep_filters (choose : Chooser α) (asked : List α) (removed : Nat) (w : Watched σ) :
    Filters choose asked removed (replies (sweep choose asked removed w))
      (sweep choose asked removed w).answer := by
  -- on what the cursor can still give out
  induction hn : budget w using Nat.strongRecOn generalizing asked removed w with
  | ind n ih =>
    subst hn
    rw [sweep_eq, Step.andThen_answer, replies_andThen, replies_hasNext]
    cases more : (hasNext w).answer with
    | false => exact Filters.ended
    | true =>
      rw [if_pos rfl, Step.andThen_answer, replies_andThen, replies_next]
      cases got : (next (hasNext w).after).answer with
      | error e => exact Filters.unanswered e
      | ok v =>
        have paid := budget_next_lt more got
        by_cases hv : choose asked v = true
        · have kept := budget_remove_le (next (hasNext w).after).after
          simp only [if_pos hv, Step.andThen_answer, replies_andThen, replies_remove]
          cases (remove (next (hasNext w).after).after).answer with
          | error e => exact Filters.refused e hv
          | ok => exact (ih _ (Nat.lt_of_le_of_lt kept paid) _ _ _ rfl).takeOut hv
        · simp only [if_neg hv]
          exact (ih _ paid _ _ _ rfl).pass hv

lemma skip_skips (n : Nat) (w : Watched σ) :
    Skips n (replies (skip n w)) (skip n w).answer := by
  induction n generalizing w with
  | zero => exact Skips.none_to_skip
  | succ n ih =>
    rw [skip, Step.andThen_answer, replies_andThen, replies_hasNext]
    cases (hasNext w).answer with
    | false => exact Skips.ended
    | true =>
      rw [if_pos rfl, Step.andThen_answer, replies_andThen, replies_next]
      cases (next (hasNext w).after).answer with
      | error e => exact Skips.unanswered e
      | ok v => exact (ih _).pass v

lemma value?_reads (w : Watched σ) : Reads (replies (value? w)) (value? w).answer := by
  rw [value?, Step.andThen_answer, replies_andThen, replies_hasNext]
  cases (hasNext w).answer with
  | false => exact .ended
  | true => exact .answered (next (hasNext w).after).answer

end Cursor

/-! ## Cursors without a bound -/

/-- Three calls that answer as they like. -/
structure Oracle (τ α : Type) where
  /-- Whether an element is left, and the state afterwards. -/
  ask : τ → Bool × τ
  /-- The next element or a failure, and the state afterwards. -/
  give : τ → Except WalkError α × τ
  /-- Whether a removal failed, and the state afterwards. -/
  takeOut : τ → Except WalkError Unit × τ

/-- An oracle that announces no more than so many elements. -/
structure Limited {τ : Type} (f : Oracle τ α) where
  /-- The state of the oracle. -/
  state : τ
  /-- How many elements it may still announce. -/
  left : Nat

namespace Oracle

variable {τ : Type} {f : Oracle τ α} {t u x y : τ} {b : Bool} {r : Except WalkError α}
variable {a : Except WalkError Unit} {m : Nat}

instance : Cursor (Limited f) Empty α where
  hasNext s := match s.left with
    | 0 => .still false s
    | n + 1 => .still (f.ask s.state).1 ⟨(f.ask s.state).2, if (f.ask s.state).1 then n else n + 1⟩
  next s := .still (f.give s.state).1 ⟨(f.give s.state).2, s.left⟩
  remove s := .still (f.takeOut s.state).1 ⟨(f.takeOut s.state).2, s.left⟩
  budget := Limited.left
  budget_next_lt {s v} more got := by
    rcases s with ⟨t, _ | n⟩
    · cases more
    · simp only [Step.still_answer] at more
      simp [more]
  budget_remove_le s := Nat.le_refl _

/-- The replies are the oracle's to these calls, one after another. -/
inductive Answers (f : Oracle τ α) : τ → List (Reply α) → Prop
  | nil (t : τ) : Answers f t []
  | ask {t u : τ} {b : Bool} {rs : List (Reply α)} :
      f.ask t = (b, u) → Answers f u rs → Answers f t (.flag b :: rs)
  | give {t u : τ} {r : Except WalkError α} {rs : List (Reply α)} :
      f.give t = (r, u) → Answers f u rs → Answers f t (.given r :: rs)
  | takeOut {t u : τ} {r : Except WalkError Unit} {rs : List (Reply α)} :
      f.takeOut t = (r, u) → Answers f u rs → Answers f t (.gone r :: rs)

/-- All replies are the oracle's, unless `m` elements were given out and the limit denied
that there are more. -/
def AnswersUpTo (f : Oracle τ α) (m : Nat) (t : τ) (rs : List (Reply α)) : Prop :=
  f.Answers t rs ∨
    ∃ early, rs = early ++ [.flag false] ∧ f.Answers t early ∧ (givenOut early).length = m

lemma AnswersUpTo.pass (ask : f.ask t = (true, u)) (give : f.give u = (.ok v, x))
    (h : f.AnswersUpTo m x rs) :
    f.AnswersUpTo (m + 1) t (.flag true :: .given (.ok v) :: rs) := by
  rcases h with h | ⟨early, rfl, h, hm⟩
  · exact .inl (.ask ask (.give give h))
  · exact .inr ⟨_ :: _ :: early, rfl, .ask ask (.give give h), congrArg (· + 1) hm⟩

lemma AnswersUpTo.takeOut (ask : f.ask t = (true, u)) (give : f.give u = (.ok v, x))
    (gone : f.takeOut x = (.ok (), y)) (h : f.AnswersUpTo m y rs) :
    f.AnswersUpTo (m + 1) t (.flag true :: .given (.ok v) :: .gone (.ok ()) :: rs) := by
  rcases h with h | ⟨early, rfl, h, hm⟩
  · exact .inl (.ask ask (.give give (.takeOut gone h)))
  · exact .inr ⟨_ :: _ :: _ :: early, rfl, .ask ask (.give give (.takeOut gone h)),
      congrArg (· + 1) hm⟩

/-- A limited oracle, with its calls written down. -/
def watched (f : Oracle τ α) (t : τ) (m : Nat) : Watched (Limited f) := ⟨⟨t, m⟩⟩

lemma hasNext_watched (h : f.ask t = (b, u)) : hasNext (f.watched t (m + 1)) =
    ⟨b, f.watched u (if b then m else m + 1), [⟨.flag b, [], ⟨t, m + 1⟩⟩]⟩ := by
  obtain ⟨rfl, rfl⟩ : (f.ask t).1 = b ∧ (f.ask t).2 = u := Prod.ext_iff.1 h
  rfl

lemma next_watched (h : f.give t = (r, u)) :
    next (f.watched t m) = ⟨r, f.watched u m, [⟨.given r, [], ⟨t, m⟩⟩]⟩ := by
  obtain ⟨rfl, rfl⟩ : (f.give t).1 = r ∧ (f.give t).2 = u := Prod.ext_iff.1 h
  rfl

lemma remove_watched (h : f.takeOut t = (a, u)) :
    remove (f.watched t m) = ⟨a, f.watched u m, [⟨.gone a, [], ⟨t, m⟩⟩]⟩ := by
  obtain ⟨rfl, rfl⟩ : (f.takeOut t).1 = a ∧ (f.takeOut t).2 = u := Prod.ext_iff.1 h
  rfl

lemma sweep_answersUpTo (choose : Chooser α) (asked : List α) (removed m : Nat) (t : τ) :
    f.AnswersUpTo m t (replies (sweep choose asked removed (f.watched t m))) := by
  induction m generalizing asked removed t with
  | zero =>
    rw [sweep_eq, replies_andThen]
    exact .inr ⟨[], rfl, .nil t, rfl⟩
  | succ m ih =>
    rcases ask : f.ask t with ⟨_ | _, u⟩
    · rw [sweep_eq, replies_andThen, hasNext_watched ask]
      exact .inl (.ask ask (.nil u))
    · rcases give : f.give u with ⟨e | v, x⟩
      · rw [sweep_eq, replies_andThen, hasNext_watched ask]
        simp only [if_pos, replies_andThen, next_watched give]
        exact .inl (.ask ask (.give give (.nil x)))
      · by_cases hv : choose asked v = true
        · rcases gone : f.takeOut x with ⟨e | _, y⟩
          · rw [sweep_eq, replies_andThen, hasNext_watched ask]
            simp only [if_pos, replies_andThen, next_watched give, hv, remove_watched gone]
            exact .inl (.ask ask (.give give (.takeOut gone (.nil y))))
          · rw [sweep_eq, replies_andThen, hasNext_watched ask]
            simp only [if_pos, replies_andThen, next_watched give, hv, remove_watched gone]
            exact (ih _ _ y).takeOut ask give gone
        · rw [sweep_eq, replies_andThen, hasNext_watched ask]
          simp only [if_pos, if_neg hv, replies_andThen, next_watched give]
          exact (ih _ _ x).pass ask give

lemma skip_answers (n : Nat) (t : τ) : f.Answers t (replies (skip n (f.watched t n))) := by
  induction n generalizing t with
  | zero => exact .nil t
  | succ n ih =>
    rcases ask : f.ask t with ⟨_ | _, u⟩
    · rw [skip, replies_andThen, hasNext_watched ask]
      exact .ask ask (.nil u)
    · rw [skip, replies_andThen, hasNext_watched ask]
      rcases give : f.give u with ⟨e | v, x⟩
      · simp only [if_pos, replies_andThen, next_watched give]
        exact .ask ask (.give give (.nil x))
      · simp only [if_pos, replies_andThen, next_watched give]
        exact .ask ask (.give give (ih x))

lemma value?_answers (t : τ) : f.Answers t (replies (value? (f.watched t 1))) := by
  rcases ask : f.ask t with ⟨_ | _, u⟩
  · rw [value?, replies_andThen, hasNext_watched ask]
    exact .ask ask (.nil u)
  · rw [value?, replies_andThen, hasNext_watched ask]
    rcases give : f.give u with ⟨r, x⟩
    simp only [if_pos, next_watched give]
    exact .ask ask (.give give (.nil x))

end Oracle

/-- What filtering comes to is what it does when it is watched. -/
lemma filters_removeIf {σ ε : Type} [Cursor σ ε α] (choose : Chooser α) (s : σ) :
    Filters choose [] 0 (replies (removeIf choose (Watched.mk s))) (removeIf choose s).answer := by
  have hsweep := echoes_watched.sweep choose [] 0 (rfl : Watches (Watched.mk s) s)
  rw [removeIf, removeIf, ← hsweep.1.1]
  exact sweep_filters choose [] 0 (Watched.mk s)

/-- A predicate that passes a state along ends in the one that the elements given out have led
to. -/
lemma removeIfBy_eq {σ ε τ : Type} [Cursor σ ε α] (f : τ → α → Bool × τ) (t : τ) (s : σ) :
    removeIfBy f t s = (removeIf (.ofState f t) s).map fun out => (out.removed,
      Chooser.stateAfter f t (givenOut (replies (removeIf (.ofState f t) (Watched.mk s))))) := by
  have hasks := (filters_removeIf (.ofState f t) s).asks
  rw [List.reverse_nil, List.nil_append] at hasks
  rw [removeIfBy_eq_map_removeIf, ← hasks]
  rfl

/-- The loops call any cursor in turn, stop where they have to, and come to what their calls were
told; to watch them changes nothing.  A chooser sees the questions before, and a predicate that
passes a state along is asked about what is given out and nothing else.  The calls may answer as
they like: an oracle is asked for all replies, as long as no limit cuts filtering short. -/
theorem loops_call_in_turn {σ ε : Type} [Cursor σ ε α] (choose : Chooser α) (n : Nat) (s : σ) :
    (Retells (removeIf choose (Watched.mk s)) (removeIf choose s) ∧
      Filters choose [] 0 (replies (removeIf choose (Watched.mk s))) (removeIf choose s).answer ∧
      removeIfBy choose.writing [] s =
        (removeIf choose s).map fun out => (out.removed, out.asked.reverse)) ∧
    (Retells (skip n (Watched.mk s)) (skip n s) ∧
      Skips n (replies (skip n (Watched.mk s))) (skip n s).answer) ∧
    (Retells (value? (Watched.mk s)) (value? s) ∧
      Reads (replies (value? (Watched.mk s))) (value? s).answer) ∧
    (∀ {τ : Type} (f : τ → α → Bool × τ) (t : τ),
      removeIfBy f t s = (removeIf (.ofState f t) s).map fun out => (out.removed,
        Chooser.stateAfter f t (givenOut (replies (removeIf (.ofState f t) (Watched.mk s)))))) ∧
    ∀ {τ : Type} (f : Oracle τ α) (t : τ),
      (∀ m, f.AnswersUpTo m t (replies (removeIf choose (f.watched t m)))) ∧
      f.Answers t (replies (skip n (f.watched t n))) ∧
      f.Answers t (replies (value? (f.watched t 1))) := by
  have hsweep := echoes_watched.sweep choose [] 0 (rfl : Watches (Watched.mk s) s)
  have hskip := echoes_watched.skip n (rfl : Watches (Watched.mk s) s)
  have hvalue := echoes_watched.value? (rfl : Watches (Watched.mk s) s)
  refine ⟨⟨hsweep, filters_removeIf choose s, removeIfBy_writing choose s⟩, ⟨hskip, ?_⟩,
    ⟨hvalue, ?_⟩, fun f t => removeIfBy_eq f t s, fun f t => ⟨fun m => ?_, ?_, ?_⟩⟩
  · rw [← hskip.1.1]
    exact skip_skips n (Watched.mk s)
  · rw [← hvalue.1.1]
    exact value?_reads (Watched.mk s)
  · exact f.sweep_answersUpTo choose [] 0 m t
  · exact f.skip_answers n t
  · exact f.value?_answers t

end IntWalk
