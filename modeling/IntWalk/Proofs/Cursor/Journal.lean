import IntWalk.Proofs.Cursor.Exact
import IntWalk.Proofs.Cursor.Turns

/-!
# Journals

What a walk reports is a journal of it: each removal is written down when it is made, in such a
way that it can be done again, and each vain request for an element is too.  A `Ledger` says how
the removals from a collection are written down and done again.  If a cursor keeps the ledger
call by call (`Ledger.Kept`), every walk leaves a faithful journal (`Ledger.Journal`).
-/

namespace IntWalk

open Cursor

variable {C σ α : Type}

/-- Whether the event says that an element was removed. -/
def Event.isRemoval : Event → Bool
  | .removedAt _ _ => true
  | .cleared _ _ => true
  | .dropped _ => true
  | _ => false

/-- The number of elements left that a removal is written down with. -/
def Event.size? : Event → Option Nat
  | .removedAt _ size => some size
  | .cleared _ size => some size
  | _ => none

/-- The numbers of elements left that the events say count down by one from `n`. -/
def Event.CountDown (n : Nat) (es : List Event) : Prop :=
  (n :: es.filterMap Event.size?).IsChain fun m k => k + 1 = m

/-- The number of elements given out that a vain request is written down with. -/
def Event.exhausted? : Event → Option Nat
  | .exhausted n => some n
  | _ => none

/-- The event that the words and the numbers of a report tell of. -/
def Record.event? (r : Record) : Option Event :=
  match r.message, r.fields with
  | "cursor exhausted", [("yielded", n)] => some (.exhausted n)
  | "removed list value", [("index", i), ("len", n)] => some (.removedAt i n)
  | "removed bit set value", [("value", v), ("len", n)] => some (.cleared v n)
  | "removed tracked part", [("part", p)] => some (.dropped (UInt32.ofNat p))
  | "bridged two ranges", [("part", p), ("ranges", n)] => some (.bridged (UInt32.ofNat p) n)
  | "split range", [("part", p), ("ranges", n)] => some (.split (UInt32.ofNat p) n)
  | _, _ => none

lemma Event.event?_record (e : Event) : e.record.event? = some e := by
  cases e with
  | exhausted | removedAt | cleared => rfl
  | dropped p =>
    show some (dropped (.ofNat p.toNat)) = some (dropped p)
    rw [UInt32.ofNat_toNat]
  | bridged p n =>
    show some (bridged (.ofNat p.toNat) n) = some (bridged p n)
    rw [UInt32.ofNat_toNat]
  | split p n =>
    show some (split (.ofNat p.toNat) n) = some (split p n)
    rw [UInt32.ofNat_toNat]

/-- Nothing is lost when events are put in words. -/
lemma Event.filterMap_event?_record (es : List Event) :
    (es.map Event.record).filterMap Record.event? = es := by
  rw [List.filterMap_map]
  simp only [Function.comp_def, event?_record, List.filterMap_some]

/-- The number of elements given out that a vain request is answered with. -/
def Reply.exhausted? : Reply α → Option Nat
  | .given (.error (.exhausted n)) => some n
  | _ => none

/-- How many removals the reply tells of. -/
def Reply.removals : Reply α → Nat
  | .gone (.ok _) => 1
  | .swept ⟨.ok n, _⟩ => n
  | _ => 0

/-- How many removals the replies tell of. -/
def removals (rs : List (Reply α)) : Nat := rs.foldr (fun r n => r.removals + n) 0

/-! ## Counting -/

namespace Cursor

variable [Cursor σ Event α]

lemma countP_of_reading {w u : Watched σ} {ts : List (Told σ Event α)} (path : Reading w ts u) :
    (ts.map Told.reply).countP Reply.isRemoval = 0 := by
  induction path with
  | nil => rfl
  | ask _ ih => exact ih
  | give _ _ ih => exact ih

namespace Exact

variable (h : Exact σ)
include h

lemma remove_not_exhausted (s : σ) : (remove s).events.filterMap Event.exhausted? = [] := by
  obtain ⟨t, es, hremove, hes⟩ | ⟨why, hremove⟩ := h.removes s
  · rw [hremove, List.filterMap_eq_nil_iff]
    intro e he
    cases e with
    | exhausted n => exact absurd he (hes n)
    | _ => rfl
  · rw [hremove]
    rfl

/-- Filtering runs into no missing element. -/
lemma sweep_not_exhausted (choose : Chooser α) (asked : List α) (removed : Nat) (s : σ) :
    (sweep choose asked removed s).events.filterMap Event.exhausted? = [] := by
  fun_induction sweep choose asked removed s with
  | case1 asked removed s has more given e got =>
    obtain ⟨v, hv⟩ := h.announced s more
    rw [← h.hasNext_after s] at hv
    cases hv.symm.trans got
  | case2 asked removed s has more given v got chosen gone events e refused =>
    cases (h.earned _ v got).symm.trans refused
  | case3 asked removed s has more given v got chosen gone events done ih =>
    have hgone : gone.events.filterMap Event.exhausted? = [] := h.remove_not_exhausted _
    have hevents : events = gone.events := by
      show has.events ++ (given.events ++ gone.events) = gone.events
      rw [h.hasNext_events, h.next_events got]
      rfl
    rw [Step.preceded_events, hevents, List.filterMap_append, hgone, ih]
    rfl
  | case4 asked removed s has more given v got chosen ih =>
    rw [Step.preceded_events, h.hasNext_events, h.next_events got]
    exact ih
  | case5 asked removed s has more =>
    show has.events.filterMap _ = []
    rw [h.hasNext_events]
    rfl

variable [Max α]

/-- A call answers with the number of the removals behind it. -/
lemma countP_perform (c : Call α) (w : Watched σ) :
    (replies (perform c w)).countP Reply.isRemoval = (perform c w).answer.removals := by
  cases c with
  | hasNext | next => rfl
  | remove =>
    show [Reply.gone (remove w).answer].countP Reply.isRemoval = (Reply.gone _).removals
    cases (remove w).answer <;> rfl
  | removeIf choose =>
    show (replies (sweep choose [] 0 w)).countP Reply.isRemoval =
      (Reply.swept (sweep choose [] 0 w).answer).removals
    have hfilters := sweep_filters choose [] 0 w
    have hsame := (echoes_watched.sweep choose [] 0 (rfl : Watches w w.inner)).1.1
    rcases hout : (sweep choose [] 0 w).answer with ⟨e | n, asked⟩
    · refine absurd ?_ (h.sweep_done choose [] 0 w.inner e)
      rw [← hsame, hout]
    · rw [hout] at hfilters
      have hn := ((hfilters.done n).1 rfl).2
      rw [Nat.zero_add] at hn
      exact hn.symm
  | skip n => exact countP_of_reading (skip_reading n w)
  | value => exact countP_of_reading (value?_reading w)
  | take n => exact countP_of_reading (take_reading n w)
  | nth n => exact countP_of_reading (nth_reading n w)
  | drain | count | greatest => exact countP_of_reading (drain_reading w)

lemma countP_trace (calls : List (Call α)) (s : σ) :
    ((trace calls s).map Told.reply).countP Reply.isRemoval =
      removals (performAll calls s).answer := by
  rw [← (performAll_watched calls s).1, trace]
  induction calls generalizing s with
  | nil => rfl
  | cons c calls ih =>
    rw [performAll, Step.andThen_events, Step.andThen_answer, Step.map_events, Step.map_answer,
      List.map_append, List.countP_append]
    exact congrArg₂ _ (h.countP_perform c _) (ih _)

/-- One call logs a vain request just if it is one. -/
lemma perform_exhausted (c : Call α) (s : σ) :
    (perform c s).events.filterMap Event.exhausted? =
      (perform c s).answer.exhausted?.toList := by
  have reading {es : List Event} {t : σ} (path : Reading s es t) :
      es.filterMap Event.exhausted? = [] := by rw [h.reading_silent path, List.filterMap_nil]
  cases c with
  | hasNext => exact reading (hasNext_reading s)
  | next =>
    show (next s).events.filterMap _ = (Reply.given (next s).answer).exhausted?.toList
    obtain ⟨v, t, hnext⟩ | ⟨n, hnext⟩ := h.gives s
    · rw [hnext]
      rfl
    · rw [hnext]
      rfl
  | remove => exact h.remove_not_exhausted s
  | removeIf choose => exact h.sweep_not_exhausted choose [] 0 s
  | skip n => exact reading (skip_reading n s)
  | value => exact reading (value?_reading s)
  | take n => exact reading (take_reading n s)
  | nth n => exact reading (nth_reading n s)
  | drain | count | greatest => exact reading (drain_reading s)

lemma performAll_exhausted (calls : List (Call α)) (s : σ) :
    (performAll calls s).events.filterMap Event.exhausted? =
      (performAll calls s).answer.filterMap Reply.exhausted? := by
  induction calls generalizing s with
  | nil => rfl
  | cons c calls ih =>
    rw [performAll, Step.andThen_events, Step.andThen_answer, Step.map_events, Step.map_answer,
      List.filterMap_append, h.perform_exhausted, ih, List.filterMap_cons]
    cases (perform c s).answer.exhausted? <;> rfl

end Exact

end Cursor

/-! ## Ledgers -/

/-- How the removals from a collection are written down. -/
structure Ledger (C α : Type) where
  /-- Does again what an event says was done. -/
  redo : Event → C → C
  /-- What is to be reported when the element is removed from the collection. -/
  Due : C → α → List Event → Prop

namespace Ledger

variable (L : Ledger C α)

/-- Does again what the events say, one after another. -/
def replay (es : List Event) (c : C) : C := es.foldl (fun c e => L.redo e c) c

lemma replay_append (es fs : List Event) (c : C) :
    L.replay (es ++ fs) c = L.replay fs (L.replay es c) := List.foldl_append

/-- A call on the collection reports what it should, where `last` was given out last: a removal
what is due, a vain request that it was vain, and any other call nothing. -/
inductive Right (c : C) (last : Option α) : Reply α → List Event → Prop
  | removed {v : α} {es : List Event} :
      last = some v → L.Due c v es → Right c last (.gone (.ok ())) es
  | exhausted (n : Nat) : Right c last (.given (.error (.exhausted n))) [.exhausted n]
  | silent {r : Reply α} : (∀ u, r ≠ .gone (.ok u)) → (∀ e, r ≠ .given (.error e)) →
      Right c last r []

variable {L}

lemma Right.countP (single : ∀ c v es, L.Due c v es → es.countP Event.isRemoval = 1) {c : C}
    {last : Option α} {r : Reply α} {es : List Event} (h : L.Right c last r es) :
    es.countP Event.isRemoval = [r].countP Reply.isRemoval := by
  cases h with
  | removed hlast hdue => exact single c _ es hdue
  | exhausted n => rfl
  | silent hgone hfailed =>
    have hr : r.isRemoval = false := by
      fun_cases Reply.isRemoval r with
      | case1 u => exact absurd rfl (hgone u)
      | case2 => rfl
    rw [List.countP_nil, List.countP_cons_of_neg (by rw [hr]; exact Bool.false_ne_true),
      List.countP_nil]

lemma countP_reported {ts : List (Told σ Event α)}
    (h : ∀ e ∈ ts, e.reported.countP Event.isRemoval = [e.reply].countP Reply.isRemoval) :
    (ts.flatMap Told.reported).countP Event.isRemoval =
      (ts.map Told.reply).countP Reply.isRemoval := by
  induction ts with
  | nil => rfl
  | cons e ts ih =>
    obtain ⟨he, hts⟩ := List.forall_mem_cons.1 h
    rw [List.flatMap_cons, List.countP_append, he, ih hts, List.map_cons, ← List.singleton_append,
      ← List.countP_append]
    rfl

variable (L)

variable [Cursor σ Event α] [Max α]

/-- The reports of the calls on a cursor over the collection that it holds are a journal, which
can also be read in the words that a log puts it in. -/
structure Journal (holds : σ → C) (calls : List (Call α)) (s : σ) : Prop where
  told : (performAll calls s).events = (trace calls s).flatMap Told.reported
  right : ∀ early e late, trace calls s = early ++ e :: late →
    L.replay (early.flatMap Told.reported) (holds s) = holds e.before ∧
    L.Right (holds e.before) (givenOut (early.map Told.reply)).getLast? e.reply e.reported
  replayed : L.replay (performAll calls s).events (holds s) = holds (performAll calls s).after
  removals : (performAll calls s).events.countP Event.isRemoval =
    removals (performAll calls s).answer
  exhausted : (performAll calls s).events.filterMap Event.exhausted? =
    (performAll calls s).answer.filterMap Reply.exhausted?
  legible : ((performAll calls s).events.map Event.record).filterMap Record.event? =
    (performAll calls s).events

/-- The cursor keeps the ledger: by its history, what it reports of a removal is due and is
enough to do the removal again. -/
structure Kept (holds : σ → C) (Hist : List (Reply α) → σ → Prop) : Prop where
  exact : Exact σ
  history : ∀ (p : Primitive) (rs : List (Reply α)) (s : σ), Hist rs s →
    Hist (rs ++ [(perform p.call s).answer]) (perform p.call s).after
  exhausted : ∀ n c, L.redo (.exhausted n) c = c
  single : ∀ c v es, L.Due c v es → es.countP Event.isRemoval = 1
  gives : ∀ s, holds (next s).after = holds s
  removes : ∀ (rs : List (Reply α)) (s : σ), Hist rs s → (remove s).answer = .ok () →
    ∃ v, (givenOut rs).getLast? = some v ∧ L.Due (holds s) v (remove s).events ∧
      L.replay (remove s).events (holds s) = holds (remove s).after

namespace Kept

variable {L} {holds : σ → C} {Hist : List (Reply α) → σ → Prop} (h : L.Kept holds Hist)
include h

/-- One call reports what it should, and doing this again changes the collection alike. -/
lemma right {rs : List (Reply α)} {s : σ} (hs : Hist rs s) (p : Primitive) :
    L.Right (holds s) (givenOut rs).getLast? (perform p.call s).answer
      (perform p.call s).events ∧
    L.replay (perform p.call s).events (holds s) = holds (perform p.call s).after := by
  cases p with
  | hasNext =>
    show L.Right _ _ (.flag _) (hasNext s).events ∧ L.replay (hasNext s).events _ = holds _
    rw [h.exact.hasNext_events]
    exact ⟨.silent nofun nofun, congrArg holds (h.exact.hasNext_after s).symm⟩
  | next =>
    show L.Right _ _ (.given (next s).answer) (next s).events ∧
      L.replay (next s).events _ = holds (next s).after
    have hheld := h.gives s
    obtain ⟨v, t, hnext⟩ | ⟨n, hnext⟩ := h.exact.gives s
    · rw [hnext] at hheld ⊢
      exact ⟨.silent nofun nofun, hheld.symm⟩
    · rw [hnext]
      exact ⟨.exhausted n, h.exhausted n (holds s)⟩
  | remove =>
    show L.Right _ _ (.gone (remove s).answer) (remove s).events ∧
      L.replay (remove s).events _ = holds (remove s).after
    obtain ⟨t, es, hremove, -⟩ | ⟨why, hremove⟩ := h.exact.removes s
    · obtain ⟨v, hlast, hdue, hreplay⟩ := h.removes rs s hs (by rw [hremove])
      rw [hremove] at hdue hreplay ⊢
      exact ⟨.removed hlast hdue, hreplay⟩
    · rw [hremove]
      exact ⟨.silent nofun nofun, rfl⟩

/-- So every call of a walk does, and the events so far give the collection of the moment. -/
lemma right_of_trace {s : σ} (hs : Hist [] s) (calls : List (Call α)) :
    L.replay ((trace calls s).flatMap Told.reported) (holds s) =
      holds (performAll calls s).after ∧
    ∀ early e late, trace calls s = early ++ e :: late →
      L.replay (early.flatMap Told.reported) (holds s) = holds e.before ∧
      L.Right (holds e.before) (givenOut (early.map Told.reply)).getLast? e.reply e.reported := by
  have hwalk := chronicle
    (fun ts t => Hist (ts.map Told.reply) t ∧
      L.replay (ts.flatMap Told.reported) (holds s) = holds t)
    (fun ts e => L.replay (ts.flatMap Told.reported) (holds s) = holds e.before ∧
      L.Right (holds e.before) (givenOut (ts.map Told.reply)).getLast? e.reply e.reported)
    ?_ ⟨hs, rfl⟩ calls
  · exact ⟨hwalk.1.2, hwalk.2⟩
  · rintro p ts t ⟨hhist, hheld⟩
    obtain ⟨hright, hredone⟩ := h.right hhist p
    refine ⟨⟨hheld, hright⟩, ?_, ?_⟩
    · rw [List.map_append]
      exact h.history p _ t hhist
    · rw [List.flatMap_append, replay_append, hheld, List.flatMap_singleton]
      exact hredone

/-- The reports of the calls of a walk are a journal of it. -/
lemma journal {s : σ} (hs : Hist [] s) (calls : List (Call α)) : L.Journal holds calls s := by
  obtain ⟨hreplayed, hright⟩ := h.right_of_trace hs calls
  obtain ⟨-, -, htold⟩ := performAll_watched calls s
  refine ⟨htold, hright, ?_, ?_, h.exact.performAll_exhausted calls s,
    Event.filterMap_event?_record _⟩
  · rw [htold, hreplayed]
  · rw [htold, ← h.exact.countP_trace calls s]
    refine countP_reported fun e he => ?_
    obtain ⟨early, late, hts⟩ := List.append_of_mem he
    exact (hright early e late hts).2.countP h.single

end Kept

/-! ## Sizes -/

/-- A ledger in which a removal is written down with the number of elements left. -/
structure Sized (size : C → Nat) : Prop where
  written : ∀ c v es, L.Due c v es → es.filterMap Event.size? = [size (L.replay es c)]
  smaller : ∀ c v es, L.Due c v es → size (L.replay es c) + 1 = size c

omit [Cursor σ Event α] [Max α] in
lemma Sized.countDown {L : Ledger C α} {size : C → Nat} (sized : L.Sized size)
    (exhausted : ∀ n c, L.redo (.exhausted n) c = c) {ts : List (Told σ Event α)} {c : C}
    (right : ∀ early e late, ts = early ++ e :: late →
      ∃ last, L.Right (L.replay (early.flatMap Told.reported) c) last e.reply e.reported) :
    Event.CountDown (size c) (ts.flatMap Told.reported) := by
  induction ts generalizing c with
  | nil => exact List.isChain_singleton _
  | cons e ts ih =>
    obtain ⟨last, first⟩ := right [] e ts rfl
    have hrest := ih (c := L.replay e.reported c) fun early e' late hts => by
      obtain ⟨last, later⟩ := right (e :: early) e' late (by rw [hts]; rfl)
      rw [List.flatMap_cons, replay_append] at later
      exact ⟨last, later⟩
    rw [Event.CountDown] at hrest
    rw [Event.CountDown, List.flatMap_cons, List.filterMap_append]
    obtain ⟨reply, es, before⟩ := e
    cases first with
    | removed hlast hdue =>
      rw [sized.written _ _ _ hdue]
      exact .cons_cons (sized.smaller _ _ _ hdue) hrest
    | exhausted n =>
      rw [show L.replay [.exhausted n] c = c from exhausted n c] at hrest
      exact hrest
    | silent => exact hrest

variable {L}

/-- The numbers of elements left count down by one from the size at the start. -/
lemma Kept.sizes {holds : σ → C} {Hist : List (Reply α) → σ → Prop} (h : L.Kept holds Hist)
    {size : C → Nat} (sized : L.Sized size) {s : σ} (hs : Hist [] s) (calls : List (Call α)) :
    Event.CountDown (size (holds s)) (performAll calls s).events := by
  obtain ⟨-, -, htold⟩ := performAll_watched calls s
  rw [htold]
  refine sized.countDown h.exhausted fun early e late hts => ?_
  obtain ⟨hheld, hright⟩ := (h.right_of_trace hs calls).2 early e late hts
  rw [hheld]
  exact ⟨_, hright⟩

end Ledger

end IntWalk
