import IntWalk.Proofs.Cursor.Tracks

/-!
# A cursor read as a stream

A stream over a cursor is read an element at a time, and the element read last can be taken out
again.  Once the stream has ended it stays ended, whatever is taken out then; and a cursor that
was read as a stream stands where the direct calls would have brought it, those at the end left
out (`Streams`).
-/

namespace IntWalk

variable {α : Type}

/-- A call on a stream over a cursor. -/
inductive StreamCall where
  /-- The next element of the stream. -/
  | next
  /-- Take out the element read last. -/
  | removeLast
deriving DecidableEq

/-- The call on the cursor under the stream. -/
def StreamCall.call : StreamCall → Call α
  | .next => .value
  | .removeLast => .remove

/-- The calls to make directly on a cursor with `n` elements left: those on the stream, but none
that would ask for one element more. -/
def StreamCall.direct : Nat → List StreamCall → List Primitive
  | _, [] => []
  | 0, .next :: cs => direct 0 cs
  | n + 1, .next :: cs => .next :: direct n cs
  | n, .removeLast :: cs => .remove :: direct n cs

namespace Reply

/-- What was read from the stream, if the reply is to a read. -/
def read? : Reply α → Option (Option α)
  | .found v => some v
  | _ => none

/-- The reply that the cursor itself gives, if the stream has not ended. -/
def unstreamed : Reply α → Option (Reply α)
  | .found none => none
  | .found (some v) => some (.given (.ok v))
  | r => some r

/-- The first reply is not the end of a stream from which the second one still read something. -/
def EndsBefore (r r' : Reply α) : Prop := r = .found none → ∀ v, r' ≠ .found (some v)

end Reply

/-- A removal leaves alone what lies ahead. -/
lemma Sequence.Walk.ahead_remove (u : Sequence.Walk α) : u.remove.after.ahead = u.ahead := by
  rw [remove]
  split <;> rfl

namespace Cursor

variable {σ : Type} [Cursor σ Event α] [Max α]

/-- Runs the calls on a stream over the cursor. -/
def stream (cs : List StreamCall) (s : σ) : Step Event σ (List (Reply α)) :=
  performAll (cs.map StreamCall.call) s

/-- Runs the calls directly on the cursor, of which `n` elements are left. -/
def streamless (n : Nat) (cs : List StreamCall) (s : σ) : Step Event σ (List (Reply α)) :=
  performAll ((StreamCall.direct n cs).map Primitive.call) s

/-- The calls on a stream read the elements `left` one after another, and then nothing any more.
They come to what the direct calls come to, but for the replies at the end. -/
structure Streams (left : List α) (cs : List StreamCall) (s : σ) : Prop where
  reads : (stream cs s).answer.filterMap Reply.read? =
    (List.range (cs.count .next)).map fun i => left[i]?
  fused : (stream cs s).answer.Pairwise Reply.EndsBefore
  answer : (streamless left.length cs s).answer =
    (stream cs s).answer.filterMap Reply.unstreamed
  after : (streamless left.length cs s).after = (stream cs s).after
  events : (streamless left.length cs s).events = (stream cs s).events

/-! ## One more call -/

section Calls

variable {s t : σ} {v : α} {left : List α} {cs : List StreamCall}

lemma Streams.nil : Streams left [] s := ⟨rfl, .nil, rfl, rfl, rfl⟩

/-- Where the stream has ended, nothing was read from it. -/
lemma Streams.not_found_mem (h : Streams [] cs s) (v : α) :
    .found (some v) ∉ (stream cs s).answer := by
  intro hv
  have hread : some v ∈ (stream cs s).answer.filterMap Reply.read? :=
    List.mem_filterMap.2 ⟨_, hv, rfl⟩
  rw [h.reads] at hread
  simp at hread

lemma stream_next_of_ended (asked : hasNext s = .still false s) (cs : List StreamCall) :
    stream (.next :: cs) s = (stream cs s).map (.found none :: ·) := by
  rw [stream, List.map_cons, performAll, StreamCall.call, perform, value?_of_ended asked]
  rfl

lemma stream_next_of_given (asked : hasNext s = .still true s)
    (given : next s = .still (.ok v) t) (cs : List StreamCall) :
    stream (.next :: cs) s = (stream cs t).map (.found (some v) :: ·) := by
  rw [stream, List.map_cons, performAll, StreamCall.call, perform, value?_of_given asked given]
  rfl

lemma Streams.next_of_ended (asked : hasNext s = .still false s) (h : Streams [] cs s) :
    Streams [] (.next :: cs) s := by
  have hstream := stream_next_of_ended asked cs
  refine ⟨?_, ?_, ?_, ?_, ?_⟩
  · rw [hstream, List.count_cons_self, List.range_succ_eq_map, List.map_cons, List.map_map]
    exact congrArg (none :: ·) h.reads
  · rw [hstream]
    refine .cons ?_ h.fused
    intro r hr _ v hv
    exact h.not_found_mem v (hv ▸ hr)
  · rw [hstream]
    exact h.answer
  · rw [hstream]
    exact h.after
  · rw [hstream]
    exact h.events

lemma Streams.next_of_given (asked : hasNext s = .still true s)
    (given : next s = .still (.ok v) t) (h : Streams left cs t) :
    Streams (v :: left) (.next :: cs) s := by
  have hstream := stream_next_of_given asked given cs
  have hdirect : streamless (v :: left).length (.next :: cs) s =
      (streamless left.length cs t).map (.given (.ok v) :: ·) := by
    rw [streamless, List.length_cons, StreamCall.direct, List.map_cons, performAll,
      Primitive.call, perform, given]
    rfl
  refine ⟨?_, ?_, ?_, ?_, ?_⟩
  · rw [hstream, List.count_cons_self, List.range_succ_eq_map, List.map_cons, List.map_map]
    exact congrArg (some v :: ·) h.reads
  · rw [hstream]
    refine .cons ?_ h.fused
    intro r _ hend
    cases hend
  · rw [hstream, hdirect, Step.map_answer, h.answer]
    rfl
  · rw [hstream, hdirect]
    exact h.after
  · rw [hstream, hdirect]
    exact h.events

lemma Streams.removeLast (h : Streams left cs (remove s).after) :
    Streams left (.removeLast :: cs) s := by
  have hstream : stream (.removeLast :: cs) s =
      (remove s).andThen fun r t => (stream cs t).map (.gone r :: ·) := rfl
  have hdirect : streamless left.length (.removeLast :: cs) s =
      (remove s).andThen fun r t => (streamless left.length cs t).map (.gone r :: ·) := by
    rw [streamless, StreamCall.direct]
    rfl
  refine ⟨?_, ?_, ?_, ?_, ?_⟩
  · rw [hstream]
    exact h.reads
  · rw [hstream]
    refine .cons ?_ h.fused
    intro r _ hend
    cases hend
  · rw [hstream, hdirect, Step.andThen_answer, Step.map_answer, h.answer]
    rfl
  · rw [hstream, hdirect]
    exact h.after
  · rw [hstream, hdirect, Step.andThen_events, Step.map_events, h.events]
    rfl

end Calls

/-- A removal gives nothing back, so a stream that has ended stays ended. -/
lemma Tracks.streams {R : σ → Sequence.Walk α → Prop} {view : σ → List α}
    {progress : σ → Progress} (h : Tracks R view progress) {s : σ} {u : Sequence.Walk α}
    (hs : R s u) (cs : List StreamCall) : Streams u.ahead cs s := by
  induction cs generalizing s u with
  | nil => exact .nil
  | cons c cs ih =>
    cases c with
    | next =>
      obtain ⟨hasked, -⟩ | ⟨hasked, hgiven, htracked⟩ := h.round hs
      · exact .next_of_ended hasked (ih hs)
      · exact .next_of_given hasked hgiven (ih htracked)
    | removeLast =>
      have hrest := ih (h.mirrors.remove s u hs).2
      have hahead : (remove u).after.ahead = u.ahead := u.ahead_remove
      rw [hahead] at hrest
      exact hrest.removeLast

end Cursor

/-- Wherever a walk over a sequence, a bit set or a part set stands, a stream over it reads the
elements not given out yet, each of them once and in order, and then ends for good.  Afterwards
the walk stands as if it had been called directly. -/
theorem streams_are_fused_and_transparent [Max α] (xs : Sequence α) (s : BitSet) {t : PartSet}
    (ht : t.Reachable) :
    Cursor.Midway xs.values xs.walk (fun passed left w =>
      w.sequence.values = passed ++ left ∧ ∀ cs, Cursor.Streams left cs w) ∧
    Cursor.Midway s.toList s.walk (fun passed left w =>
      w.bits.toList = passed ++ left ∧ ∀ cs, Cursor.Streams left cs w) ∧
    Cursor.Midway t.toList t.walk (fun passed left w =>
      w.parts.toList = passed ++ left ∧ ∀ cs, Cursor.Streams left cs w) := by
  refine ⟨?_, ?_, ?_⟩
  · exact Sequence.Walk.tracks.midway rfl fun w u h =>
      ⟨Sequence.Walk.tracks.view_eq h, Sequence.Walk.tracks.streams h⟩
  · exact BitSet.Walk.tracks.midway (BitSet.Walk.follows_walk s) fun w u h =>
      ⟨BitSet.Walk.tracks.view_eq h, BitSet.Walk.tracks.streams h⟩
  · exact PartSet.Walk.tracks.midway (PartSet.Walk.follows_walk ht.canonical) fun w u h =>
      ⟨PartSet.Walk.tracks.view_eq h, PartSet.Walk.tracks.streams h⟩

/-- A stream over the rest of a walk that ends, has its last part taken out and still gives
nothing.  Made directly, the calls are a request, two removals of which the second is refused, and
nothing else. -/
theorem stream_stays_ended_after_removal :
    let t := ((PartSet.empty.ask (.insert 4)).after.ask (.insert 5)).after
    let w := (Cursor.performAll [.next] t.walk).after
    let cs : List StreamCall := [.next, .next, .removeLast, .removeLast, .next]
    Cursor.Streams [5] cs w ∧
      (Cursor.stream cs w).answer.filterMap Reply.read? = [some 5, none, none] ∧
      StreamCall.direct 1 cs = [.next, .remove, .remove] := by
  intro t w cs
  have ht : t.Reachable := .request _ (.request _ .empty)
  obtain ⟨-, -, hparts⟩ :=
    streams_are_fused_and_transparent (Sequence.empty : Sequence Nat) .empty ht
  have hgiven : givenOut ((Cursor.trace [.next] t.walk).map Told.reply) = [4] := by
    decide +kernel
  have hplaces : takenPlaces 0 ((Cursor.trace [.next] t.walk).map Told.reply) = [] := by
    decide +kernel
  have hlist : t.toList = [4] ++ [5] := by decide +kernel
  obtain ⟨-, hstreams⟩ := hparts.after hgiven hplaces hlist
  exact ⟨hstreams cs, (hstreams cs).reads, rfl⟩

end IntWalk
