import IntWalk.Parts.Text
import IntWalk.Proofs.Json.Reads
import IntWalk.Proofs.Parts.Canonical

/-!
# Part sets read back

The text of a part set with canonical runs is read back as this set: no run is reversed,
and no two neighbours are refused.
-/

namespace IntWalk

open Json

namespace Run

lemma reads_readPart (p : Part) : Reader.Reads readPart [Token.ofNat p.toNat] p := by
  have hnatural := Reader.reads_natural (Nat.le_of_lt_succ (Part.toNat_lt p))
  have hpart := hnatural.map UInt32.ofNat
  rwa [UInt32.ofNat_toNat] at hpart

lemma reads_record (r : Run) : Reader.Reads (Reader.record fields true ⟨0, 0⟩) r.tokens r := by
  have hfields : Reader.Fills fields [("first", [Token.ofNat r.first.toNat]),
      ("last", [Token.ofNat r.last.toNat])] ⟨0, 0⟩ r :=
    .cons ((reads_readPart r.first).map fun p => Run.mk p 0)
      (.cons ((reads_readPart r.last).map fun p => Run.mk r.first p) (.nil r))
  exact Reader.reads_record hfields (by decide)

lemma reads_tokens {r : Run} (h : r.first ≤ r.last) : Reader.Reads reader r.tokens r := by
  rw [← List.append_nil r.tokens]
  refine (reads_record r).bind ?_
  rw [if_neg (UInt32.not_lt.2 h)]
  exact Reader.reads_pure r

lemma recovers_tokens (r : Run) : Token.Recovers r.tokens := by
  refine Token.recovers_object ?_
  rw [List.forall_mem_cons, List.forall_mem_singleton]
  exact ⟨Token.recovers_integer _ _, Token.recovers_integer _ _⟩

end Run

namespace PartSet

variable {s : PartSet}

lemma unseparated?_eq_none {runs : List Run} (h : Canonical runs) : unseparated? runs = none := by
  fun_induction unseparated? runs with
  | case1 a b rest hab ih => exact ih (Canonical.cons_iff.1 h).2.1
  | case2 a b rest hab =>
    exact absurd ((Canonical.cons_iff.1 h).2.2 b (List.mem_cons_self ..)) hab
  | case3 runs => rfl

/-- The runs of a set are read if each of them is. -/
lemma reads_record {item : Reader Run}
    (h : ∀ r ∈ s.runs.toList, Reader.Reads item r.tokens r) :
    Reader.Reads (Reader.record [⟨"received", fun _ => Reader.array item⟩] true []) s.tokens
      s.runs.toList := by
  have harray := Reader.reads_array h fun r _ => ⟨_, _, rfl, nofun⟩
  exact Reader.reads_record (.cons harray (.nil _)) (List.pairwise_singleton _ _)

lemma reads_tokens (h : Canonical s.runs.toList) : Reader.Reads reader s.tokens s := by
  have hrecord : Reader.Reads (Reader.record fields true []) s.tokens s.runs.toList :=
    reads_record fun r hr => Run.reads_tokens (h.1 r hr)
  rw [← List.append_nil s.tokens]
  refine hrecord.bind ?_
  rw [unseparated?_eq_none h]
  exact Reader.reads_pure s

lemma recovers_tokens (s : PartSet) : Token.Recovers s.tokens := by
  refine Token.recovers_object (List.forall_mem_singleton.2 (Token.recovers_array ?_))
  exact fun r _ => Run.recovers_tokens r

theorem decode_encode (h : Canonical s.runs.toList) : decode s.encode = .ok s :=
  (reads_tokens h).decode_text (recovers_tokens s)

end PartSet

end IntWalk
