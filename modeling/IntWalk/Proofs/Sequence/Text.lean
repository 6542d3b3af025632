import IntWalk.Proofs.Json.Reads
import IntWalk.Sequence.Text

/-!
# Sequences read back

The text of a sequence is read back as the sequence it was written from, whatever the
kind of its values.
-/

namespace IntWalk

open Json

variable {k : IntKind}

/-- A value is accepted with its own sign and magnitude; zero has no sign. -/
lemma IntKind.accept_toInt (v : k.Value) :
    k.accept (decide (v.toInt < 0)) v.toInt.natAbs = some v := by
  have hsign : (decide (v.toInt < 0) && v.toInt.natAbs == 0) = false := by
    rw [Bool.and_eq_false_iff, decide_eq_false_iff_not, beq_eq_false_iff_ne]
    omega
  have hint : (if decide (v.toInt < 0) = true then -(v.toInt.natAbs : Int)
      else (v.toInt.natAbs : Int)) = v.toInt := by
    split
    · next hneg =>
      have := of_decide_eq_true hneg
      omega
    · next hpos =>
      have := of_decide_eq_false (Bool.eq_false_iff.2 hpos)
      omega
  rw [accept, hsign, Bool.false_and, hint, Value.ofInt?_toInt]
  rfl

namespace Sequence

lemma reads_tokens (s : Sequence k.Value) : Reader.Reads (reader k) s.tokens s := by
  have hvalues : ∀ v ∈ s.values, Reader.Reads (Reader.number k.accept) [Token.ofInt v.toInt] v :=
    fun v _ => Reader.reads_number (IntKind.accept_toInt v)
  have harray := Reader.reads_array hvalues fun v _ => ⟨_, _, rfl, nofun⟩
  exact Reader.reads_record (.cons (harray.map Sequence.mk) (.nil s))
    (List.pairwise_singleton _ _)

lemma recovers_tokens (s : Sequence k.Value) : Token.Recovers s.tokens := by
  refine Token.recovers_object (List.forall_mem_singleton.2 (Token.recovers_array ?_))
  exact fun v _ => Token.recovers_integer _ _

theorem decode_encode (s : Sequence k.Value) : decode k s.encode = .ok s :=
  (reads_tokens s).decode_text (recovers_tokens s)

end Sequence

end IntWalk
